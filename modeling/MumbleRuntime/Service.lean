import MumbleRuntime.Queue
import MumbleRuntime.Library.Transition

/-!
# The service loop of a connection and the flag that ends it

The loop reads the flag at its top and then waits for the client or for its queue.
The shard, the voice plane and the runtime send into the queue and set the flag
from their own tasks, whatever the loop is doing.
-/

namespace MumbleRuntime.Connection

open Library OutboundQueue

inductive Stage
  | greeting
  | checking
  | waiting
  | handling
  | ended
  deriving DecidableEq

structure Served where
  queue : OutboundQueue
  stage : Stage
  deriving DecidableEq

inductive ServiceStep
  | trySendAll (messages : List ControlMessage)
  | pushVoice
  | markFatal
  | greeted
  | check
  | incoming
  | recv
  | handled
  | leave

namespace Served

def start : Served := ⟨.new, .greeting⟩

/-- The receiving half of the queue goes with the loop. -/
def finish (served : Served) : Served := ⟨served.queue.hangUp, .ended⟩

def step (served : Served) : ServiceStep → Option Served
  | .trySendAll messages => some { served with queue := (served.queue.trySendAll messages).1 }
  | .pushVoice => some { served with queue := served.queue.pushVoice.1 }
  | .markFatal => some { served with queue := served.queue.markFatal }
  | .greeted =>
    if served.stage = .greeting then
      some ⟨served.queue.drain served.queue.depth, .checking⟩
    else none
  | .check =>
    if served.stage = .checking then
      some (if served.queue.mustClose then served.finish else { served with stage := .waiting })
    else none
  | .incoming => if served.stage = .waiting then some { served with stage := .handling } else none
  | .recv =>
    if served.stage = .waiting ∧ served.queue.depth ≠ 0 then some ⟨served.queue.drain 1, .handling⟩
    else none
  | .handled => if served.stage = .handling then some { served with stage := .checking } else none
  | .leave =>
    if served.stage = .checking ∨ served.stage = .ended then none else some served.finish

/-- A step of another task sets the flag. -/
def flags (served : Served) : ServiceStep → Bool
  | .trySendAll messages =>
    served.queue.capacity < messages.length || (served.queue.closed && messages ≠ [])
  | .pushVoice => served.queue.closed && served.queue.depth < maxDepthForVoice
  | .markFatal => true
  | _ => false

/-- The flag is set while something is queued or the loop is not waiting. -/
def flaggedAwake (served : Served) (action : ServiceStep) : Bool :=
  !served.flags action || served.stage ≠ .waiting || served.queue.depth ≠ 0

def Noticed (served : Served) : Prop :=
  served.stage = .waiting → served.queue.mustClose = true → served.queue.depth ≠ 0

variable {served served' : Served}

theorem trySendAll_noticed {messages : List ControlMessage} (h : served.Noticed)
    (hawake : served.flaggedAwake (.trySendAll messages) = true) :
    Noticed { served with queue := (served.queue.trySendAll messages).1 } := by
  intro hwaiting hmust
  have hstage : served.stage = .waiting := hwaiting
  simp only [flaggedAwake, flags] at hawake
  unfold trySendAll at hmust ⊢
  dsimp only at hmust ⊢
  split_ifs at hmust ⊢ with hzero hlarge hclosed hfree
  · exact h hwaiting hmust
  · simpa [markFatal, hlarge, hstage] using hawake
  · have hne := List.length_eq_zero_iff.not.mp hzero
    simpa [markFatal, hne, hclosed, hstage] using hawake
  · exact h hwaiting hmust
  · dsimp only
    omega

theorem pushVoice_noticed (h : served.Noticed) (hawake : served.flaggedAwake .pushVoice = true) :
    Noticed { served with queue := served.queue.pushVoice.1 } := by
  intro hwaiting hmust
  have hstage : served.stage = .waiting := hwaiting
  simp only [flaggedAwake, flags] at hawake
  unfold pushVoice at hmust ⊢
  split_ifs at hmust ⊢ with hdeep hclosed hfree
  · exact h hwaiting hmust
  · have hshallow := Nat.lt_of_not_le hdeep
    simpa [markFatal, hshallow, hclosed, hstage] using hawake
  · exact h hwaiting hmust
  · exact Nat.succ_ne_zero _

theorem Noticed.step {action : ServiceStep} (h : served.Noticed)
    (hawake : served.flaggedAwake action = true) (hstep : served.step action = some served') :
    served'.Noticed := by
  cases action with
  | trySendAll messages =>
    cases hstep
    exact trySendAll_noticed h hawake
  | pushVoice =>
    cases hstep
    exact pushVoice_noticed h hawake
  | markFatal =>
    cases hstep
    intro hwaiting _
    have hstage : served.stage = .waiting := hwaiting
    simpa [markFatal, flaggedAwake, flags, hstage] using hawake
  | check =>
    simp only [Served.step] at hstep
    split_ifs at hstep with hchecking hmust <;> cases hstep
    · intro hwaiting
      cases hwaiting
    · exact fun _ hset => absurd hset hmust
  | greeted | incoming | recv | handled | leave =>
    simp only [Served.step] at hstep
    split_ifs at hstep
    cases hstep
    intro hwaiting
    cases hwaiting

end Served

theorem close_noticed {served : Served}
    (h : Reaches Served.step (fun served action => served.flaggedAwake action = true)
      Served.start served)
    (hwaiting : served.stage = .waiting) (hmust : served.queue.mustClose = true) :
    served.queue.depth ≠ 0 ∧
      ∃ served', runActions Served.step served [.recv, .handled, .check] = some served' ∧
        served'.stage = .ended := by
  have hstart : Served.start.Noticed := fun hstage => absurd hstage (by decide)
  have hdepth : served.queue.depth ≠ 0 :=
    Reaches.invariant (P := Served.Noticed) hstart
      (fun _ _ _ hinv hawake hstep => hinv.step hawake hstep) h hwaiting hmust
  refine ⟨hdepth, Served.finish ⟨served.queue.drain 1, .checking⟩, ?_, rfl⟩
  simp [runActions, Served.step, OutboundQueue.drain, hwaiting, hmust, hdepth]

/-- A connection whose loop waits when its shard closes it, behind the queued messages. -/
def closedServed (messages : List ControlMessage) : Served :=
  (runActions Served.step Served.start
    [.greeted, .check, .trySendAll messages, .markFatal]).getD .start

theorem close_noticed_queued : (closedServed [.udpTunnel]).queue.depth ≠ 0 :=
  (close_noticed (reaches_getD (by decide)) (by decide) (by decide)).1

theorem idle_close_unnoticed :
    Reaches Served.step (fun _ _ => True) Served.start (closedServed []) ∧
      (closedServed []).stage = .waiting ∧ (closedServed []).queue.mustClose = true ∧
      (closedServed []).queue.depth = 0 :=
  ⟨reaches_getD (by decide), by decide⟩

end MumbleRuntime.Connection
