import MumbleRuntime.Emit

/-!
# One connection's bounded output queue

A whole transition is admitted or none of it. Besides what the queue of the
source holds, the model keeps the list of every message it ever accepted: that
list is what the connection's client has been or will be told.
-/

namespace MumbleRuntime

/-- `CAPACITY`: how many messages one connection's queue holds. -/
def queueCapacity : ℕ := 1024

def maxDepthForVoice : ℕ := 64

inductive VoiceAdmission
  | accepted
  | dropped
  deriving DecidableEq

inductive Refused
  | congested (needed free : ℕ)
  | tooLarge (needed capacity : ℕ)
  | closed
  deriving DecidableEq

structure OutboundQueue where
  capacity : ℕ
  depth : ℕ
  closed : Bool
  mustClose : Bool
  accepted : List ControlMessage
  deriving DecidableEq

namespace OutboundQueue

def withCapacity (capacity : ℕ) : OutboundQueue := ⟨max capacity 1, 0, false, false, []⟩

def new : OutboundQueue := withCapacity queueCapacity

def free (queue : OutboundQueue) : ℕ := queue.capacity - queue.depth

def markFatal (queue : OutboundQueue) : OutboundQueue := { queue with mustClose := true }

/-- Whether a batch of `needed` messages is admitted. -/
def admits (queue : OutboundQueue) (needed : ℕ) : Bool :=
  needed = 0 || (!queue.closed && needed ≤ queue.free)

def trySendAll (queue : OutboundQueue) (messages : List ControlMessage) :
    OutboundQueue × Except Refused Unit :=
  let needed := messages.length
  if needed = 0 then (queue, .ok ())
  else if queue.capacity < needed then
    (queue.markFatal, .error (.tooLarge needed queue.capacity))
  else if queue.closed then (queue.markFatal, .error .closed)
  else if queue.free < needed then (queue, .error (.congested needed queue.free))
  else
    ({ queue with
        depth := queue.depth + needed
        accepted := queue.accepted ++ messages }, .ok ())

def pushVoice (queue : OutboundQueue) : OutboundQueue × VoiceAdmission :=
  if maxDepthForVoice ≤ queue.depth then (queue, .dropped)
  else if queue.closed then (queue.markFatal, .dropped)
  else if queue.free = 0 then (queue, .dropped)
  else
    ({ queue with
        depth := queue.depth + 1
        accepted := queue.accepted ++ [.udpTunnel] }, .accepted)

def drain (queue : OutboundQueue) (n : ℕ) : OutboundQueue :=
  { queue with depth := queue.depth - n }

def hangUp (queue : OutboundQueue) : OutboundQueue := { queue with closed := true }

theorem trySendAll_cases (queue : OutboundQueue) (messages : List ControlMessage) :
    ((queue.trySendAll messages).2 = .ok () ∧ queue.admits messages.length = true ∧
      (queue.trySendAll messages).1.accepted = queue.accepted ++ messages) ∨
    ((∃ refused, (queue.trySendAll messages).2 = .error refused) ∧
      queue.admits messages.length = false ∧
      (queue.trySendAll messages).1.accepted = queue.accepted) := by
  by_cases hzero : messages.length = 0
  · have hnil := List.length_eq_zero_iff.mp hzero
    left
    simp [trySendAll, admits, hnil]
  · by_cases hlarge : queue.capacity < messages.length
    · right
      have hfree : ¬messages.length ≤ queue.free := by
        have : queue.free ≤ queue.capacity := Nat.sub_le _ _
        omega
      simp [trySendAll, admits, markFatal, hzero, hlarge, hfree]
    · by_cases hclosed : queue.closed = true
      · right
        simp [trySendAll, admits, markFatal, hzero, hlarge, hclosed]
      · by_cases hfree : queue.free < messages.length
        · right
          simp [trySendAll, admits, hzero, hlarge, hclosed, hfree]
        · left
          simp [trySendAll, admits, hzero, hlarge, hclosed, hfree]
          omega

end OutboundQueue

end MumbleRuntime
