import MumbleRuntime.Delivery

/-!
# Transitions commit whole or not at all

`try_send_all` reserves its slots one at a time and writes only once it has them
all. While it does, the connection's writer reads or ends and the voice plane
offers packets to the same queue. Whatever they do, a transition enqueues its
whole batch and commits, or it enqueues nothing and leaves the connection alone.
-/

namespace MumbleRuntime

open List

inductive QueueEvent
  | read (count : ℕ)
  | hangUp
  | voice

/-- What the others do before each slot is reserved and before each message is
written. -/
structure Interference where
  reserving : ℕ → List QueueEvent
  writing : ℕ → List QueueEvent

def Interference.none : Interference := ⟨fun _ => [], fun _ => []⟩

def ControlMessage.isTunnel : ControlMessage → Bool
  | .udpTunnel => true
  | _ => false

namespace OutboundQueue

/-- The queue after another's move, with `permits` of its slots reserved: a
reserved slot counts as taken, and there is nothing in it to read. -/
def meanwhile (permits : ℕ) (queue : OutboundQueue) : QueueEvent → OutboundQueue
  | .read count => { queue with depth := max permits (queue.depth - count) }
  | .hangUp => queue.hangUp
  | .voice => queue.pushVoice.1

def reserve (others : ℕ → List QueueEvent) (needed : ℕ) :
    ℕ → ℕ → OutboundQueue → OutboundQueue × Except Refused Unit
  | 0, _, queue => (queue, .ok ())
  | missing + 1, permits, queue =>
    let queue := (others permits).foldl (meanwhile permits) queue
    if queue.closed then
      ({ queue.markFatal with depth := queue.depth - permits }, .error .closed)
    else if queue.free = 0 then
      ({ queue with depth := queue.depth - permits }, .error (.congested needed permits))
    else reserve others needed missing (permits + 1) { queue with depth := queue.depth + 1 }

def fill (others : ℕ → List QueueEvent) : List ControlMessage → OutboundQueue → OutboundQueue
  | [], queue => queue
  | message :: rest, queue =>
    let permits := rest.length + 1
    let queue := (others permits).foldl (meanwhile permits) queue
    fill others rest { queue with accepted := queue.accepted ++ [message] }

def trySendAllAmid (others : Interference) (queue : OutboundQueue)
    (messages : List ControlMessage) : OutboundQueue × Except Refused Unit :=
  let needed := messages.length
  if needed = 0 then (queue, .ok ())
  else if queue.capacity < needed then
    (queue.markFatal, .error (.tooLarge needed queue.capacity))
  else
    match reserve others.reserving needed needed 0 queue with
    | (queue, .ok ()) => (fill others.writing messages queue, .ok ())
    | (queue, .error refused) => (queue, .error refused)

def control (queue : OutboundQueue) : List ControlMessage :=
  queue.accepted.filter fun message => !message.isTunnel

theorem control_meanwhile (permits : ℕ) (queue : OutboundQueue) (event : QueueEvent) :
    (queue.meanwhile permits event).control = queue.control := by
  cases event with
  | read count => rfl
  | hangUp => rfl
  | voice =>
    simp only [meanwhile, pushVoice]
    split_ifs
    · rfl
    · rfl
    · rfl
    · simp [control, ControlMessage.isTunnel]

theorem control_foldl_meanwhile (permits : ℕ) (events : List QueueEvent) (queue : OutboundQueue) :
    (events.foldl (meanwhile permits) queue).control = queue.control := by
  induction events generalizing queue with
  | nil => rfl
  | cons event rest ih =>
    rw [foldl_cons, ih, control_meanwhile]

theorem control_reserve (others : ℕ → List QueueEvent) (needed missing permits : ℕ)
    (queue : OutboundQueue) :
    (reserve others needed missing permits queue).1.control = queue.control := by
  induction missing generalizing permits queue with
  | zero => rfl
  | succ missing ih =>
    rw [← control_foldl_meanwhile permits (others permits) queue]
    simp only [reserve]
    split_ifs
    · rfl
    · rfl
    · exact ih _ _

theorem control_fill (others : ℕ → List QueueEvent) (messages : List ControlMessage)
    (queue : OutboundQueue) :
    (fill others messages queue).control =
      queue.control ++ messages.filter fun message => !message.isTunnel := by
  induction messages generalizing queue with
  | nil => exact (append_nil _).symm
  | cons message rest ih =>
    rw [fill, ih, ← control_foldl_meanwhile (rest.length + 1) (others (rest.length + 1)) queue]
    simp only [control, filter_append, append_assoc]
    rw [← filter_append, singleton_append]

theorem trySendAllAmid_cases (others : Interference) (queue : OutboundQueue)
    (messages : List ControlMessage) :
    ((queue.trySendAllAmid others messages).2 = .ok () ∧
      (queue.trySendAllAmid others messages).1.control =
        queue.control ++ messages.filter fun message => !message.isTunnel) ∨
    ((∃ refused, (queue.trySendAllAmid others messages).2 = .error refused) ∧
      (queue.trySendAllAmid others messages).1.control = queue.control) := by
  unfold trySendAllAmid
  dsimp only
  split_ifs with hzero hlarge
  · left
    simp [length_eq_zero_iff.mp hzero]
  · exact .inr ⟨⟨_, rfl⟩, rfl⟩
  · have hcontrol := control_reserve others.reserving messages.length messages.length 0 queue
    generalize reserve others.reserving messages.length messages.length 0 queue = reserved at hcontrol
    obtain ⟨queue', result⟩ := reserved
    cases result with
    | ok =>
      left
      refine ⟨rfl, ?_⟩
      rw [control_fill, hcontrol]
    | error refused => exact .inr ⟨⟨refused, rfl⟩, hcontrol⟩

theorem reserve_quiet {queue : OutboundQueue} (hopen : queue.closed = false)
    (needed missing permits : ℕ) :
    reserve (fun _ => []) needed missing permits queue =
      if queue.free < missing then
        ({ queue with depth := queue.depth - permits },
          .error (.congested needed (permits + queue.free)))
      else ({ queue with depth := queue.depth + missing }, .ok ()) := by
  induction missing generalizing permits queue with
  | zero => rfl
  | succ missing ih =>
    have hnext := @ih { queue with depth := queue.depth + 1 } hopen (permits + 1)
    have hfree : ({ queue with depth := queue.depth + 1 } : OutboundQueue).free = queue.free - 1 :=
      Nat.sub_add_eq _ _ _
    simp only [reserve, foldl_nil, hnext, hfree, if_neg (ne_true_of_eq_false hopen)]
    split_ifs <;> simp only [Prod.mk.injEq, Except.error.injEq, Refused.congested.injEq, mk.injEq,
      true_and, and_true, reduceCtorEq] <;> omega

theorem fill_quiet (messages : List ControlMessage) (queue : OutboundQueue) :
    fill (fun _ => []) messages queue = { queue with accepted := queue.accepted ++ messages } := by
  induction messages generalizing queue with
  | nil => rw [fill, append_nil]
  | cons message rest ih =>
    simp only [fill, foldl_nil]
    rw [ih, append_assoc, singleton_append]

theorem trySendAllAmid_none : trySendAllAmid .none = trySendAll := by
  funext queue messages
  unfold trySendAllAmid trySendAll
  dsimp only
  split_ifs with hzero hlarge hclosed hfree
  · rfl
  · rfl
  · obtain ⟨missing, hmissing⟩ := Nat.exists_eq_succ_of_ne_zero hzero
    rw [hmissing]
    simp [reserve, Interference.none, hclosed, markFatal]
  · simp [Interference.none, reserve_quiet (Bool.eq_false_of_not_eq_true hclosed), hfree]
  · simp [Interference.none, reserve_quiet (Bool.eq_false_of_not_eq_true hclosed), hfree, fill_quiet]

end OutboundQueue

namespace AttachedConnection

variable (others : Interference) (attached : AttachedConnection)

def transmitAmid (ops : List PlanOp) (head : ℕ) (see : ScopeSet) (overlay : Overlay)
    (actions : Actions) : Delivery :=
  let messages := Emit.emit ops attached.session ++ Emit.actions attached.actionsSent actions
  if messages.isEmpty then ⟨attached.commit head see overlay actions, .advanced, []⟩
  else
    match attached.queue.trySendAllAmid others messages with
    | (queue, .ok ()) =>
      ⟨{ attached with queue }.commit head see overlay actions, .advanced, retiredChannels ops⟩
    | (queue, .error (.congested _ _)) => ⟨{ attached with queue }, .congested, []⟩
    | (queue, .error _) => ⟨{ attached with queue }, .close, []⟩

def pushAmid (journal : Journal) (head : ℕ) (overlay : Overlay) (actions : Actions) : Delivery :=
  match journal.replay attached.cursor head with
  | .error _ => ⟨attached, .close, []⟩
  | .ok replayed =>
    attached.transmitAmid others (attached.pushOps replayed overlay) head attached.see overlay
      actions

def replanAmid (before after : ShardView) (head : ℕ) (newSee : ScopeSet) (overlay : Overlay)
    (actions : Actions) : Delivery :=
  attached.transmitAmid others
    (replanOps (attached.composed before) ((after.restrict newSee).compose overlay))
    head newSee overlay actions

/-- With nobody else at the queue, reserving its slots and writing them one by one comes to
the one step in which a delivery sends its batch. -/
theorem quiet_send_is_atomic : OutboundQueue.trySendAllAmid .none = OutboundQueue.trySendAll ∧
    pushAmid .none = push ∧ replanAmid .none = replan := by
  have htransmit : transmitAmid .none = transmit := by
    funext attached ops head see overlay actions
    rw [transmitAmid, OutboundQueue.trySendAllAmid_none]
    rfl
  refine ⟨OutboundQueue.trySendAllAmid_none, ?_, ?_⟩
  · funext attached journal head overlay actions
    rw [pushAmid, htransmit]
    rfl
  · funext attached before after head newSee overlay actions
    rw [replanAmid, htransmit]
    rfl

structure Commits (ops : List PlanOp) (head : ℕ) (see : ScopeSet) (overlay : Overlay)
    (actions : Actions) (delivery : Delivery) : Prop where
  sent : delivery.attached.queue.control = attached.queue.control ++ attached.batch ops actions
  row : delivery.attached =
    { attached with
      queue := delivery.attached.queue
      cursor := head
      see
      overlaySent := overlay
      actionsSent := actions
      sharedCursor := head
      held := none
      ready := false }
  outcome : delivery.outcome = .advanced
  retired : delivery.retired = retiredChannels ops

structure Declines (delivery : Delivery) : Prop where
  unsent : delivery.attached.queue.control = attached.queue.control
  row : delivery.attached = { attached with queue := delivery.attached.queue }
  outcome : delivery.outcome ≠ .advanced
  retired : delivery.retired = []

theorem batch_isTunnel (ops : List PlanOp) (actions : Actions) :
    ∀ message ∈ attached.batch ops actions, message.isTunnel = false := by
  intro message hmsg
  rcases mem_append.mp hmsg with h | h
  · obtain ⟨op, -, rfl⟩ := mem_map.mp h
    cases op <;> rfl
  · rcases mem_append.mp h with h | h
    · obtain ⟨action, -, rfl⟩ := mem_map.mp h
      rfl
    · obtain ⟨action, -, rfl⟩ := mem_map.mp h
      rfl

theorem batch_filter (ops : List PlanOp) (actions : Actions) :
    (attached.batch ops actions).filter (fun message => !message.isTunnel) =
      attached.batch ops actions := by
  refine filter_eq_self.mpr fun message hmsg => ?_
  rw [attached.batch_isTunnel ops actions message hmsg]
  rfl

theorem transmitAmid_empty {ops : List PlanOp} {actions : Actions}
    (h : attached.batch ops actions = []) (head : ℕ) (see : ScopeSet) (overlay : Overlay) :
    attached.Commits ops head see overlay actions
        (attached.transmitAmid others ops head see overlay actions) ∧
      (attached.transmitAmid others ops head see overlay actions).attached.queue =
        attached.queue := by
  have hemp : (Emit.emit ops attached.session ++
      Emit.actions attached.actionsSent actions).isEmpty = true := isEmpty_iff.mpr h
  have hretired := retiredChannels_of_emit (append_eq_nil_iff.mp h).1
  simp only [transmitAmid, hemp, if_true]
  refine ⟨⟨?_, rfl, rfl, hretired.symm⟩, rfl⟩
  rw [h, append_nil]
  rfl

theorem transmitAmid_cases (ops : List PlanOp) (head : ℕ) (see : ScopeSet) (overlay : Overlay)
    (actions : Actions) :
    attached.Commits ops head see overlay actions
        (attached.transmitAmid others ops head see overlay actions) ∨
      attached.Declines (attached.transmitAmid others ops head see overlay actions) := by
  by_cases hemp : attached.batch ops actions = []
  · exact .inl (attached.transmitAmid_empty others hemp head see overlay).1
  · have hnonempty : (Emit.emit ops attached.session ++
        Emit.actions attached.actionsSent actions).isEmpty = false :=
      isEmpty_eq_false_iff.mpr hemp
    have hcases := attached.queue.trySendAllAmid_cases others (attached.batch ops actions)
    rw [attached.batch_filter] at hcases
    simp only [transmitAmid, hnonempty, Bool.false_eq_true, if_false]
    rw [show Emit.emit ops attached.session ++ Emit.actions attached.actionsSent actions =
      attached.batch ops actions from rfl]
    generalize attached.queue.trySendAllAmid others (attached.batch ops actions) = sent at hcases ⊢
    obtain ⟨queue, result⟩ := sent
    rcases hcases with ⟨hok, hsent⟩ | ⟨⟨refused, herr⟩, hsent⟩
    · cases hok
      exact .inl ⟨hsent, rfl, rfl, rfl⟩
    · cases herr
      right
      cases refused with
      | _ => exact ⟨hsent, rfl, nofun, rfl⟩

/-- `push` and `replan` commit a transition whole or not at all, whatever happens
to the queue meanwhile; an empty transition is committed without the queue. -/
theorem transition_commits_atomically :
    (∀ (journal : Journal) head overlay actions,
      match journal.replay attached.cursor head with
      | .error _ => attached.Declines (attached.pushAmid others journal head overlay actions)
      | .ok replayed =>
        let ops := attached.pushOps replayed overlay
        let delivery := attached.pushAmid others journal head overlay actions
        (attached.Commits ops head attached.see overlay actions delivery ∨
          attached.Declines delivery) ∧
        (attached.batch ops actions = [] →
          attached.Commits ops head attached.see overlay actions delivery ∧
            delivery.attached.queue = attached.queue)) ∧
    ∀ before (after : ShardView) head newSee overlay actions,
      let ops := replanOps (attached.composed before) ((after.restrict newSee).compose overlay)
      let delivery := attached.replanAmid others before after head newSee overlay actions
      (attached.Commits ops head newSee overlay actions delivery ∨ attached.Declines delivery) ∧
      (attached.batch ops actions = [] →
        attached.Commits ops head newSee overlay actions delivery ∧
          delivery.attached.queue = attached.queue) := by
  refine ⟨?_, ?_⟩
  · intro journal head overlay actions
    cases hrpl : journal.replay attached.cursor head with
    | error lost =>
      simp only [pushAmid, hrpl]
      exact ⟨rfl, rfl, nofun, rfl⟩
    | ok replayed =>
      simp only [pushAmid, hrpl]
      generalize attached.pushOps replayed overlay = ops
      exact ⟨attached.transmitAmid_cases others ops head attached.see overlay actions,
        fun hemp => attached.transmitAmid_empty others hemp head attached.see overlay⟩
  · intro before after head newSee overlay actions
    simp only [replanAmid]
    generalize replanOps (attached.composed before) ((after.restrict newSee).compose overlay) = ops
    exact ⟨attached.transmitAmid_cases others ops head newSee overlay actions,
      fun hemp => attached.transmitAmid_empty others hemp head newSee overlay⟩

end AttachedConnection

end MumbleRuntime
