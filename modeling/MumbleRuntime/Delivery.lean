import MumbleRuntime.Steps
import MumbleRuntime.Reception

/-!
# What a transition leaves of a connection

A transition is accepted with its whole batch, and then the four committed
values advance together, or only the flags of the queue change. A turn sends one
transition to each connection, and a drained queue is offered what the journal
still owes it.
-/

namespace MumbleRuntime
open Library ClientModel List AttachedConnection Plan

variable {queue queue' : OutboundQueue}

namespace OutboundQueue

def client (queue : OutboundQueue) : ClientModel := ClientModel.new.applyAll queue.accepted

theorem client_root (queue : OutboundQueue) :
    ∃ root, queue.client.channels.get? rootChannel = some root ∧ root.parent = none :=
  applyAll_new_root queue.accepted

theorem client_append {messages : List ControlMessage}
    (h : queue'.accepted = queue.accepted ++ messages) :
    queue'.client = queue.client.applyAll messages := by
  rw [client, h, applyAll_append]
  rfl

theorem Adds.client (h : Adds (fun message => message.isAside = true) queue queue') :
    queue'.client = queue.client := by
  obtain ⟨more, hacc, hasd⟩ := h
  rw [client_append hacc, applyAll_asides _ hasd]

theorem Touched.client (h : queue.Touched queue') : queue'.client = queue.client := by
  have hadds : Adds (fun message => message.isAside = true) queue queue' := h.adds rfl
  exact hadds.client

end OutboundQueue

variable {attached : AttachedConnection}

theorem AttachedConnection.sendAll_client {batches : List (List ControlMessage)}
    (h : ∀ batch ∈ batches, ∀ message ∈ batch, message.isAside = true) :
    (attached.sendAll batches).queue.client = attached.queue.client :=
  (sendAll_adds h attached).client

theorem Emit.actions_isAside (sent fresh : Actions) :
    ∀ message ∈ Emit.actions sent fresh, message.isAside = true := by
  intro message hmsg
  rcases mem_append.mp hmsg with h | h
  · obtain ⟨action, -, rfl⟩ := mem_map.mp h
    rfl
  · obtain ⟨action, -, rfl⟩ := mem_map.mp h
    rfl

theorem retiredChannels_of_emit {ops : List PlanOp} {self : SessionId}
    (h : Emit.emit ops self = []) : retiredChannels ops = [] := by
  have hordered : Emit.selfFirstWithinUserAdditions ops self = [] := map_eq_nil_iff.mp h
  rw [retiredChannels, ← Emit.filterMap_selfFirst _ ops self, hordered]
  · rfl
  · left
    intro op hself
    cases op <;> first | rfl | cases hself

namespace AttachedConnection

def batch (attached : AttachedConnection) (ops : List PlanOp) (actions : Actions) :
    List ControlMessage :=
  Emit.emit ops attached.session ++ Emit.actions attached.actionsSent actions

theorem client_batch {queue : OutboundQueue} {ops : List PlanOp} {actions : Actions}
    (h : queue.accepted = attached.queue.accepted ++ attached.batch ops actions) :
    queue.client = attached.queue.client.applyAll (Emit.emit ops attached.session) := by
  rw [OutboundQueue.client_append h, batch, applyAll_append,
    applyAll_asides _ (Emit.actions_isAside _ _)]

theorem transmit_cases (attached : AttachedConnection) (ops : List PlanOp) (head : ℕ)
    (see : ScopeSet) (overlay : Overlay) (actions : Actions) :
    (attached.queue.admits (attached.batch ops actions).length = true ∧
      ∃ queue : OutboundQueue,
        queue.accepted = attached.queue.accepted ++ attached.batch ops actions ∧
        attached.transmit ops head see overlay actions =
          ⟨{ attached with queue }.commit head see overlay actions, .advanced,
            retiredChannels ops⟩) ∨
    (attached.queue.admits (attached.batch ops actions).length = false ∧
      ∃ (queue : OutboundQueue) (outcome : Outcome), queue.accepted = attached.queue.accepted ∧
        attached.transmit ops head see overlay actions = ⟨{ attached with queue }, outcome, []⟩) := by
  unfold transmit
  rw [show Emit.emit ops attached.session ++ Emit.actions attached.actionsSent actions =
    attached.batch ops actions from rfl]
  dsimp only
  split_ifs with hemp
  · have hnil := isEmpty_iff.mp hemp
    have hretired := retiredChannels_of_emit (append_eq_nil_iff.mp hnil).1
    left
    refine ⟨by simp [hnil, OutboundQueue.admits], attached.queue, by simp [hnil], ?_⟩
    rw [hretired]
  · rcases attached.queue.trySendAll_cases (attached.batch ops actions) with
      ⟨hok, hadm, hacc⟩ | ⟨⟨refused, herr⟩, hadm, hacc⟩
    · left
      refine ⟨hadm, _, hacc, ?_⟩
      generalize attached.queue.trySendAll (attached.batch ops actions) = sent at hok
      obtain ⟨queue, result⟩ := sent
      cases hok
      rfl
    · right
      refine ⟨hadm, (attached.queue.trySendAll (attached.batch ops actions)).1, ?_⟩
      generalize attached.queue.trySendAll (attached.batch ops actions) = sent at herr hacc
      obtain ⟨queue, result⟩ := sent
      cases herr
      cases refused with
      | congested needed free => exact ⟨.congested, hacc, rfl⟩
      | tooLarge needed capacity
      | closed => exact ⟨.close, hacc, rfl⟩

/-- The operations a turn has for this connection; none when the journal no
longer reaches back to its cursor. -/
def turnOps (attached : AttachedConnection) (journal : Journal) (head : ℕ) (previous : ShardView)
    (observed : ScopeSet) (rendered : Rendered) : Option (List PlanOp) :=
  if attached.moved observed then
    some (replanOps (attached.composed previous)
      ((rendered.view.restrict observed).compose (rendered.overlayOf attached.id)))
  else
    match journal.replay attached.cursor head with
    | .error _ => none
    | .ok replayed => some (attached.pushOps replayed (rendered.overlayOf attached.id))

theorem not_moved {observed : ScopeSet}
    (h : ¬attached.moved observed = true) : attached.held = none ∧ attached.see = observed := by
  simpa [moved] using h

theorem advance_eq (attached : AttachedConnection) (journal : Journal) (head : ℕ)
    (previous : ShardView) (observed : ScopeSet) (rendered : Rendered) :
    attached.advance journal head previous observed rendered =
      match attached.turnOps journal head previous observed rendered with
      | none => ⟨attached, .close, []⟩
      | some ops => attached.transmit ops head observed (rendered.overlayOf attached.id)
          (rendered.actionsOf attached.id) := by
  unfold advance turnOps
  split_ifs with hmoved
  · rfl
  · unfold push
    cases journal.replay attached.cursor head with
    | error e => rfl
    | ok replayed => rw [(not_moved hmoved).2]

end AttachedConnection

namespace Shard

variable (shard : Shard) (logic : ShardLogic) (rendered : Rendered)

def published : ℕ :=
  if (Plan.plan shard.view rendered.view).isEmpty then shard.version else shard.version + 1

theorem publish_connections : (shard.publish rendered).connections = shard.connections := by
  unfold publish
  dsimp only
  split_ifs <;> rfl

theorem publish_view : (shard.publish rendered).view = rendered.view := by
  unfold publish
  dsimp only
  split_ifs <;> rfl

theorem publish_version : (shard.publish rendered).version = shard.published rendered := by
  unfold publish published
  dsimp only
  generalize (if (plan shard.view rendered.view).isEmpty then shard.version
    else shard.version + 1) = version
  split_ifs <;> rfl

theorem publish_journal : (shard.publish rendered).journal =
    if (plan shard.view rendered.view).isEmpty then shard.journal
    else shard.journal.push (plan shard.view rendered.view) := by
  unfold publish
  dsimp only
  generalize (if (plan shard.view rendered.view).isEmpty then shard.journal
    else shard.journal.push (plan shard.view rendered.view)) = journal
  split_ifs <;> rfl

theorem publish_head_le : shard.journal.head ≤ (shard.publish rendered).journal.head := by
  rw [publish_journal]
  split_ifs
  · exact le_refl _
  · exact Nat.le_succ _

theorem replay_published {shard : Shard} {rendered : Rendered} {start : ℕ}
    {replayed : List PlannedOp} (hstart : start ≤ shard.journal.head)
    (h : (shard.publish rendered).journal.replay start (shard.publish rendered).journal.head =
      .ok replayed) :
    ∃ earlier, shard.journal.replay start shard.journal.head = .ok earlier ∧
      replayed = earlier ++ plan shard.view rendered.view := by
  rw [publish_journal] at h
  split_ifs at h with hemp
  · exact ⟨replayed, h, by rw [isEmpty_iff.mp hemp, append_nil]⟩
  · exact Journal.replay_push hstart h

def InStep (shard : Shard) : Prop := shard.version = shard.journal.head

theorem published_eq_head {shard : Shard} (h : shard.InStep) (rendered : Rendered) :
    shard.published rendered = (shard.publish rendered).journal.head := by
  rw [publish_journal, published]
  split_ifs
  · exact h
  · exact congrArg (· + 1) h

def turnOps (attached : AttachedConnection) : Option (List PlanOp) :=
  attached.turnOps (shard.publish rendered).journal (shard.published rendered) shard.view
    (logic.observation attached.id) rendered

def admitsTurn (attached : AttachedConnection) : Bool :=
  (shard.turnOps logic rendered attached).any fun ops =>
    attached.queue.admits (attached.batch ops (rendered.actionsOf attached.id)).length

def turned (attached : AttachedConnection) : AttachedConnection :=
  AttachedConnection.afterTurn
    ((shard.publish rendered).delivery shard.view logic rendered attached)

theorem turned_cases (attached : AttachedConnection) :
    (∃ ops, shard.turnOps logic rendered attached = some ops ∧
      shard.admitsTurn logic rendered attached = true ∧
      ((shard.publish rendered).delivery shard.view logic rendered attached).retired =
        retiredChannels ops ∧
      ∃ queue : OutboundQueue,
        queue.accepted = attached.queue.accepted ++
          attached.batch ops (rendered.actionsOf attached.id) ∧
        shard.turned logic rendered attached =
          { attached with queue }.commit (shard.published rendered)
            (logic.observation attached.id) (rendered.overlayOf attached.id)
            (rendered.actionsOf attached.id)) ∨
    (shard.admitsTurn logic rendered attached = false ∧
      ((shard.publish rendered).delivery shard.view logic rendered attached).retired = [] ∧
      ∃ queue : OutboundQueue, queue.accepted = attached.queue.accepted ∧
        shard.turned logic rendered attached = { attached with queue }) := by
  unfold turned admitsTurn delivery
  rw [advance_eq, publish_version]
  rw [show attached.turnOps (shard.publish rendered).journal (shard.published rendered) shard.view
    (logic.observation attached.id) rendered = shard.turnOps logic rendered attached from rfl]
  cases shard.turnOps logic rendered attached with
  | none => exact Or.inr ⟨rfl, rfl, attached.queue.markFatal, rfl, rfl⟩
  | some ops =>
    dsimp only [Option.any_some]
    rcases attached.transmit_cases ops (shard.published rendered) (logic.observation attached.id)
      (rendered.overlayOf attached.id) (rendered.actionsOf attached.id) with
      ⟨hadm, queue, hacc, htransmit⟩ | ⟨hadm, queue, outcome, hacc, htransmit⟩
    · left
      rw [htransmit]
      exact ⟨ops, rfl, hadm, rfl, queue, hacc, rfl⟩
    · right
      rw [htransmit]
      refine ⟨hadm, rfl, ?_⟩
      unfold afterTurn
      split_ifs
      · exact ⟨queue.markFatal, hacc, rfl⟩
      · exact ⟨queue, hacc, rfl⟩

theorem accept_rows (ids : IdAllocator) (connection : ConnectionId) :
    (shard.accept ids logic rendered).1.connections.get? connection =
      (shard.connections.get? connection).map (shard.turned logic rendered) := by
  unfold accept deliverBelow
  rw [Table.get?_mapRows, publish_connections]
  rfl

end Shard

namespace AttachedConnection

def admitsRetry (attached : AttachedConnection) (journal : Journal) : Bool :=
  match journal.replay attached.cursor journal.head with
  | .error _ => false
  | .ok replayed =>
    attached.queue.admits (attached.batch (attached.pushOps replayed attached.overlaySent)
      attached.actionsSent).length

theorem push_cases (attached : AttachedConnection) (journal : Journal) :
    (∃ replayed, journal.replay attached.cursor journal.head = .ok replayed ∧
      attached.admitsRetry journal = true ∧
      ∃ queue : OutboundQueue,
        queue.accepted = attached.queue.accepted ++
          attached.batch (attached.pushOps replayed attached.overlaySent) attached.actionsSent ∧
        attached.push journal journal.head attached.overlaySent attached.actionsSent =
          ⟨{ attached with queue }.commit journal.head attached.see attached.overlaySent
            attached.actionsSent, .advanced,
            retiredChannels (attached.pushOps replayed attached.overlaySent)⟩) ∨
    (∃ (queue : OutboundQueue) (outcome : Outcome), queue.accepted = attached.queue.accepted ∧
      attached.push journal journal.head attached.overlaySent attached.actionsSent =
        ⟨{ attached with queue }, outcome, []⟩) := by
  unfold push admitsRetry
  cases hrpl : journal.replay attached.cursor journal.head with
  | error e => exact Or.inr ⟨attached.queue, .close, rfl, rfl⟩
  | ok replayed =>
    rcases attached.transmit_cases (attached.pushOps replayed attached.overlaySent) journal.head
      attached.see attached.overlaySent attached.actionsSent with
      ⟨hadm, queue, hacc, htransmit⟩ | ⟨-, queue, outcome, hacc, htransmit⟩
    · exact Or.inl ⟨replayed, rfl, hadm, queue, hacc, htransmit⟩
    · exact Or.inr ⟨queue, outcome, hacc, htransmit⟩

end AttachedConnection

end MumbleRuntime
