import MumbleRuntime.Library.Recency
import MumbleRuntime.Revisions

/-!
# Commands that were answered are not executed again

The completion log of a session holds the last response for each of the ids that were
most recently answered afresh. A frame that repeats one of them is answered from the
log, and nothing else happens.
-/

namespace MumbleRuntime.Controller

open Library OrderedMap

variable {requestId : Bytes}

namespace SessionLog

variable {Output : Type*}

theorem latest_cons_of_lt {maximum : Nat} {expired : Bytes} {order : List Bytes}
    (hfull : maximum < (expired :: order).length) :
    latest maximum (expired :: order) = latest maximum order := by
  rw [latest, latest, List.length_cons, Nat.succ_sub (Nat.le_of_lt_succ hfull), List.drop_succ_cons]

theorem trim_order (maximum : Nat) (completed : OrderedMap Bytes Output) (order : List Bytes) :
    (trim maximum completed order).2 = latest maximum order := by
  induction order generalizing completed with
  | nil => simp [trim, latest]
  | cons expired order ih =>
    unfold trim
    split_ifs with hfull
    · rw [ih, latest_cons_of_lt hfull]
    · rw [latest_of_length_le (Nat.le_of_not_lt hfull)]

theorem trim_find? (maximum : Nat) (completed : OrderedMap Bytes Output) {order : List Bytes}
    (hnd : order.Nodup) (requestId : Bytes) :
    (trim maximum completed order).1.find? requestId =
      if requestId ∈ order ∧ requestId ∉ latest maximum order then none
      else completed.find? requestId := by
  induction order generalizing completed with
  | nil => simp [trim]
  | cons expired order ih =>
    obtain ⟨hnew, hnd'⟩ := List.nodup_cons.mp hnd
    unfold trim
    by_cases hfull : maximum < (expired :: order).length
    · rw [if_pos hfull, ih _ hnd', find?_erase, latest_cons_of_lt hfull]
      by_cases hexpired : requestId = expired
      · have hgone : requestId ∉ latest maximum order := fun hmem =>
          hnew (hexpired ▸ (latest_sublist maximum order).mem hmem)
        simp [hexpired, hexpired ▸ hgone]
      · simp [hexpired]
    · rw [if_neg hfull, latest_of_length_le (Nat.le_of_not_lt hfull), if_neg fun h => h.2 h.1]

structure Recalls (maximum : Nat) (answers : List (Bytes × Output)) (log : SessionLog Output) :
    Prop where
  order : log.order = latest maximum (afresh maximum (answers.map Prod.fst))
  completed : ∀ requestId, log.completed.find? requestId =
    if requestId ∈ log.order then lastFor requestId answers else none

namespace Recalls

variable {maximum : Nat} {answers : List (Bytes × Output)} {log : SessionLog Output}

theorem nil (maximum : Nat) (id : SessionId) :
    Recalls maximum [] (⟨id, .empty, []⟩ : SessionLog Output) :=
  ⟨by simp [afresh, latest], fun _ => by simp⟩

section

variable (h : Recalls maximum answers log)

include h

theorem answered (hmem : requestId ∈ log.order) :
    ∃ result, lastFor requestId answers = some result := by
  rw [h.order] at hmem
  exact lastFor_isSome (mem_of_mem_afresh ((latest_sublist _ _).mem hmem))

theorem contains_iff (requestId : Bytes) :
    log.completed.contains requestId = true ↔ requestId ∈ log.order := by
  have hctn : log.completed.contains requestId = (log.completed.find? requestId).isSome := by
    simp [Table.contains, find?]
  rw [hctn, h.completed]
  split_ifs with hmem
  · obtain ⟨result, hres⟩ := h.answered hmem
    simp [hres, hmem]
  · simp [hmem]

theorem nodup : log.order.Nodup := by
  rw [h.order]
  exact nodup_latest_afresh _ _

theorem complete (requestId : Bytes) (result : Output) :
    Recalls maximum (answers ++ [(requestId, result)]) (log.complete maximum requestId result) := by
  -- The ids as they stand before the oldest are forgotten.
  obtain ⟨order, horder⟩ : ∃ order, order =
    if log.completed.contains requestId then log.order else log.order ++ [requestId] := ⟨_, rfl⟩
  have hnd : order.Nodup := by
    rw [horder]
    split_ifs with hctn
    · exact h.nodup
    · rw [h.contains_iff] at hctn
      exact List.nodup_append.mpr ⟨h.nodup, List.nodup_singleton _, fun other hoth last hlast heq =>
        hctn (List.mem_singleton.mp hlast ▸ heq ▸ hoth)⟩
  have hmem : ∀ other, other ∈ order ↔ other = requestId ∨ other ∈ log.order := by
    intro other
    rw [horder]
    split_ifs with hctn
    · refine ⟨.inr, fun hoth => hoth.elim (fun heq => ?_) fun hold => hold⟩
      rw [heq]
      exact (h.contains_iff _).mp hctn
    · simp [or_comm]
  have hlatest : (log.complete maximum requestId result).order = latest maximum order := by
    rw [horder]
    exact trim_order _ _ _
  refine ⟨?_, fun other => ?_⟩
  · rw [hlatest, horder, List.map_append, List.map_singleton, afresh_append, ← h.order]
    by_cases hold : requestId ∈ log.order
    · rw [if_pos ((h.contains_iff _).mpr hold), if_pos hold, ← h.order, latest_of_length_le]
      rw [h.order]
      exact length_latest_le _ _
    · rw [if_neg (by simpa using (h.contains_iff _).not.mpr hold), if_neg hold, h.order,
        latest_latest_append]
  · have hfind : (log.complete maximum requestId result).completed.find? other =
        (trim maximum (log.completed.set requestId result) order).1.find? other := by
      rw [horder]
      rfl
    rw [hfind, trim_find? _ _ hnd, hlatest, find?_set, h.completed, lastFor_append]
    by_cases hkept : other ∈ latest maximum order
    · have hoth := (hmem other).mp ((latest_sublist _ _).mem hkept)
      rw [if_neg fun hgone => hgone.2 hkept, if_pos hkept]
      by_cases hself : other = requestId
      · rw [if_pos hself, if_pos hself]
      · rw [if_neg hself, if_neg hself, if_pos (hoth.resolve_left hself)]
    · rw [if_neg hkept]
      by_cases hoth : other ∈ order
      · simp [hoth, hkept]
      · have hnot := (hmem other).not.mp hoth
        rw [not_or] at hnot
        simp [hoth, hnot]

end

end Recalls

end SessionLog

end MumbleRuntime.Controller

namespace MumbleRuntime.SpacesServer

open Library Controller Spaces

def Effect.answers (id : SessionId) : Effect → Option (Bytes × ServerFrame)
  | .recorded session frame => if session = id then some (frame.requestId, frame) else none
  | _ => none

variable {id : SessionId}

theorem Effect.answers_of_not_records {effect : Effect}
    (h : effect.records = false) : effect.answers id = none := by
  cases effect <;> simp_all [Effect.records, Effect.answers]

def answers (id : SessionId) (log : List Effect) : List (Bytes × ServerFrame) :=
  log.filterMap (Effect.answers id)

theorem recorded_of_mem_answers {log : List Effect}
    (h : requestId ∈ (answers id log).map Prod.fst) :
    ∃ frame, .recorded id frame ∈ log ∧ frame.requestId = requestId := by
  obtain ⟨⟨asked, frame⟩, hmem, rfl⟩ := List.mem_map.mp h
  obtain ⟨effect, heffect, hanswers⟩ := List.mem_filterMap.mp hmem
  cases effect with
  | recorded session recorded =>
    simp only [Effect.answers] at hanswers
    split_ifs at hanswers with hses
    cases hanswers
    exact ⟨_, hses ▸ heffect, rfl⟩
  | _ => cases hanswers

/-- The completion logs hold what was answered, and a session answers on its current stream. -/
structure Remembers (maximum : Nat) (log : List Effect) (actor : ControllerActor) : Prop where
  maximum_eq : actor.reliable.maximumCompletedPerSession = maximum
  recalls : ∀ id sessionLog, actor.reliable.sessions.get? id = some sessionLog →
    sessionLog.Recalls maximum (answers id log)
  asked : ∀ id frame, .recorded id frame ∈ log →
    id < actor.coreSessions.nextSessionId ∧ frame.requestId.isEmpty = false
  queued : ∀ id session, actor.sessions.get? id = some session → session.responses = session.streamId

namespace Remembers

variable {maximum : Nat} {log : List Effect} {actor actor' : ControllerActor}

theorem congr (h : Remembers maximum log actor) (hreliable : actor'.reliable = actor.reliable)
    (hnext : actor.coreSessions.nextSessionId ≤ actor'.coreSessions.nextSessionId)
    (hqueued : ∀ id session, actor'.sessions.get? id = some session →
      session.responses = session.streamId) : Remembers maximum log actor' where
  maximum_eq := hreliable ▸ h.maximum_eq
  recalls id sessionLog hget := by
    rw [hreliable] at hget
    exact h.recalls id sessionLog hget
  asked id frame hmem := ⟨(h.asked id frame hmem).1.trans_le hnext, (h.asked id frame hmem).2⟩
  queued := hqueued

theorem silent (h : Remembers maximum log actor) (effects : List Effect)
    (heffects : ∀ effect ∈ effects, effect.records = false) : Remembers maximum
    (log ++ effects) actor := by
  have hanswers : ∀ id, answers id (log ++ effects) = answers id log := by
    intro id
    have hnil : effects.filterMap (Effect.answers id) = [] :=
      List.filterMap_eq_nil_iff.mpr fun effect hmem =>
        Effect.answers_of_not_records (heffects effect hmem)
    rw [answers, List.filterMap_append, hnil, List.append_nil, answers]
  refine ⟨h.maximum_eq, fun id sessionLog hget => hanswers id ▸ h.recalls id sessionLog hget,
    fun id frame hmem => ?_, h.queued⟩
  rcases List.mem_append.mp hmem with hmem | hmem
  · exact h.asked id frame hmem
  · cases heffects _ hmem

theorem complete (h : Remembers maximum log actor) {frame : ServerFrame}
    {reliable : ReliableCommands ServerFrame}
    (hiss : id < actor.coreSessions.nextSessionId) (hask : frame.requestId.isEmpty = false)
    (hcmp : actor.reliable.complete id frame.requestId frame = (.ok (), reliable)) :
    Remembers maximum (log ++ [.recorded id frame]) { actor with reliable } := by
  unfold ReliableCommands.complete at hcmp
  cases hget : actor.reliable.sessions.get? id with
  | none => simp [hget] at hcmp
  | some sessionLog =>
    simp only [hget, hask, Bool.false_eq_true, if_false, Prod.mk.injEq, true_and] at hcmp
    have hid : sessionLog.id = id := Table.key_of_get? hget
    rw [h.maximum_eq] at hcmp
    subst hcmp
    refine ⟨rfl, fun other otherLog hoth => ?_, fun other frame' hmem => ?_, h.queued⟩
    · have hkey : (sessionLog.complete maximum frame.requestId frame).id = id := hid
      simp only [Table.get?_insert, hkey] at hoth
      rw [answers, List.filterMap_append]
      split_ifs at hoth with hself
      · cases hoth
        rw [hself]
        simpa [Effect.answers, answers] using (h.recalls id sessionLog hget).complete frame.requestId frame
      · simpa [Effect.answers, answers, Ne.symm hself] using h.recalls other otherLog hoth
    · rcases List.mem_append.mp hmem with hmem | hmem
      · exact h.asked other frame' hmem
      · cases List.mem_singleton.mp hmem
        exact ⟨hiss, hask⟩

end Remembers

section Walk

variable {licence : Licence} {maximum : Nat} {base : List Effect} {turn turn' : Turn}

theorem Turn.hangUp_remembers (session : ControllerSession)
    (hrem : Remembers maximum (base ++ turn.log) turn.actor) :
    Remembers maximum (base ++ (turn.hangUp session).log) (turn.hangUp session).actor := by
  refine hrem.congr rfl le_rfl fun other session' hoth => ?_
  change (turn.actor.sessions.insert _).get? other = some session' at hoth
  rw [Table.get?_insert] at hoth
  split_ifs at hoth
  · cases hoth
    rfl
  · exact hrem.queued other session' hoth

theorem Turn.Uncached.remembers {frame : ServerFrame} (h : turn.Uncached id frame turn')
    (hrem : Remembers maximum (base ++ turn.log) turn.actor) :
    Remembers maximum (base ++ turn'.log) turn'.actor := by
  cases h with
  | silent => exact hrem
  | sent stream =>
    have hnoted := hrem.silent [.sent id stream frame] (by simp [Effect.records])
    rwa [List.append_assoc] at hnoted
  | dropped stream =>
    have hnoted := hrem.silent [.dropped id stream frame] (by simp [Effect.records])
    rw [List.append_assoc] at hnoted
    exact hnoted.congr rfl (SessionRegistry.markResyncRequired_continues id).nextSessionId_eq.ge
      hnoted.queued
  | hungUp session hget => exact Turn.hangUp_remembers session hrem

theorem Turn.sendSession_remembers (id : SessionId) (frame : ServerFrame)
    (hcoh : Coherent turn.actor) (hrem : Remembers maximum (base ++ turn.log) turn.actor) :
    Remembers maximum (base ++ (turn.sendSession id frame).log) (turn.sendSession id frame).actor := by
  have hspoken := turn.sendSession_spoken id frame
  generalize turn.sendSession id frame = turn' at hspoken ⊢
  cases hspoken with
  | unrecorded =>
    have hnoted := hrem.silent [.unrecorded id frame] (by simp [Effect.records])
    rw [List.append_assoc] at hnoted
    exact hnoted.congr rfl (SessionRegistry.markResyncRequired_continues id).nextSessionId_eq.ge
      hnoted.queued
  | unasked hunasked hunc => exact hunc.remembers hrem
  | @completed _ reliable hask hcmp hunc =>
    refine hunc.remembers ?_
    have hlogged : turn.actor.reliable.contains id = true := by
      cases hget : turn.actor.reliable.sessions.get? id with
      | none => simp [ReliableCommands.complete, hget] at hcmp
      | some sessionLog => simp [ReliableCommands.contains, Table.contains, hget]
    have hiss := hcoh.sessions.issued id ((hcoh.sessions.logged id).symm.trans hlogged)
    have hcompleted := hrem.complete hiss hask hcmp
    rwa [List.append_assoc] at hcompleted

theorem Aside.remembers (h : Aside turn turn') (hcoh : Coherent turn.actor)
    (hrem : Remembers maximum (base ++ turn.log) turn.actor) :
    Remembers maximum (base ++ turn'.log) turn'.actor := by
  cases h with
  | @noted effect hplain hsil hunrecorded =>
    have hnoted := hrem.silent [effect] (by simpa using hunrecorded)
    rwa [List.append_assoc] at hnoted
  | sent sessionId hhonest => exact Turn.sendSession_remembers sessionId _ hcoh hrem
  | replayed hrpl => exact (turn.sendSessionUncached_uncached _ _).remembers hrem
  | core hcore => exact hrem.congr rfl hcore.nextSessionId_eq.ge hrem.queued
  | @began id coreSessions hid hnext hctn =>
    -- A session id is new, so nothing was answered to it.
    have hanswers : answers id (base ++ turn.log) = [] := by
      refine List.filterMap_eq_nil_iff.mpr fun effect hmem => ?_
      cases effect with
      | recorded session frame =>
        have hne : session ≠ id := hid ▸ (hrem.asked session frame hmem).1.ne
        simp [Effect.answers, hne]
      | _ => rfl
    refine ⟨?_, fun other sessionLog hget => ?_, fun other frame hmem => ?_,
      fun other session hget => ?_⟩
    · change (turn.actor.reliable.attachSession id).maximumCompletedPerSession = maximum
      unfold ReliableCommands.attachSession
      split_ifs <;> exact hrem.maximum_eq
    · change (turn.actor.reliable.attachSession id).sessions.get? other = some sessionLog at hget
      unfold ReliableCommands.attachSession at hget
      split_ifs at hget with hatt
      · exact hrem.recalls other sessionLog hget
      · simp only [Table.get?_insert] at hget
        split_ifs at hget with hoth
        · cases hget
          change SessionLog.Recalls maximum (answers other (base ++ turn.log)) _
          rw [hoth, hanswers]
          exact .nil _ _
        · exact hrem.recalls other sessionLog hget
    · obtain ⟨hiss, hask⟩ := hrem.asked other frame hmem
      exact ⟨hiss.trans_le (hnext.symm ▸ Nat.le_succ _), hask⟩
    · change (turn.actor.sessions.insert _).get? other = some session at hget
      rw [Table.get?_insert] at hget
      split_ifs at hget
      · cases hget
        rfl
      · exact hrem.queued other session hget
  | attached hlive hfr =>
    obtain ⟨session, hget⟩ := hcoh.session_of_live hlive
    rw [Turn.attachStream_eq hget]
    refine hrem.congr rfl (SessionRegistry.refreshLease_continues _ _).nextSessionId_eq.ge
      fun other session' hoth => ?_
    rw [Table.get?_insert] at hoth
    split_ifs at hoth
    · cases hoth
      rfl
    · exact hrem.queued other session' hoth
  | streamClosed stream =>
    rcases turn.streamClosed_cases stream hcoh with heq | ⟨session, hget, -, heq⟩ <;> rw [heq]
    · exact hrem
    · exact Turn.hangUp_remembers session hrem
  | @observed session spaces hget =>
    refine hrem.congr rfl le_rfl fun other session' hoth => ?_
    change (turn.actor.sessions.insert _).get? other = some session' at hoth
    rw [Table.get?_insert] at hoth
    split_ifs at hoth
    · cases hoth
      exact hrem.queued _ session hget
    · exact hrem.queued other session' hoth
  | _ => exact hrem.congr rfl le_rfl hrem.queued

theorem Asides.remembers (h : Asides turn turn') (hcoh : Coherent turn.actor)
    (hrem : Remembers maximum (base ++ turn.log) turn.actor) :
    Remembers maximum (base ++ turn'.log) turn'.actor := by
  induction h with
  | refl => exact hrem
  | tail hasides hasd ih => exact hasd.remembers (Asides.coherent hasides hcoh) ih

theorem Remembers.noted {turn' : Turn} (h : Remembers maximum (base ++ turn.log) turn.actor)
    (hlogs : turn.Logs turn' fun effect => !effect.records)
    (hreliable : turn'.actor.reliable = turn.actor.reliable)
    (hcore : turn'.actor.coreSessions = turn.actor.coreSessions)
    (hsessions : turn'.actor.sessions = turn.actor.sessions) :
    Remembers maximum (base ++ turn'.log) turn'.actor := by
  obtain ⟨effects, hlog, hall⟩ := hlogs
  rw [hlog, ← List.append_assoc]
  refine (h.silent effects fun effect hmem => by simpa using hall effect hmem).congr hreliable
    (by rw [hcore]) ?_
  rw [hsessions]
  exact h.queued

theorem Act.remembers (h : Act licence turn turn') (hcoh : Coherent turn.actor)
    (hrem : Remembers maximum (base ++ turn.log) turn.actor) :
    Remembers maximum (base ++ turn'.log) turn'.actor := by
  cases h with
  | aside hasd => exact hasd.remembers hcoh hrem
  | @told effect hleads =>
    refine hrem.noted (.note rfl ?_) rfl rfl rfl
    cases effect <;> simp_all [Effect.leads, Effect.records]
  | materialized incarnationId hnew
  | closed hget hunw
  | respecified hget hhome => exact hrem.noted (.note rfl rfl) rfl rfl rfl
  | published key =>
    refine hrem.noted (turn.publish_logs key fun _ _ => rfl) (turn.publish_reliable key) ?_ ?_ <;>
    · unfold Turn.publish
      dsimp only
      split <;> rfl
  | @entered state participant credential hnone hid hlive hav hok happ hhome =>
    have hclm : turn.Logs (turn.note (.claimed participant.participantId))
        fun effect => !effect.records := .note rfl rfl
    exact hrem.noted (hclm.trans (.note rfl rfl)) rfl rfl rfl
  | @replaced middle state participant credential previous former hown hget hid hlive hav
      hok happ hhome htold =>
    have hclm : Remembers maximum (base ++ ((turn.setOwnership (turn.actor.ownership.put state)).note
        (.claimed participant.participantId)).log) _ := hrem.noted (.note rfl rfl) rfl rfl rfl
    exact (htold.remembers (hcoh.claim hown hlive) hclm).noted (.note rfl rfl) rfl rfl rfl
  | @left id state participant hown hget =>
    have hreleased : turn.Logs (turn.note (.released id)) fun effect => !effect.records :=
      .note rfl rfl
    refine hrem.noted (hreleased.trans (Turn.revoke_logs _ id fun _ => rfl)) ?_ ?_ ?_ <;>
    · rw [Turn.revoke_actor]
      rfl
  | _ => exact hrem.noted (.of_eq rfl) rfl rfl rfl

theorem Deeds.remembers (h : Deeds licence turn turn') (hcoh : Coherent turn.actor)
    (hrem : Remembers maximum (base ++ turn.log) turn.actor) :
    Remembers maximum (base ++ turn'.log) turn'.actor := by
  refine h.invariant (P := fun turn => Remembers maximum (base ++ turn.log) turn.actor) hcoh ?_ hrem
  intro turn turn' hdeed hcoh hrem
  cases hdeed with
  | act hact => exact hact.remembers hcoh hrem
  | @ended id hnth =>
    refine ⟨hrem.maximum_eq, fun other sessionLog hget => ?_, fun other frame hmem => ?_,
      fun other session hget => ?_⟩
    · change (turn.actor.reliable.sessions.erase id).get? other = some sessionLog at hget
      rw [Table.get?_erase] at hget
      split_ifs at hget
      exact hrem.recalls other sessionLog hget
    · refine ⟨?_, (hrem.asked other frame hmem).2⟩
      change other < (turn.actor.coreSessions.remove id).nextSessionId
      rw [SessionRegistry.nextSessionId_remove]
      exact (hrem.asked other frame hmem).1
    · change (turn.actor.sessions.erase id).get? other = some session at hget
      rw [Table.get?_erase] at hget
      split_ifs at hget
      exact hrem.queued other session hget

end Walk

/-- A turn that repeats a response: what it is put into is the current stream, and nothing that is
not about streams and resynchronisation changes. -/
structure Repeats (actor : ControllerActor) (id : SessionId) (stream : StreamId)
    (response : ServerFrame) (moment : Moment) (turn : Turn) : Prop where
  ownership : turn.actor.ownership = actor.ownership
  spacesState : turn.actor.spacesState = actor.spacesState
  host : turn.actor.host = actor.host
  sessions : ∀ other, (turn.actor.coreSessions.sessions.get? other).map
      (fun session => (session.desiredRevision, session.expiresAt)) =
    (actor.coreSessions.sessions.get? other).map
      (fun session => (session.desiredRevision, session.expiresAt))
  log : turn.log = match moment.fates 0 with
    | .accepted => [.sent id stream response]
    | .full => [.dropped id stream response]
    | .closed => []

theorem ControllerActor.turn_repeats {actor : ControllerActor} {maximum : Nat} {log : List Effect}
    {stream : StreamId} {payload : ClientPayload} {response : ServerFrame}
    (hcoh : Coherent actor) (hrem : Remembers maximum log actor) (moment : Moment)
    (hstream : actor.streams.find? stream = some id) (hask : requestId.isEmpty = false)
    (hpayload : ∀ command, payload ≠ .openSession command)
    (hrpl : actor.reliable.replay id requestId = some response) :
    Repeats actor id stream response moment
      (actor.turn ⟨moment, .frame stream ⟨requestId, some payload⟩⟩) := by
  obtain ⟨session, hget, hcur⟩ :=
    Option.bind_eq_some_iff.mp ((hcoh.sessions.streams stream id).mp hstream)
  have hque := (hrem.queued id session hget).trans hcur
  have hturn : actor.turn ⟨moment, .frame stream ⟨requestId, some payload⟩⟩ =
      (actor.opening ⟨moment, .frame stream ⟨requestId, some payload⟩⟩).sendSessionUncached id
        response := by
    change Turn.frame _ _ _ = _
    unfold Turn.frame
    cases payload with
    | openSession command => exact absurd rfl (hpayload command)
    | _ => simp [hask, hstream, hrpl, opening]
  rw [hturn]
  unfold Turn.sendSessionUncached
  simp only [opening, hget, hque]
  cases hfate : moment.fates 0 with
  | accepted => exact ⟨rfl, rfl, rfl, fun _ => rfl, by simp [Turn.note, hfate]⟩
  | full =>
    refine ⟨rfl, rfl, rfl, fun other => ?_, by simp [Turn.note, Turn.setCore, hfate]⟩
    exact SessionRegistry.markResyncRequired_lease id other
  | closed => exact ⟨rfl, rfl, rfl, fun _ => rfl, by simp [Turn.hangUp, hfate]⟩

theorem Remembers.spawn (config : ControllerConfig) (controlEpoch : Bytes) :
    Remembers config.queueCapacity [] (.spawn config controlEpoch) where
  maximum_eq := rfl
  recalls _ _ hget := by
    simp [ControllerActor.spawn, ReliableCommands.new] at hget
  asked _ _ hmem := by cases hmem
  queued _ _ hget := by simp [ControllerActor.spawn] at hget

theorem Chronicle.step_remembers {maximum : Nat} {chronicle chronicle' : Chronicle} {input : Input}
    (hcoh : Coherent chronicle.actor) (hrem : Remembers maximum chronicle.log chronicle.actor)
    (hfr : freshStream chronicle.actor input = true)
    (hstep : chronicle.step input = some chronicle') :
    Coherent chronicle'.actor ∧ Remembers maximum chronicle'.log chronicle'.actor := by
  have hdeeds : Deeds .any (chronicle.actor.opening input) (chronicle.actor.turn input) :=
    ControllerActor.turn_deeds hcoh hfr (.inl trivial) (fun _ _ _ => trivial) fun _ _ _ _ => trivial
  cases hstep
  refine ⟨hdeeds.coherent hcoh, hdeeds.remembers hcoh ?_⟩
  simpa [ControllerActor.opening] using hrem

/-- The ids of a session that were most recently answered afresh: each while no result of it was
retained. -/
def retained (maximum : Nat) (id : SessionId) (log : List Effect) : List Bytes :=
  latest maximum (afresh maximum ((answers id log).map Prod.fst))

/-- In every run a frame that repeats a request id most recently answered afresh changes nothing
and brings the last response recorded for it, and a session's log holds these ids and no others,
each once. -/
theorem answered_command_is_repeated (config : ControllerConfig) (controlEpoch : Bytes)
    {chronicle : Chronicle}
    (h : Reaches Chronicle.step (fun chronicle input => freshStream chronicle.actor input = true)
      (.start config controlEpoch) chronicle) (id : SessionId) :
    (∀ requestId ∈ retained config.queueCapacity id chronicle.log, ∀ stream payload moment,
      chronicle.actor.streams.find? stream = some id →
      (∀ command, payload ≠ .openSession command) →
      ∃ response, lastFor requestId (answers id chronicle.log) = some response ∧
        Repeats chronicle.actor id stream response moment
          (chronicle.actor.turn ⟨moment, .frame stream ⟨requestId, some payload⟩⟩)) ∧
    ∀ sessionLog, chronicle.actor.reliable.sessions.get? id = some sessionLog →
      sessionLog.order = retained config.queueCapacity id chronicle.log ∧
      sessionLog.order.length ≤ config.queueCapacity ∧ sessionLog.order.Nodup ∧
      ∀ requestId, sessionLog.completed.contains requestId = true ↔ requestId ∈ sessionLog.order := by
  obtain ⟨hcoh, hrem⟩ := Reaches.invariant
    (P := fun chronicle => Coherent chronicle.actor ∧
      Remembers config.queueCapacity chronicle.log chronicle.actor)
    ⟨.spawn config controlEpoch, .spawn config controlEpoch⟩
    (fun _ _ _ ⟨hcoh, hrem⟩ hfr hstep =>
      Chronicle.step_remembers hcoh hrem hfr hstep) h
  refine ⟨fun requestId hretained stream payload moment hstream hpayload => ?_,
    fun sessionLog hget => ?_⟩
  · have hlive := Turn.live_of_stream (chronicle.actor.opening ⟨moment, .expire⟩) id hcoh hstream
    obtain ⟨sessionLog, hget⟩ := Table.contains_iff.mp ((hcoh.sessions.logged id).trans hlive)
    have hrecalls := hrem.recalls id sessionLog hget
    have hmem : requestId ∈ sessionLog.order := hrecalls.order ▸ hretained
    obtain ⟨response, hresponse⟩ := hrecalls.answered hmem
    have hrpl : chronicle.actor.reliable.replay id requestId = some response := by
      simp [ReliableCommands.replay, hget, hrecalls.completed, hmem, hresponse]
    obtain ⟨frame, hrecorded, rfl⟩ :=
      recorded_of_mem_answers (mem_of_mem_afresh ((latest_sublist _ _).mem hretained))
    exact ⟨response, hresponse, ControllerActor.turn_repeats hcoh hrem moment hstream
      (hrem.asked id frame hrecorded).2 hpayload hrpl⟩
  · have hrecalls := hrem.recalls id sessionLog hget
    exact ⟨hrecalls.order, hrecalls.order ▸ length_latest_le _ _, hrecalls.nodup,
      hrecalls.contains_iff⟩

/-- A frame of the session of `joinedInputs`, whose token a draw gave. -/
def sampleFrame (requestId : Bytes) (payload : Bytes → ClientPayload) : Input :=
  ⟨calm 0 50, .frame 1 ⟨requestId, some (payload (sampleBytes 32 10))⟩⟩

def narrowConfig : ControllerConfig := { sampleConfig with queueCapacity := 2 }

def narrowInputs : List Input :=
  joinedInputs ++
    [sampleFrame [2] fun token => .replaceObservedSpaces token 1 ["lobby"],
      sampleFrame [3] fun token => .fetchSpace token "lobby"]

def reusedInputs : List Input :=
  narrowInputs ++ [sampleFrame [1] fun token => .fetchSpace token "lobby"]

def narrowChronicle (inputs : List Input) : Chronicle :=
  (runActions Chronicle.step (.start narrowConfig [0]) inputs).getD (.start narrowConfig [0])

theorem answered_command_is_repeated_narrow :
    retained 2 1 (narrowChronicle narrowInputs).log = [[2], [3]] ∧
    ∃ response, Repeats (narrowChronicle narrowInputs).actor 1 1 response (calm 0 50)
      ((narrowChronicle narrowInputs).actor.turn
        (sampleFrame [2] fun token => .replaceObservedSpaces token 1 ["lobby"])) := by
  have hreaches : Reaches Chronicle.step
      (fun chronicle input => freshStream chronicle.actor input = true) (.start narrowConfig [0])
      (narrowChronicle narrowInputs) :=
    reaches_getD (by decide +kernel)
  refine ⟨by decide +kernel, ?_⟩
  obtain ⟨response, -, hrepeats⟩ := (answered_command_is_repeated narrowConfig [0] hreaches 1).1 [2]
    (by decide +kernel) 1 (.replaceObservedSpaces (sampleBytes 32 10) 1 ["lobby"]) (calm 0 50)
    (by decide +kernel) (fun command => nofun)
  exact ⟨response, hrepeats⟩

/-- The id 2 is one of the two first answered last, and its command is executed again. -/
theorem first_answered_command_executed_again :
    Reaches Chronicle.step (fun chronicle input => freshStream chronicle.actor input = true)
      (.start narrowConfig [0]) (narrowChronicle reusedInputs) ∧
    latest 2 (((answers 1 (narrowChronicle reusedInputs).log).map Prod.fst).reverse.dedup.reverse) =
      [[2], [3]] ∧
    (narrowChronicle reusedInputs).actor.streams.find? 1 = some 1 ∧
    ((narrowChronicle reusedInputs).actor.coreSessions.sessions.get? 1).map
      Session.desiredRevision = some 1 ∧
    (((narrowChronicle reusedInputs).actor.turn
      (sampleFrame [2] fun token => .replaceObservedSpaces token 1 ["lobby"])).actor.coreSessions.sessions.get?
      1).map Session.desiredRevision = some 2 :=
  ⟨reaches_getD (by decide +kernel), by decide +kernel⟩

end MumbleRuntime.SpacesServer
