import MumbleRuntime.Homes

/-!
# Departed connections

A shard reports that a connection left it, and the actor unbinds the connection if
the participant's spec names that shard's Space. Nothing but a route binds a
connection, so one that was unbound stays so, and no render shows it again. A
report from a Space the participant no longer wants to be in unbinds nothing.
-/

namespace MumbleRuntime.SpacesServer

open Library Controller Spaces ControllerActor Bindings Turn

structure Attended where
  actor : ControllerActor
  departed : List ConnectionId

def ActorCommand.departure : ActorCommand → Option ConnectionId
  | .spaceEvent ⟨_, ⟨connection, .disconnected⟩⟩ => some connection
  | _ => none

def Attended.step (attended : Attended) (input : Input) : Option Attended :=
  some ⟨(attended.actor.turn input).actor, input.command.departure.toList ++ attended.departed⟩

def Attended.routesLive (attended : Attended) (input : Input) : Bool :=
  match input.command with
  | .route connection _ => !attended.departed.contains connection
  | _ => true

def ControllerActor.departsHome (actor : ControllerActor) (input : Input) : Bool :=
  match input.command with
  | .spaceEvent ⟨key, ⟨connection, .disconnected⟩⟩ =>
    (actor.host.bindings.participant connection).all fun id =>
      (actor.spacesState.participant id).all fun participant => participant.space = key
  | _ => true

def Unbound (connection : ConnectionId) (bindings : Bindings) : Prop :=
  ∀ id, bindings.connection id ≠ some connection

def Effect.shows (connection : ConnectionId) : Effect → Bool
  | .published _ state => state.participants.any fun participant =>
      participant.connection = some connection
  | _ => false

variable {licence : Licence} {turn turn' : Turn}

section

variable {connection : ConnectionId}

theorem Unbound.participant_eq_none {bindings : Bindings} (h : Unbound connection bindings)
    (hcons : bindings.Consistent) :
    bindings.participant connection = none := by
  rw [Option.eq_none_iff_forall_ne_some]
  intro id hid
  exact h id ((hcons.connections connection id).mp hid)

theorem Act.unbound
    (hseats : ∀ other, licence.seats other → other ≠ connection) (h : Act licence turn turn')
    (hcoh : Coherent turn.actor) (hunb : Unbound connection turn.actor.host.bindings) :
    Unbound connection turn'.actor.host.bindings := by
  cases h with
  | aside hasd =>
    rw [(hasd.same hcoh).host]
    exact hunb
  | published key =>
    have hhost : (turn.publish key).actor.host = turn.actor.host := by
      unfold publish
      dsimp only
      split <;> rfl
    rw [hhost]
    exact hunb
  | entered state participant credential hnone hid hlive hav hok happ hhome =>
    intro id
    exact (connection_register hok id).trans_ne (hunb id)
  | replaced state participant credential hown hget hentity hlive hav hok happ hhome htold =>
    have hhost := (htold.same (hcoh.claim hown hlive)).host
    intro id
    refine (connection_register (hhost.symm ▸ hok) id).trans_ne ?_
    rw [hhost]
    exact hunb id
  | left hown hget =>
    rw [revoke_actor]
    intro id
    refine (connection_remove id).trans_ne ?_
    split_ifs
    · simp
    · exact hunb id
  | seated hseated hattach =>
    intro id
    refine ((attach_attached hattach).connection_eq id).trans_ne ?_
    split_ifs
    · simpa using hseats _ hseated
    · exact hunb id
  | disconnected other =>
    intro id
    refine (hcoh.entities.consistent.connection_disconnect id).trans_ne ?_
    split_ifs
    · simp
    · exact hunb id
  | _ => exact hunb

theorem renderParticipants_unbound {actor : ControllerActor}
    (hunb : Unbound connection actor.host.bindings) (key : String) :
    ((actor.renderParticipants key).any fun participant =>
      participant.connection = some connection) = false := by
  rw [List.any_eq_false]
  intro participant hmem
  obtain ⟨state, -, hrender⟩ := List.mem_filterMap.mp hmem
  obtain ⟨ownership, -, rfl⟩ := Option.map_eq_some_iff.mp hrender
  simpa using hunb state.participantId

theorem Act.shows_none (h : Act licence turn turn')
    (hcoh : Coherent turn.actor) (hunb : Unbound connection turn.actor.host.bindings) :
    turn.Logs turn' fun effect => !effect.shows connection := by
  refine h.logs_of hcoh (fun effect hqt => ?_) fun key => ?_
  · cases effect <;> simp_all [Effect.quiet, Effect.shows]
  · unfold publish
    dsimp only
    split
    · exact .of_eq rfl
    · refine .note rfl ?_
      rw [Bool.not_eq_true', Effect.shows]
      exact renderParticipants_unbound hunb key

theorem Deeds.unbound
    (hseats : ∀ other, licence.seats other → other ≠ connection) (h : Deeds licence turn turn')
    (hcoh : Coherent turn.actor) (hunb : Unbound connection turn.actor.host.bindings) :
    Unbound connection turn'.actor.host.bindings ∧
      turn.Logs turn' fun effect => !effect.shows connection := by
  refine h.invariant (P := fun turn' => Unbound connection turn'.actor.host.bindings ∧
    turn.Logs turn' fun effect => !effect.shows connection) hcoh ?_ ⟨hunb, .of_eq rfl⟩
  intro turn turn' hdeed hcoh ⟨hunb, hlogs⟩
  cases hdeed with
  | act hact =>
    exact ⟨hact.unbound hseats hcoh hunb, hlogs.trans (hact.shows_none hcoh hunb)⟩
  | ended hnth => exact ⟨hunb, hlogs.trans (.of_eq rfl)⟩

theorem Turn.spaceEvent_unbound {turn : Turn} {key : String} (hcoh : Coherent turn.actor)
    (hhome : ∀ id participant, turn.actor.host.bindings.participant connection = some id →
      turn.actor.spacesState.participant id = some participant → participant.space = key) :
    Unbound connection (turn.spaceEvent key ⟨connection, .disconnected⟩).actor.host.bindings := by
  unfold spaceEvent SpacesState.applyParticipantEvent
  cases hbd : turn.actor.host.bindings.participant connection with
  | none =>
    intro id hid
    have hfnd := (hcoh.entities.consistent.connections connection id).mpr hid
    simp only [hbd] at hfnd
    cases hfnd
  | some id =>
    have hconn := (hcoh.entities.consistent.connections connection id).mp hbd
    have hheld : turn.actor.host.bindings.contains id = true := by
      obtain ⟨binding, hget, -⟩ := Option.bind_eq_some_iff.mp hconn
      exact Table.contains_iff.mpr ⟨binding, hget⟩
    rw [hcoh.entities.bound] at hheld
    obtain ⟨participant, hpart⟩ := SpacesState.containsParticipant_iff.mp hheld
    have hsp := hhome id participant hbd hpart
    simp only [hpart, hsp, ne_eq, not_true_eq_false, if_false, if_true]
    have hdisconnected : Unbound connection (turn.actor.host.bindings.disconnect connection) := by
      intro other
      rw [hcoh.entities.consistent.connection_disconnect]
      split_ifs with hoth
      · simp
      · exact hoth
    have hacts : Acts ⟨True, fun _ => False, True⟩
        (turn.setBindings (turn.actor.host.bindings.disconnect connection))
        (((turn.setBindings (turn.actor.host.bindings.disconnect connection)).refreshSpace
          key).sendStatus id) :=
      (refreshSpace_acts _ _).append (sendStatus_acts _ _)
    have hact : Act .any turn
        (turn.setBindings (turn.actor.host.bindings.disconnect connection)) := .disconnected _ _
    exact ((Deeds.of_acts hacts).unbound (fun _ (hnever : False) => hnever.elim)
      (hact.coherent hcoh) hdisconnected).1

end

namespace Attended

variable {attended : Attended} {input : Input} {connection : ConnectionId}

theorem turn_unbound (hcoh : Coherent attended.actor)
    (hfr : freshStream attended.actor input = true) (hlive : attended.routesLive input = true)
    (hdeparted : connection ∈ attended.departed)
    (hunb : Unbound connection attended.actor.host.bindings) :
    Unbound connection (attended.actor.turn input).actor.host.bindings ∧
      ∀ effect ∈ (attended.actor.turn input).log, effect.shows connection = false := by
  have hdeeds : Deeds ⟨True, fun other => other ≠ connection, True⟩ (attended.actor.opening input)
      (attended.actor.turn input) := by
    refine turn_deeds hcoh hfr (.inl trivial) ?_ fun _ _ _ _ => trivial
    rintro other credential hrte rfl
    simp [routesLive, hrte, hdeparted] at hlive
  obtain ⟨hunb', effects, hlog, hall⟩ := hdeeds.unbound (fun _ h => h) hcoh hunb
  refine ⟨hunb', fun effect heffect => ?_⟩
  rw [hlog] at heffect
  simpa using hall effect (by simpa [opening] using heffect)

theorem departure_unbound (hcoh : Coherent attended.actor)
    (hhome : attended.actor.departsHome input = true)
    (hdeparture : input.command.departure = some connection) :
    Unbound connection (attended.actor.turn input).actor.host.bindings := by
  obtain ⟨moment, command⟩ := input
  cases command with
  | spaceEvent report =>
    obtain ⟨key, other, kind⟩ := report
    cases kind with
    | disconnected =>
      cases hdeparture
      refine spaceEvent_unbound hcoh fun id participant hbd hget => ?_
      simpa [departsHome, hbd, hget] using hhome
    | connected => cases hdeparture
    | selfState selfMute selfDeaf => cases hdeparture
  | _ => cases hdeparture

def Sound (attended : Attended) : Prop :=
  Coherent attended.actor ∧
    ∀ connection ∈ attended.departed, Unbound connection attended.actor.host.bindings

theorem Sound.step {attended' : Attended} (h : attended.Sound)
    (hfr : freshStream attended.actor input = true) (hlive : attended.routesLive input = true)
    (hhome : attended.actor.departsHome input = true)
    (hstep : attended.step input = some attended') : attended'.Sound := by
  obtain ⟨hcoh, hunb⟩ := h
  cases hstep
  refine ⟨step_coherent hcoh hfr rfl, fun connection hmem => ?_⟩
  rcases List.mem_append.mp hmem with hnew | hold
  · exact departure_unbound hcoh hhome (Option.mem_toList.mp hnew)
  · exact (turn_unbound hcoh hfr hlive hold (hunb connection hold)).1

end Attended

/-- While departures are processed with the participant's spec still naming the Space they are
reported from, a departed connection is bound to nobody and no later render shows it. -/
theorem departed_never_bound (config : ControllerConfig) (controlEpoch : Bytes)
    {attended : Attended}
    (h : Reaches Attended.step (fun attended input => freshStream attended.actor input = true ∧
      attended.routesLive input = true ∧ attended.actor.departsHome input = true)
      ⟨.spawn config controlEpoch, []⟩ attended) :
    ∀ connection ∈ attended.departed,
      attended.actor.host.bindings.participant connection = none ∧
      (∀ id, attended.actor.host.bindings.connection id ≠ some connection) ∧
      ∀ input, freshStream attended.actor input = true → attended.routesLive input = true →
        ∀ effect ∈ (attended.actor.turn input).log, effect.shows connection = false := by
  have hsnd := Reaches.invariant (P := Attended.Sound)
    ⟨.spawn config controlEpoch, by simp⟩
    (fun attended input attended' hsnd ⟨hfr, hlive, hhome⟩ hstep =>
      hsnd.step hfr hlive hhome hstep) h
  intro connection hdeparted
  have hunb := hsnd.2 connection hdeparted
  refine ⟨hunb.participant_eq_none hsnd.1.entities.consistent, hunb, ?_⟩
  intro input hfr hlive
  exact (Attended.turn_unbound hsnd.1 hfr hlive hdeparted hunb).2

def routedInputs : List Input :=
  joinedInputs ++
    [⟨calm 0 20, .route 5 (some (String.ofList (urlSafe (sampleBytes 32 14))))⟩]

def departedInput (spaceKey : String) : Input :=
  ⟨calm 0 40, .spaceEvent ⟨spaceKey, ⟨5, .disconnected⟩⟩⟩

def departedAttended (inputs : List Input) : Attended :=
  (runActions Attended.step ⟨.spawn sampleConfig [0], []⟩ inputs).getD
    ⟨.spawn sampleConfig [0], []⟩

theorem departed_never_bound_left :
    5 ∈ (departedAttended (routedInputs ++ [departedInput "lobby"])).departed ∧
    (departedAttended (routedInputs ++ [departedInput "lobby"])).actor.host.bindings.participant 5 =
      none := by
  have hdeparted : 5 ∈ (departedAttended (routedInputs ++ [departedInput "lobby"])).departed := by
    decide +kernel
  exact ⟨hdeparted, (departed_never_bound sampleConfig [0]
    (reaches_getD (by decide +kernel)) 5 hdeparted).1⟩

/-- The connection leaves the lobby after its participant was sent to the arena. -/
def strayedInputs : List Input :=
  routedInputs ++
    [⟨calm 0 30, .frame 1 ⟨[3], some (.setParticipantSpec (sampleBytes 32 10) "ada"
      (sampleBytes 32 13) 2 (some (sampleSpec "arena")))⟩⟩, departedInput "lobby"]

theorem strayed_connection_stays_bound :
    Reaches Attended.step (fun attended input => freshStream attended.actor input = true ∧
      attended.routesLive input = true) ⟨.spawn sampleConfig [0], []⟩
      (departedAttended strayedInputs) ∧
    5 ∈ (departedAttended strayedInputs).departed ∧
    (departedAttended strayedInputs).actor.host.bindings.participant 5 = some "ada" ∧
    (departedAttended strayedInputs).actor.host.bindings.connection "ada" = some 5 :=
  ⟨reaches_getD (by decide +kernel), by decide +kernel⟩

end MumbleRuntime.SpacesServer
