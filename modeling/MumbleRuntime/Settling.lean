import MumbleRuntime.Placement

/-!
# What a mailbox comes to

Commands are taken in order, so a shard's mailbox already says which connections
it will hold once it is empty. Taking a command does not change that; posting one
changes it for the connection the command is about.
-/

namespace MumbleRuntime

open Library

variable {other : ConnectionId}

namespace Gateway

def Command.settle (connection : ConnectionId) (held : Bool) : Command → Bool
  | .attach other _ => decide (connection = other) || held
  | .detach other _ => decide (connection ≠ other) && held

def Actor.settles (actor : Actor) (connection : ConnectionId) : Bool :=
  actor.mailbox.foldl (Command.settle connection) (actor.holds connection)

namespace Actor

variable {actor : Actor} {rest : List Command} {connection : ConnectionId}

theorem settles_nil
    (h : actor.mailbox = []) : actor.settles connection = actor.holds connection := by
  simp [settles, h]

theorem settles_post (actor : Actor) (command : Command) (connection : ConnectionId) :
    ({ actor with mailbox := actor.mailbox ++ [command] } : Actor).settles connection =
      command.settle connection (actor.settles connection) := by
  simp only [settles, List.foldl_append, List.foldl_cons, List.foldl_nil]
  rfl

theorem settles_taken {command : Command} {connections : OrderedMap ConnectionId Bool}
    (hbox : actor.mailbox = command :: rest)
    (hhd : ({ actor with mailbox := rest, connections } : Actor).holds connection =
      command.settle connection (actor.holds connection)) :
    ({ actor with mailbox := rest, connections } : Actor).settles connection =
      actor.settles connection := by
  simp only [settles, hbox, List.foldl_cons, hhd]

theorem settles_attached {ready : Bool}
    (hbox : actor.mailbox = .attach other ready :: rest) (connection : ConnectionId) :
    ({ actor with mailbox := rest, connections := actor.connections.set other ready } :
      Actor).settles connection = actor.settles connection :=
  settles_taken hbox (actor.holds_set rest other ready connection)

theorem settles_detached {handover : Option TaskId}
    (hbox : actor.mailbox = .detach other handover :: rest) (connection : ConnectionId) :
    ({ actor with mailbox := rest, connections := actor.connections.erase other } :
      Actor).settles connection = actor.settles connection :=
  settles_taken hbox (actor.holds_erase rest other connection)

theorem settles_skipped {handover : Option TaskId}
    (hbox : actor.mailbox = .detach other handover :: rest)
    (hhd : actor.holds other = false) (connection : ConnectionId) :
    ({ actor with mailbox := rest } : Actor).settles connection = actor.settles connection := by
  refine settles_taken hbox ?_
  by_cases hconn : connection = other
  · subst hconn
    simpa [Command.settle, holds] using hhd
  · simp [Command.settle, hconn, holds]

theorem settles_published
    (h : actor.connections.find? other = some true) (connection : ConnectionId) :
    ({ actor with connections := actor.connections.set other false } : Actor).settles connection =
      actor.settles connection := by
  have hhd := actor.holds_set actor.mailbox other false connection
  simp only [settles, hhd]
  by_cases hconn : connection = other
  · subst hconn
    rw [holds_of_find? h, Bool.or_true]
  · simp [hconn]

theorem foldl_settle_eq_true {commands : List Command} {held : Bool}
    (h : commands.foldl (Command.settle connection) held = true) :
    held = true ∨ 0 < commands.countP (Command.isAttach connection) := by
  induction commands generalizing held with
  | nil => exact .inl h
  | cons command rest ih =>
    rw [List.countP_cons]
    rcases ih h with hheld | hrest
    · cases command with
      | attach other ready =>
        by_cases hconn : connection = other
        · exact .inr (by simp [Command.isAttach, hconn])
        · exact .inl (by simpa [Command.settle, hconn] using hheld)
      | detach other handover =>
        simp only [Command.settle, Bool.and_eq_true] at hheld
        exact .inl hheld.2
    · exact .inr (Nat.lt_add_right _ hrest)

theorem weight_pos_of_holds (h : actor.holds connection = true) : 0 < actor.weight connection := by
  simp only [weight, h, Bool.toNat_true]
  omega

theorem weight_pos_of_settles (h : actor.settles connection = true) :
    0 < actor.weight connection := by
  rcases foldl_settle_eq_true h with hhd | hattach
  · exact weight_pos_of_holds hhd
  · exact Nat.lt_add_left _ hattach

end Actor

theorem ActorFate.settles {gateway : Gateway} {actor actor' : Actor} {action : Action}
    (h : ActorFate gateway actor action actor') {connection : ConnectionId}
    (hset : actor'.settles connection = true) :
    actor.settles connection = true ∨
    (action = .sendAttach connection ∧ ∃ peer, gateway.peers.get? connection = some peer ∧
      peer.serve = .pointed actor.id) ∨
    (∃ migration, action = .sendHeld migration.id ∧
      gateway.migrations.get? migration.id = some migration ∧
      migration.connection = connection ∧ migration.stage = .pointed ∧
      migration.destination = actor.id) := by
  cases h with
  | rest => exact .inl hset
  | @attachSent peer hpeer hsrv =>
    rw [Actor.settles_post] at hset
    by_cases hconn : connection = peer.id
    · subst hconn
      exact .inr (.inl ⟨rfl, peer, hpeer, hsrv⟩)
    · exact .inl (by simpa [Command.settle, hconn] using hset)
  | detachSent
  | handoverSent =>
    rw [Actor.settles_post] at hset
    simp only [Command.settle, Bool.and_eq_true] at hset
    exact .inl hset.2
  | @heldSent migration hmig hstg hdest =>
    rw [Actor.settles_post] at hset
    by_cases hconn : connection = migration.connection
    · exact .inr (.inr ⟨migration, rfl, hmig, hconn.symm, hstg, hdest⟩)
    · exact .inl (by simpa [Command.settle, hconn] using hset)
  | attached hbox => exact .inl (by rwa [Actor.settles_attached hbox] at hset)
  | detached hbox => exact .inl (by rwa [Actor.settles_detached hbox] at hset)
  | notHeld hbox hhd =>
    exact .inl (by rwa [Actor.settles_skipped hbox hhd] at hset)
  | published hpeer hrdy => exact .inl (by rwa [Actor.settles_published hrdy] at hset)

end Gateway

end MumbleRuntime
