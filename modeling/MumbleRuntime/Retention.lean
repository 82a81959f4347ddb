import MumbleRuntime.Placement

/-!
# What stands for a connection is lost in three ways only

The shard it stands at stops, its task's last `Detach` is taken, or the migration
that carries it gives up and closes the peer.
-/

namespace MumbleRuntime

open Library Table

namespace Gateway

theorem residence_handOver {gateway : Gateway} (hl : gateway.Lodged) (hp : gateway.Placed)
    {actor : Actor} {rest : List Command} {other : ConnectionId} {task : TaskId}
    (hact : gateway.actors.get? actor.id = some actor)
    (hbox : actor.mailbox = .detach other (some task) :: rest)
    (hhd : actor.holds other = true) (connection : ConnectionId) :
    (gateway.handOver { actor with mailbox := rest } other task).residence connection =
      gateway.residence connection := by
  have hone : 0 < actor.handovers task :=
    List.countP_pos_iff.mpr ⟨_, hbox ▸ List.mem_cons_self, by simp [Command.answers]⟩
  have hsum := le_sum_of_get? hact (Actor.handovers task)
  have hawaits : gateway.awaits task = true := by
    by_contra hfalse
    have hzero := hp.handovers_eq_zero (Bool.eq_false_of_not_eq_true hfalse)
    rw [handovers] at hzero
    omega
  unfold awaits at hawaits
  split at hawaits
  · rename_i migration hmig
    obtain rfl := key_of_get? hmig
    exact residence_handOver_of_awaiting hact hbox hhd hmig
      (of_decide_eq_true hawaits) hl.asked connection
  · cases hawaits

inductive Loses (gateway : Gateway) (connection : ConnectionId) : Action → Prop
  | stop {shard : ShardId} {actor : Actor} (hlisted : gateway.listed.contains shard = false)
      (hactor : gateway.actors.get? shard = some actor) (hweight : 0 < actor.weight connection) :
      Loses gateway connection (.stop shard)
  | left {shard : ShardId} {peer : Peer} (hpeer : gateway.peers.get? connection = some peer)
      (hended : peer.serve = .ended) : Loses gateway connection (.deliver shard)
  | closed {migration : Migration} {act : MigrateAction}
      (hmigration : gateway.migrations.get? migration.id = some migration)
      (hconnection : migration.connection = connection)
      (hprogress : Progress gateway migration act .closed) :
      Loses gateway connection (.migrate migration.id act)

theorem Taken.residence_ge {gateway gateway' : Gateway} {action : Action}
    (h : Taken gateway action gateway') (hl : gateway.Lodged) (hp : gateway.Placed)
    (connection : ConnectionId) :
    gateway.residence connection ≤ gateway'.residence connection ∨
      Loses gateway connection action := by
  by_cases hqt : action.quiet = true
  · exact .inl (h.residence_quiet hl.numbered hqt connection).ge
  cases h with
  | @sendAttach peer actor hpeer hsrv hact =>
    left
    rw [residence_post (gateway.setPeer { peer with serve := .waiting }) hact, residence_setPeer]
    exact Nat.le_add_right _ _
  | @stop shard hlst =>
    cases hact : gateway.actors.get? shard with
    | none =>
      left
      simp only [residence, erase_of_get?_none hact, le_refl]
    | some actor =>
      rcases Nat.eq_zero_or_pos (actor.weight connection) with hzero | hpos
      · have hsum := sum_of_get? hact (Actor.weight connection)
        left
        simp only [residence]
        omega
      · exact .inr (.stop hlst hact hpos)
  | @attached actor other ready rest hact hbox =>
    have hset := gateway.residence_setActor
      { actor with mailbox := rest, connections := actor.connections.set other ready } hact
      connection
    have hone := hl.residence_le_one connection
    have hle := le_sum_of_get? hact (Actor.weight connection)
    have hwt := (Actor.weight_attached hbox connection).2 (by
      simp only [residence] at hone
      omega)
    left
    omega
  | @detached actor other rest hact hbox =>
    by_cases hconn : connection = other
    · subst hconn
      obtain ⟨peer, hpeer, hended⟩ := hp.left _ _ _ hact (hbox ▸ List.mem_cons_self)
      exact .inr (.left hpeer hended)
    · have hset := gateway.residence_setActor
        { actor with mailbox := rest, connections := actor.connections.erase other } hact
        connection
      have hwt := Actor.weight_detached hbox connection
      simp only [hconn, decide_false, Bool.false_and, Bool.toNat_false] at hwt
      left
      omega
  | handedOver hact hbox hhd hres =>
    rw [hres]
    exact .inl (residence_handOver hl hp hact hbox hhd connection).ge
  | @notHeld actor other task rest hact hbox =>
    have hset := gateway.residence_setActor { actor with mailbox := rest } hact connection
    have hwt := Actor.weight_skipped hbox connection
    left
    omega
  | @next migration act stage hmig hprog =>
    have hset := gateway.residence_setMigration { migration with stage } hmig connection
    have hzero : migration.weight connection = 0 := by
      cases hprog <;> simp_all [Migration.weight, Migrate.carries]
    left
    omega
  | @finished migration act hmig hprog =>
    have hend := gateway.residence_endMigration hmig connection
    have hzero : migration.weight connection = 0 := by
      cases hprog <;> simp_all [Migration.weight, Migrate.carries]
    left
    omega
  | @closed migration act peer hmig hprog =>
    by_cases hconn : migration.connection = connection
    · exact .inr (.closed hmig hconn hprog)
    · have hend := residence_endMigration (gateway.setPeer peer.close) hmig connection
      have hzero : migration.weight connection = 0 := by simp [Migration.weight, hconn]
      rw [residence_setPeer] at hend
      left
      omega
  | _ => exact absurd rfl hqt

def SettledFor (gateway : Gateway) (connection : ConnectionId) : Prop :=
  (∀ actor ∈ gateway.actors.rows, ∀ command ∈ actor.mailbox, command.connection ≠ connection) ∧
  ∀ migration ∈ gateway.migrations.rows, migration.connection ≠ connection

instance (gateway : Gateway) (connection : ConnectionId) :
    Decidable (gateway.SettledFor connection) :=
  inferInstanceAs (Decidable (_ ∧ _))

theorem SettledFor.held {gateway : Gateway} {connection : ConnectionId}
    (h : gateway.SettledFor connection) (hpos : 0 < gateway.residence connection) :
    ∃ shard actor, gateway.actors.get? shard = some actor ∧ actor.holds connection = true := by
  have hmigrations : gateway.migrations.sum (Migration.weight connection) = 0 := by
    by_contra hne
    obtain ⟨migration, hmig, hwt⟩ := exists_of_sum_pos (Nat.pos_of_ne_zero hne)
    have hoth := h.2 _ (mem_of_get? hmig)
    simp [Migration.weight, hoth] at hwt
  rw [residence, hmigrations, Nat.add_zero] at hpos
  obtain ⟨actor, hact, hwt⟩ := exists_of_sum_pos hpos
  have hmail : actor.mailbox.countP (Command.isAttach connection) = 0 := by
    refine List.countP_eq_zero.mpr fun command hmem => ?_
    have hoth := h.1 _ (mem_of_get? hact) command hmem
    cases command <;> simp_all [Command.isAttach, Command.connection]
  refine ⟨actor.id, actor, hact, ?_⟩
  by_contra hhd
  rw [Actor.weight, hmail, Bool.eq_false_of_not_eq_true hhd] at hwt
  simp at hwt

end Gateway

end MumbleRuntime
