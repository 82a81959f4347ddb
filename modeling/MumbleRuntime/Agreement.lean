import MumbleRuntime.Retention
import MumbleRuntime.Settling

/-!
# Placement agreement at rest

When nothing is under way, the shards and the peers agree: a shard holds exactly
the connections that are served and point at it. Runs break this where a
migration attaches a connection that its task has already given up elsewhere,
where the last `Detach` of a task is refused, and where a shard is looked up
after its destruction has passed the connection over.
-/

namespace MumbleRuntime

open Library Table OrderedSet Gateway Serve Actor

variable {connection : ConnectionId}

variable {peer : Peer}

namespace Gateway

def Serve.isDead : Serve → Bool
  | .failed | .removed | .leaving _ | .detaching _ | .ended => true
  | _ => false

def Serve.admits (shard : ShardId) : Serve → Bool
  | .ended => false
  | .leaving target | .detaching target => target = shard
  | _ => true

def Peer.doomed (peer : Peer) : Bool := peer.mustClose || peer.serve.isDead

def Migrate.isBound : Migrate → Bool
  | .looked .. | .awaiting | .handed | .pointed => true
  | _ => false

def Serve.isBound : Serve → Bool
  | .found _ | .pointed _ => true
  | _ => false

def doomed (gateway : Gateway) (connection : ConnectionId) : Bool :=
  match gateway.peers.get? connection with
  | some peer => peer.doomed
  | none => true

/-- The destruction of a shard under way will not look at a connection any more. -/
def passedOver (gateway : Gateway) (shard : ShardId) (connection : ConnectionId) : Bool :=
  match gateway.destroying with
  | some (target, pending) => target = shard && !pending.contains connection
  | none => false

def boundFor (gateway : Gateway) (shard : ShardId) (connection : ConnectionId) : Bool :=
  gateway.migrations.rows.any fun migration =>
    migration.connection = connection && migration.destination = shard && migration.stage.isBound

def orderly (gateway : Gateway) : Action → Bool
  | .sendHeld task =>
    match gateway.migrations.get? task with
    | some migration =>
      match gateway.peers.get? migration.connection with
      | some peer => peer.serve.admits migration.destination
      | none => true
    | none => true
  | .serve connection .refuseDetach =>
    match gateway.peers.get? connection with
    | some peer =>
      gateway.actors.rows.all fun actor =>
        !(decide (peer.serve = .detaching actor.id) && gateway.listed.contains actor.id &&
          actor.settles connection)
    | none => true
  | .serve connection .lookup =>
    match gateway.peers.get? connection with
    | some peer =>
      match peer.serve with
      | .inserted shard => peer.mustClose || !gateway.passedOver shard connection
      | _ => true
    | none => true
  | .migrate task .look =>
    match gateway.migrations.get? task with
    | some migration =>
      gateway.doomed migration.connection ||
        !gateway.passedOver migration.destination migration.connection
    | none => true
  | .check =>
    match gateway.destroying with
    | some (shard, connection :: _) =>
      match gateway.peers.get? connection with
      | some peer => peer.shard = shard || peer.doomed || !gateway.boundFor shard connection
      | none => true
    | _ => true
  | _ => true

structure Quiescent (gateway : Gateway) : Prop where
  mailbox : gateway.mailbox = []
  actors : ∀ actor ∈ gateway.actors.rows, actor.mailbox = []
  migrations : gateway.migrations.rows = []
  peers : ∀ peer ∈ gateway.peers.rows,
    peer.serve = .ended ∨ peer.serve = .serving ∧ peer.mustClose = false

instance (gateway : Gateway) : Decidable gateway.Quiescent :=
  decidable_of_iff (gateway.mailbox = [] ∧ (∀ actor ∈ gateway.actors.rows, actor.mailbox = []) ∧
    gateway.migrations.rows = [] ∧ ∀ peer ∈ gateway.peers.rows,
      peer.serve = .ended ∨ peer.serve = .serving ∧ peer.mustClose = false)
    ⟨fun ⟨hmailbox, hactors, hmigrations, hpeers⟩ => ⟨hmailbox, hactors, hmigrations, hpeers⟩,
      fun h => ⟨h.mailbox, h.actors, h.migrations, h.peers⟩⟩

theorem Quiescent.settledFor {gateway : Gateway} (h : gateway.Quiescent)
    (connection : ConnectionId) : gateway.SettledFor connection := by
  refine ⟨fun actor hact command hmem => ?_, fun migration hmem => ?_⟩
  · rw [h.actors actor hact] at hmem
    cases hmem
  · rw [h.migrations] at hmem
    cases hmem

inductive Bound (gateway : Gateway) (shard : ShardId) (connection : ConnectionId) : Prop
  | stands {actor : Actor} (hactor : gateway.actors.get? shard = some actor)
      (hweight : 0 < actor.weight connection)
  | moves {task : TaskId} {migration : Migration}
      (hmigration : gateway.migrations.get? task = some migration)
      (hconnection : migration.connection = connection)
      (hdestination : migration.destination = shard) (hstage : migration.stage.isBound = true)
  | shakes {peer : Peer} (hpeer : gateway.peers.get? connection = some peer)
      (hserve : peer.serve.isBound = true) (htarget : peer.serve.target = some shard)

def Condemned (gateway : Gateway) (shard : ShardId) (connection : ConnectionId) : Prop :=
  gateway.listed.contains shard = false ∨ gateway.passedOver shard connection = true

structure Agreed (gateway : Gateway) : Prop where
  admitted : ∀ connection peer shard actor, gateway.peers.get? connection = some peer →
    gateway.listed.contains shard = true → gateway.actors.get? shard = some actor →
    actor.settles connection = true → peer.serve.admits shard = true
  lodges : ∀ connection peer, gateway.peers.get? connection = some peer →
    peer.serve = .waiting ∨ peer.serve = .serving → peer.mustClose = false →
    0 < gateway.residence connection
  bound : ∀ connection peer shard, gateway.peers.get? connection = some peer →
    gateway.Bound shard connection → gateway.Condemned shard connection → peer.doomed = true

section Steps

variable {gateway gateway' : Gateway} {action : Action}

variable {peer' : Peer}

theorem PeerFate.doomed (h : PeerFate gateway peer action peer')
    (hdoomed : peer.doomed = true) : peer'.doomed = true := by
  simp only [Peer.doomed, Bool.or_eq_true] at hdoomed ⊢
  cases h with
  | serve hadv =>
    cases hadv with
    | hangUp => exact .inr rfl
    | _ => simp_all [isDead]
  | sendAttach hsrv => simpa [hsrv, isDead] using hdoomed
  | sendDetach => exact .inr rfl
  | destroyed => exact .inl rfl
  | fatal => exact .inl rfl
  | closed => exact .inl rfl
  | _ => exact hdoomed

variable {shard : ShardId}

theorem Bound.not_new
    (h : gateway.Bound shard connection) (hl : gateway.Lodged) (hp : gateway.Placed)
    (hpeer : gateway.peers.get? connection = some peer) : peer.serve.isNew = false := by
  cases h with
  | stands hact hwt =>
    by_contra hnew
    have hearly : peer.serve.isEarly = true := by
      cases hsrv : peer.serve <;> simp_all [isNew, isEarly]
    have hzero : weight connection _ = 0 :=
      hl.weight_early (by simpa [hpeer] using hearly) hact
    omega
  | moves hmig hconn hdest hstg =>
    obtain ⟨other, hoth, hnew⟩ := hp.known _ _ hmig (by
      intro hspawned
      rw [hspawned] at hstg
      cases hstg)
    rw [hconn, hpeer] at hoth
    cases hoth
    exact hnew
  | shakes hoth hsrv =>
    rw [hpeer] at hoth
    cases hoth
    cases hsrv' : peer.serve <;> simp_all [isBound, isNew]

theorem Taken.bound (h : Taken gateway action gateway')
    (hl : gateway.Lodged) (hbd : gateway'.Bound shard connection) :
    gateway.Bound shard connection ∨
    (action = .serve connection .lookup ∧ gateway.listed.contains shard = true ∧
      ∃ peer, gateway.peers.get? connection = some peer ∧ peer.serve = .inserted shard) ∨
    (∃ migration, action = .migrate migration.id .look ∧
      gateway.migrations.get? migration.id = some migration ∧
      migration.connection = connection ∧ migration.destination = shard ∧
      gateway.listed.contains shard = true) := by
  cases hbd with
  | stands hact' hwt =>
    rcases h.actor_cases hl.numbered hact' with ⟨actor, hact, hfate⟩ | ⟨rfl, hmail, hconns⟩
    · obtain rfl := key_of_get? hact
      rcases hfate.weight_pos hwt with hbef | ⟨-, peer, hpeer, hsrv⟩ |
        ⟨migration, -, hmig, hconn, hstg, hdest⟩
      · exact .inl (.stands hact hbef)
      · exact .inl (.shakes hpeer (by rw [hsrv]; rfl) (by rw [hsrv]; rfl))
      · exact .inl (.moves hmig hconn hdest (by rw [hstg]; rfl))
    · simp [weight, holds, contains, hmail, hconns] at hwt
  | moves hmig' hconn hdest hstg =>
    rcases h.migration_cases hmig' with
      ⟨migration, hmig, hfate⟩ | ⟨-, -, hspawned, -⟩
    · obtain rfl := key_of_get? hmig
      cases hfate with
      | rest => exact .inl (.moves hmig hconn hdest hstg)
      | next hprog =>
        cases hprog with
        | found => cases hstg
        | read => cases hstg
        | looked _ hlst =>
          exact .inr (.inr ⟨migration, rfl, hmig, hconn, hdest, hdest ▸ hlst⟩)
      | asked hbef
      | handed _ _ _ hbef
      | followed _ hbef =>
        exact .inl (.moves hmig hconn hdest (by rw [hbef]; rfl))
    · rw [hspawned] at hstg
      cases hstg
  | shakes hpeer' hsrv htgt =>
    rcases h.peer_cases hl.numbered hpeer' with ⟨peer, hpeer, hfate⟩ | ⟨-, -, hreserved, -⟩
    · obtain rfl := key_of_get? hpeer
      cases hfate with
      | serve hadv =>
        cases hadv with
        | found hinserted hlst =>
          cases htgt
          exact .inr (.inl ⟨rfl, hlst, peer, hpeer, hinserted⟩)
        | point hfnd =>
          cases htgt
          exact .inl (.shakes hpeer (by rw [hfnd]; rfl) (by rw [hfnd]; rfl))
        | _ => cases hsrv
      | sendAttach => cases hsrv
      | sendDetach => cases hsrv
      | _ => exact .inl (.shakes hpeer hsrv htgt)
    · rw [hreserved] at hsrv
      cases hsrv

theorem handOver_listed (gateway : Gateway) (actor : Actor) (connection : ConnectionId)
    (task : TaskId) : (gateway.handOver actor connection task).listed = gateway.listed ∧
      (gateway.handOver actor connection task).destroying = gateway.destroying := by
  rcases gateway.handOver_cases actor connection task with ⟨migration, -, -, hcase⟩ | ⟨-, hcase⟩ <;>
    rw [hcase] <;> exact ⟨rfl, rfl⟩

theorem passedOver_iff :
    gateway.passedOver shard connection = true ↔
      ∃ pending, gateway.destroying = some (shard, pending) ∧ connection ∉ pending := by
  unfold passedOver
  cases hdes : gateway.destroying with
  | none => simp
  | some target =>
    obtain ⟨target, pending⟩ := target
    simp only [Bool.and_eq_true, decide_eq_true_eq, Bool.not_eq_true', List.contains_eq_mem,
      decide_eq_false_iff_not, Option.some.injEq, Prod.mk.injEq]
    constructor
    · rintro ⟨rfl, hmem⟩
      exact ⟨pending, ⟨rfl, rfl⟩, hmem⟩
    · rintro ⟨other, ⟨rfl, rfl⟩, hmem⟩
      exact ⟨rfl, hmem⟩

theorem condemned_of_rest {target : ShardId} {connection head : ConnectionId}
    {rest : List ConnectionId} (hdes : gateway.destroying = some (target, head :: rest))
    (h : gateway.listed.contains shard = false ∨ target = shard ∧ connection ∉ rest) :
    gateway.Condemned shard connection ∨
      gateway.destroying = some (shard, connection :: rest) := by
  rcases h with hlst | ⟨rfl, hmem⟩
  · exact .inl (.inl hlst)
  · by_cases hhead : connection = head
    · exact .inr (hhead ▸ hdes)
    · refine .inl (.inr (passedOver_iff.mpr ⟨_, hdes, ?_⟩))
      simpa [hhead] using hmem

theorem condemned_iff {target : ShardId} {pending : List ConnectionId}
    (hdes : gateway.destroying = some (target, pending)) :
    gateway.Condemned shard connection ↔
      gateway.listed.contains shard = false ∨ target = shard ∧ connection ∉ pending := by
  rw [Condemned, passedOver_iff, hdes]
  simp only [Option.some.injEq, Prod.mk.injEq]
  constructor
  · rintro (hlst | ⟨_, ⟨rfl, rfl⟩, hmem⟩)
    · exact .inl hlst
    · exact .inr ⟨rfl, hmem⟩
  · rintro (hlst | ⟨rfl, hmem⟩)
    · exact .inl hlst
    · exact .inr ⟨_, ⟨rfl, rfl⟩, hmem⟩

theorem Taken.condemned (h : Taken gateway action gateway')
    (hcond : gateway'.Condemned shard connection) :
    gateway.Condemned shard connection ∨
    (action = .supervise ∧ ∀ peer, gateway.peers.get? connection = some peer →
      peer.registered = false) ∨
    (action = .check ∧ ∃ rest, gateway.destroying = some (shard, connection :: rest)) := by
  cases h with
  | create =>
    rcases hcond with hlst | hpassed
    · rw [contains_insert, Bool.or_eq_false_iff] at hlst
      exact .inl (.inl hlst.2)
    · exact .inl (.inr hpassed)
  | destroy hidle hbox =>
    rcases hcond with hlst | hpassed
    · exact .inl (.inl hlst)
    · obtain ⟨pending, hdes, hmem⟩ := passedOver_iff.mp hpassed
      cases hdes
      refine .inr (.inl ⟨rfl, fun peer hpeer => ?_⟩)
      by_contra hreg
      refine hmem (List.mem_map.mpr ⟨peer, ?_, key_of_get? hpeer⟩)
      exact List.mem_filter.mpr ⟨mem_of_get? hpeer, by simpa using hreg⟩
  | close hdes hpeer hsh
  | spare hdes hoth =>
    have hrest := (condemned_iff rfl).mp hcond
    rcases condemned_of_rest hdes hrest with hbef | hhead
    · exact .inl hbef
    · exact .inr (.inr ⟨rfl, _, hhead⟩)
  | @unlist target hdes =>
    rcases hcond with hlst | hpassed
    · rw [contains_erase, Bool.and_eq_false_iff] at hlst
      rcases hlst with htgt | hlst
      · have hsame : shard = target := by simpa using htgt
        refine .inl (.inr (passedOver_iff.mpr ⟨[], ?_, List.not_mem_nil⟩))
        rw [hdes, hsame]
      · exact .inl (.inl hlst)
    · obtain ⟨pending, hnone, -⟩ := passedOver_iff.mp hpassed
      cases hnone
  | @handedOver actor other task rest _ hact hbox hhd hres =>
    obtain ⟨hlst, hdes⟩ :=
      gateway.handOver_listed { actor with mailbox := rest } other task
    rw [hres, Condemned, passedOver, hlst, hdes] at hcond
    exact .inl hcond
  | _ => exact .inl hcond

variable (h : Taken gateway action gateway') (hl : gateway.Lodged) (hp : gateway.Placed)
  (ha : gateway.Agreed)

include h hl hp ha in
theorem Taken.doomed (horderly : gateway.orderly action = true)
    (hpeer' : gateway'.peers.get? connection = some peer') (hbd' : gateway'.Bound shard connection)
    (hcond' : gateway'.Condemned shard connection) :
    peer'.doomed = true := by
  rcases h.peer_cases hl.numbered hpeer' with ⟨peer, hpeer, hfate⟩ | ⟨-, -, hreserved, -⟩
  swap
  · have hnew := hbd'.not_new (h.lodged hl) (h.placed hl hp) hpeer'
    rw [hreserved] at hnew
    cases hnew
  rcases h.condemned hcond' with hcond | ⟨rfl, hunregistered⟩ | ⟨rfl, rest, hdes⟩
  · rcases h.bound hl hbd' with hbd | ⟨rfl, hlst, other, hoth, hsrv⟩ |
      ⟨migration, rfl, hmig, rfl, rfl, hlst⟩
    · exact hfate.doomed (ha.bound _ _ _ hpeer hbd hcond)
    · rw [hpeer] at hoth
      cases hoth
      have hpassed := hcond.resolve_left (by simp [hlst])
      refine hfate.doomed ?_
      simp only [orderly, hpeer, hsrv, hpassed, Bool.not_true, Bool.or_false] at horderly
      simp [Peer.doomed, horderly]
    · have hpassed := hcond.resolve_left (by simp [hlst])
      refine hfate.doomed ?_
      simpa [orderly, hmig, hpassed, doomed, hpeer] using horderly
  · rcases h.bound hl hbd' with hbd | ⟨hoth, -⟩ | ⟨migration, hoth, -⟩
    · refine hfate.doomed ?_
      have hnew := hbd.not_new hl hp hpeer
      have hreg := (hp.registered _ _ hpeer).symm.trans (hunregistered peer hpeer)
      cases hsrv : peer.serve <;> simp_all [isNew, isRegistered, Peer.doomed, isDead]
    · cases hoth
    · cases hoth
  · rcases h.bound hl hbd' with hbd | ⟨hoth, -⟩ | ⟨migration, hoth, -⟩
    · cases h with
      | close hhead hoth =>
        rw [hdes] at hhead
        cases hhead
        rw [get?_setPeer, if_pos rfl] at hpeer'
        cases hpeer'
        rfl
      | spare hhead hoth =>
        rw [hdes] at hhead
        cases hhead
        have hsh := hoth peer hpeer
        refine hfate.doomed ?_
        simp only [orderly, hdes, hpeer, hsh, decide_false, Bool.false_or,
          Bool.or_eq_true, Bool.not_eq_true'] at horderly
        refine horderly.resolve_right ?_
        cases hbd with
        | stands hact hwt => exact absurd (hp.resides _ _ _ _ hact hwt hpeer) hsh
        | shakes hsame hsrv htgt =>
          rw [hpeer] at hsame
          cases hsame
          exact absurd (hp.target _ _ _ hpeer htgt) hsh
        | moves hmig hconn hdest hstg =>
          rw [Bool.not_eq_false, boundFor, List.any_eq_true]
          refine ⟨_, mem_of_get? hmig, ?_⟩
          simp [hconn, hdest, hstg]
    · cases hoth
    · cases hoth

theorem Taken.listed_before (h : Taken gateway action gateway') (hn : gateway.Numbered)
    {actor : Actor} (hact : gateway.actors.get? shard = some actor)
    (hlst : gateway'.listed.contains shard = true) : gateway.listed.contains shard = true := by
  cases h with
  | create =>
    have hne := (hn.actors _ _ hact).ne
    simpa [contains_insert, hne] using hlst
  | unlist =>
    rw [contains_erase, Bool.and_eq_true] at hlst
    exact hlst.2
  | @handedOver actor other task rest _ _ _ _ hres =>
    rwa [hres, (gateway.handOver_listed { actor with mailbox := rest } other task).1] at hlst
  | _ => exact hlst

theorem Advances.admits {act : ServeAction} {actor : Actor}
    (h : Advances gateway peer act peer') (hl : gateway.Lodged) (hp : gateway.Placed)
    (horderly : gateway.orderly (.serve peer.id act) = true)
    (hpeer : gateway.peers.get? peer.id = some peer) (hlst : gateway.listed.contains shard = true)
    (hact : gateway.actors.get? shard = some actor) (hset : actor.settles peer.id = true)
    (hadm : peer.serve.admits shard = true) : peer'.serve.admits shard = true := by
  have hwt := weight_pos_of_settles hset
  cases h with
  | reject hsrv =>
    have hearly : peer.serve.isEarly = true := by
      rcases hsrv with hsrv | ⟨target, hsrv⟩ <;> rw [hsrv] <;> rfl
    have hzero : actor.weight peer.id = 0 :=
      hl.weight_early (by simpa [hpeer] using hearly) hact
    omega
  | readShard => simpa [admits] using hp.resides _ _ _ _ hact hwt hpeer
  | detach hsrv => simpa [hsrv, admits] using hadm
  | nowhere hsrv hmissing =>
    rw [hsrv] at hadm
    rw [of_decide_eq_true hadm, hlst] at hmissing
    cases hmissing
  | refuseDetach hsrv =>
    rw [hsrv] at hadm
    have htgt := of_decide_eq_true hadm
    have hid := key_of_get? hact
    simp only [orderly, hpeer, List.all_eq_true] at horderly
    have hfree := horderly actor (mem_of_get? hact)
    simp [hsrv, htgt, hid, hlst, hset] at hfree
  | _ => rfl

include h hl hp ha in
theorem Taken.admits {actor' : Actor} (horderly : gateway.orderly action = true)
    (hpeer' : gateway'.peers.get? connection = some peer')
    (hlst' : gateway'.listed.contains shard = true)
    (hact' : gateway'.actors.get? shard = some actor')
    (hset' : actor'.settles connection = true) : peer'.serve.admits shard = true := by
  rcases h.peer_cases hl.numbered hpeer' with ⟨peer, hpeer, hfate⟩ | ⟨-, -, hreserved, -⟩
  swap
  · rw [hreserved]
    rfl
  rcases h.actor_cases hl.numbered hact' with ⟨actor, hact, hactorFate⟩ | ⟨-, hmail, hconns⟩
  swap
  · simp [settles, holds, contains, hmail, hconns] at hset'
  have hlst := h.listed_before hl.numbered hact hlst'
  obtain rfl := key_of_get? hpeer
  rcases hactorFate.settles hset' with hset | ⟨rfl, other, hoth, hsrv⟩ |
    ⟨migration, rfl, hmig, hconn, hstg, hdest⟩
  · have hadm := ha.admitted _ _ _ _ hpeer hlst hact hset
    cases hfate with
    | serve hadv => exact hadv.admits hl hp horderly hpeer hlst hact hset hadm
    | sendAttach => rfl
    | sendDetach hsrv =>
      -- the teardown's `Detach` is now the last command of the one shard it may be at
      obtain ⟨other, target, hoth, hdetaching, htgt, rfl⟩ := h.of_sendDetach
      rw [hpeer] at hoth
      cases hoth
      rw [hdetaching] at hadm
      have hsame := of_decide_eq_true hadm
      rw [post, get?_setActor, if_pos hsame.symm] at hact'
      cases hact'
      rw [settles_post] at hset'
      simp [Command.settle] at hset'
    | _ => exact hadm
  · rw [hpeer] at hoth
    cases hoth
    cases hfate with
    | rest =>
      rw [hsrv]
      rfl
    | sendAttach => rfl
  · cases hfate with
    | rest =>
      obtain rfl := key_of_get? hact
      rw [← hdest]
      simpa [orderly, hmig, hconn, hpeer] using horderly

theorem PeerFate.late (h : PeerFate gateway peer action peer')
    (hlate : peer'.serve = .waiting ∨ peer'.serve = .serving) (hopen : peer'.mustClose = false) :
    action = .sendAttach peer.id ∨
      ((peer.serve = .waiting ∨ peer.serve = .serving) ∧ peer.mustClose = false) := by
  cases h with
  | serve hadv =>
    right
    cases hadv with
    | ready hsrv => exact ⟨.inl hsrv, hopen⟩
    | _ => simp at hlate
  | sendAttach => exact .inl rfl
  | sendDetach => simp at hlate
  | destroyed => cases hopen
  | fatal => cases hopen
  | closed => cases hopen
  | _ => exact .inr ⟨hlate, hopen⟩

include h hl hp ha in
theorem Taken.lodges (hpeer' : gateway'.peers.get? connection = some peer')
    (hlate : peer'.serve = .waiting ∨ peer'.serve = .serving) (hopen : peer'.mustClose = false) :
    0 < gateway'.residence connection := by
  rcases h.peer_cases hl.numbered hpeer' with ⟨peer, hpeer, hfate⟩ | ⟨-, -, hreserved, -⟩
  swap
  · simp [hreserved] at hlate
  obtain rfl := key_of_get? hpeer
  rcases hfate.late hlate hopen with rfl | ⟨hbef, hwasOpen⟩
  · obtain ⟨other, actor, -, -, hact, rfl⟩ := h.of_sendAttach
    rw [residence_post (gateway.setPeer { other with serve := .waiting }) hact]
    simp [Command.isAttach]
  have hpos := ha.lodges _ _ hpeer hbef hwasOpen
  have hsnd : peer.doomed = false := by
    rcases hbef with hsrv | hsrv <;> simp [Peer.doomed, hwasOpen, hsrv, isDead]
  rcases h.residence_ge hl hp peer.id with hge | hloses
  · exact hpos.trans_le hge
  cases hloses with
  | stop hlst hact hwt =>
    have hdoomed := ha.bound _ _ _ hpeer (.stands hact hwt) (.inl hlst)
    rw [hsnd] at hdoomed
    cases hdoomed
  | left hoth hended =>
    rw [hpeer] at hoth
    cases hoth
    simp [hended] at hbef
  | closed hmig hconn hprog =>
    obtain ⟨other, hoth, rfl⟩ := h.of_closed hmig hprog
    rw [hconn, hpeer] at hoth
    cases hoth
    rw [endMigration, get?_setPeer, Peer.close, if_pos rfl] at hpeer'
    cases hpeer'
    cases hopen

include h hl hp ha in
theorem Taken.agreed (horderly : gateway.orderly action = true) :
    gateway'.Agreed where
  admitted _ _ _ _ hpeer hlst hact hset :=
    h.admits hl hp ha horderly hpeer hlst hact hset
  lodges _ _ hpeer hlate hopen := h.lodges hl hp ha hpeer hlate hopen
  bound _ _ _ hpeer hbd hcond := h.doomed hl hp ha horderly hpeer hbd hcond

end Steps

theorem start_agreed : start.Agreed where
  admitted _ _ _ _ h := by cases h
  lodges _ _ h := by cases h
  bound _ _ _ h := by cases h

theorem Reaches.agreed {gateway : Gateway}
    (h : Reaches step (fun g action => g.orderly action = true) start gateway) :
    gateway.Lodged ∧ gateway.Placed ∧ gateway.Agreed := by
  refine Reaches.invariant (P := fun g => g.Lodged ∧ g.Placed ∧ g.Agreed)
    ⟨start_lodged, start_placed, start_agreed⟩ ?_ h
  rintro before action after ⟨hl, hp, ha⟩ horderly hstep
  have htkn := step_taken hstep
  exact ⟨htkn.lodged hl, htkn.placed hl hp, htkn.agreed hl hp ha horderly⟩

namespace Agreed

variable {gateway : Gateway} {connection : ConnectionId} {peer : Peer}

theorem held_of_serving (ha : gateway.Agreed) (hp : gateway.Placed) (hq : gateway.Quiescent)
    (hpeer : gateway.peers.get? connection = some peer) (hsrv : peer.serve = .serving) :
    ∃ actor, gateway.listed.contains peer.shard = true ∧
      gateway.actors.get? peer.shard = some actor ∧ actor.holds connection = true := by
  have hopen : peer.mustClose = false := by simpa [hsrv] using hq.peers _ (mem_of_get? hpeer)
  obtain ⟨shard, actor, hact, hhd⟩ :=
    (hq.settledFor connection).held (ha.lodges _ _ hpeer (.inr hsrv) hopen)
  have hwt := weight_pos_of_holds hhd
  have hsh := hp.resides _ _ _ _ hact hwt hpeer
  refine ⟨actor, ?_, hsh ▸ hact, hhd⟩
  by_contra hlst
  rw [hsh] at hlst
  have hdoomed := ha.bound _ _ _ hpeer (.stands hact hwt) (.inl (Bool.eq_false_of_not_eq_true hlst))
  simp [Peer.doomed, hopen, hsrv, isDead] at hdoomed

theorem serving_of_held (ha : gateway.Agreed) (hl : gateway.Lodged) (hq : gateway.Quiescent)
    {shard : ShardId} {actor : Actor} (hlst : gateway.listed.contains shard = true)
    (hact : gateway.actors.get? shard = some actor) (hhd : actor.holds connection = true) :
    ∃ peer, gateway.peers.get? connection = some peer ∧ peer.serve = .serving := by
  have hset : actor.settles connection = true := by
    rwa [settles_nil (hq.actors _ (mem_of_get? hact))]
  have hwt := weight_pos_of_holds hhd
  cases hpeer : gateway.peers.get? connection with
  | none =>
    have hzero : actor.weight connection = 0 := hl.weight_early (by simp [hpeer]) hact
    omega
  | some peer =>
    have hadm := ha.admitted _ _ _ _ hpeer hlst hact hset
    rcases hq.peers _ (mem_of_get? hpeer) with hended | ⟨hsrv, -⟩
    · rw [hended] at hadm
      cases hadm
    · exact ⟨peer, rfl, hsrv⟩

end Agreed

end Gateway

open Gateway in
/-- In a run of orderly steps, shards and peers agree whenever nothing is under way. -/
theorem placement_agrees {gateway : Gateway}
    (h : Reaches Gateway.step (fun g action => g.orderly action = true) Gateway.start gateway)
    (hq : gateway.Quiescent) :
    (∀ shard actor connection, gateway.listed.contains shard = true →
      gateway.actors.get? shard = some actor →
      (actor.holds connection = true ↔
        ∃ peer, gateway.peers.get? connection = some peer ∧ peer.serve = .serving ∧
          peer.registered = true ∧ peer.shard = shard)) ∧
    ∀ connection peer, gateway.peers.get? connection = some peer → peer.serve = .serving →
      peer.registered = true ∧ ∃ actor, gateway.listed.contains peer.shard = true ∧
        gateway.actors.get? peer.shard = some actor ∧ actor.holds connection = true := by
  obtain ⟨hl, hp, ha⟩ := Reaches.agreed h
  have hreg : ∀ connection peer, gateway.peers.get? connection = some peer →
      peer.serve = .serving → peer.registered = true := by
    intro connection peer hpeer hsrv
    rw [hp.registered _ _ hpeer, hsrv]
    rfl
  refine ⟨fun shard actor connection hlst hact => ⟨fun hhd => ?_, ?_⟩, ?_⟩
  · obtain ⟨peer, hpeer, hsrv⟩ := ha.serving_of_held hl hq hlst hact hhd
    exact ⟨peer, hpeer, hsrv, hreg _ _ hpeer hsrv,
      hp.resides _ _ _ _ hact (Actor.weight_pos_of_holds hhd) hpeer⟩
  · rintro ⟨peer, hpeer, hsrv, -, rfl⟩
    obtain ⟨other, -, hoth, hhd⟩ := ha.held_of_serving hp hq hpeer hsrv
    rw [hact] at hoth
    cases hoth
    exact hhd
  · intro connection peer hpeer hsrv
    exact ⟨hreg _ _ hpeer hsrv, ha.held_of_serving hp hq hpeer hsrv⟩

open Gateway in
def movedActions : List Action :=
  movingActions ++ [.follow 0, .sendHeld 0, .deliver 1, .requestDestroy 0, .supervise, .check,
    .unlist, .stop 0]

def movedGateway : Gateway :=
  (runActions Gateway.step Gateway.start movedActions).getD Gateway.start

open Gateway in
theorem placement_agrees_moved :
    movedGateway.Quiescent ∧ ∀ connection peer,
      movedGateway.peers.get? connection = some peer → peer.serve = .serving →
      peer.registered = true ∧ ∃ actor, movedGateway.listed.contains peer.shard = true ∧
        movedGateway.actors.get? peer.shard = some actor ∧ actor.holds connection = true :=
  ⟨by decide +kernel, (placement_agrees
    (reaches_of_run (eq_some_getD (by decide +kernel)) (by decide +kernel : AllAllowed Gateway.step
      (fun g action => g.orderly action = true) Gateway.start movedActions)) (by decide +kernel)).2⟩

open Gateway in
/-- The client hangs up while the migration has its view: the task detaches the
connection from shard 0 and ends, then the migration attaches it to shard 1. -/
def ghostActions : List Action :=
  movingActions ++ [.serve 0 .hangUp, .serve 0 .remove, .serve 0 .readShard, .serve 0 .findShard,
    .sendDetach 0, .deliver 0, .follow 0, .sendHeld 0, .deliver 1]

def ghostGateway : Gateway :=
  (runActions Gateway.step Gateway.start ghostActions).getD Gateway.start

open Gateway in
theorem ended_connection_held :
    Reaches Gateway.step (fun _ _ => True) Gateway.start ghostGateway ∧ ghostGateway.Quiescent ∧
      ghostGateway.listed.contains 1 = true ∧
      (ghostGateway.actors.get? 1).map (fun actor => actor.holds 0) = some true ∧
      (ghostGateway.peers.get? 0).map Peer.serve = some .ended :=
  ⟨reaches_of_run (eq_some_getD (by decide +kernel)) (allAllowed_true _ ghostActions),
    by decide +kernel⟩

end MumbleRuntime
