import MumbleRuntime.Ids
import MumbleRuntime.Library.Index
import MumbleRuntime.Library.Transition

/-!
# The registry of peers and the addresses they have proven

A datagram from an unknown address is tried against the peers of its host, and the
one that decrypts it is bound to the address. Lookup, candidates, decryption and
binding are steps of their own, so a connection may be registered or removed
between any two of them.
-/

namespace MumbleRuntime.Registry

open Library Table

abbrev IpAddr := ℕ
abbrev SocketAddr := IpAddr × ℕ

structure Peer where
  connection : ConnectionId
  host : IpAddr
  deriving DecidableEq

/-- A peer is named by its connection. Its proven address is its own and outlives its
registration. -/
structure Peers where
  byConnection : Table Peer.connection
  byAddress : SocketAddr → Option ConnectionId
  byHost : IpAddr → List ConnectionId
  provenAddress : ConnectionId → Option SocketAddr

namespace Peers

def new : Peers where
  byConnection := .empty
  byAddress _ := none
  byHost _ := []
  provenAddress _ := none

def insert (peers : Peers) (peer : Peer) : Peers :=
  { peers with
    byConnection := peers.byConnection.insert peer
    byHost := Function.update peers.byHost peer.host (peers.byHost peer.host ++ [peer.connection])
    provenAddress := Function.update peers.provenAddress peer.connection none }

def remove (peers : Peers) (connection : ConnectionId) : Peers :=
  match peers.byConnection.get? connection with
  | none => peers
  | some peer =>
    { peers with
      byConnection := peers.byConnection.erase connection
      byAddress := match peers.provenAddress connection with
        | some address => Function.update peers.byAddress address none
        | none => peers.byAddress
      byHost := Function.update peers.byHost peer.host
        ((peers.byHost peer.host).filter fun other => other ≠ connection) }

def bind (peers : Peers) (address : SocketAddr) (connection : ConnectionId) : Peers :=
  let byAddress := match peers.provenAddress connection with
    | some previous =>
      if previous ≠ address then Function.update peers.byAddress previous none else peers.byAddress
    | none => peers.byAddress
  { peers with
    provenAddress := Function.update peers.provenAddress connection (some address)
    byAddress := Function.update byAddress address (some connection) }

def registered (peers : Peers) (connection : ConnectionId) : Bool :=
  peers.byConnection.contains connection

end Peers

/-- How far `handle_datagram` has come with a datagram whose address was not found. -/
inductive Handling
  | looked (source : SocketAddr)
  | trying (source : SocketAddr) (candidates : List ConnectionId)
  | decrypted (source : SocketAddr) (connection : ConnectionId)

def Handling.source : Handling → SocketAddr
  | .looked source | .trying source _ | .decrypted source _ => source

structure Plane where
  peers : Peers
  inserted : List ConnectionId
  handling : Option Handling

inductive PlaneStep
  | insert (peer : Peer)
  | remove (connection : ConnectionId)
  | lookup (source : SocketAddr)
  | candidates
  | decrypt (opens : Bool)
  | bind

namespace Plane

def start : Plane := ⟨.new, [], none⟩

def step (plane : Plane) : PlaneStep → Option Plane
  | .insert peer =>
    if peer.connection ∈ plane.inserted then none
    else some { plane with
      peers := plane.peers.insert peer
      inserted := peer.connection :: plane.inserted }
  | .remove connection => some { plane with peers := plane.peers.remove connection }
  | .lookup source =>
    match plane.handling with
    | none => some { plane with
        handling := if (plane.peers.byAddress source).isSome then none else some (.looked source) }
    | some _ => none
  | .candidates =>
    match plane.handling with
    | some (.looked source) =>
      some { plane with handling := some (.trying source (plane.peers.byHost source.1)) }
    | _ => none
  | .decrypt opens =>
    match plane.handling with
    | some (.trying source (connection :: rest)) =>
      some { plane with
        handling := some (if opens then .decrypted source connection else .trying source rest) }
    | some (.trying _ []) => some { plane with handling := none }
    | _ => none
  | .bind =>
    match plane.handling with
    | some (.decrypted source connection) =>
      some { plane with peers := plane.peers.bind source connection, handling := none }
    | _ => none

/-- A peer is bound while it is registered. -/
def bindsRegistered (plane : Plane) : PlaneStep → Bool
  | .bind =>
    match plane.handling with
    | some (.decrypted _ connection) => plane.peers.registered connection
    | _ => true
  | _ => true

end Plane

namespace Peers

def held (peers : Peers) (connection : ConnectionId) : Option SocketAddr :=
  (peers.byConnection.get? connection).bind fun _ => peers.provenAddress connection

variable {peers : Peers} {connection : ConnectionId}

theorem held_eq_some_iff {address : SocketAddr} :
    peers.held connection = some address ↔
      peers.registered connection = true ∧ peers.provenAddress connection = some address := by
  simp only [held, registered, contains]
  cases peers.byConnection.get? connection <;> simp

theorem held_of_get? {peer : Peer} (h : peers.byConnection.get? connection = some peer) :
    peers.held connection = peers.provenAddress connection := by
  simp [held, h]

theorem held_insert {peer : Peer} (hnew : peers.registered peer.connection = false) :
    (peers.insert peer).held = peers.held := by
  funext connection
  by_cases heq : connection = peer.connection
  · subst heq
    have hnone : peers.byConnection.get? peer.connection = none := by
      simpa [registered, contains] using hnew
    simp [held, insert, hnone]
  · simp [held, insert, heq]

theorem indexed_remove (h : Indexes peers.byAddress peers.held) (connection : ConnectionId) :
    Indexes (peers.remove connection).byAddress (peers.remove connection).held := by
  unfold remove
  cases hget : peers.byConnection.get? connection with
  | none => exact h
  | some peer =>
    have hheld := held_of_get? hget
    convert h.clear connection using 1
    · funext address
      rw [hheld]
      cases peers.provenAddress connection with
      | none => simp
      | some proven => simp [Function.update_apply, eq_comm]
    · funext other
      by_cases heq : other = connection
      · simp [held, heq]
      · simp [held, heq]

theorem indexed_bind (h : Indexes peers.byAddress peers.held) {address : SocketAddr}
    (hfree : peers.byAddress address = none)
    (hregistered : peers.registered connection = true) :
    Indexes (peers.bind address connection).byAddress (peers.bind address connection).held := by
  obtain ⟨peer, hget⟩ := Option.isSome_iff_exists.mp hregistered
  have hheld := held_of_get? hget
  convert h.assign (k := address) (i := connection) (by simp [hfree]) using 1
  · funext other
    rw [hheld]
    cases hproven : peers.provenAddress connection with
    | none => simp [bind, hproven, Function.update_apply]
    | some previous =>
      by_cases hother : other = address
      · simp [bind, hproven, hother]
      · by_cases hsame : previous = address
        · simp [bind, hproven, hother, hsame, Ne.symm hother]
        · simp [bind, hproven, hother, hsame, Function.update_apply, eq_comm]
  · funext other
    by_cases heq : other = connection
    · subst heq
      simp [held, bind, hget]
    · simp [held, bind, heq]

end Peers

structure Plane.Bound (plane : Plane) : Prop where
  indexed : Indexes plane.peers.byAddress plane.peers.held
  inserted : ∀ connection, plane.peers.registered connection = true → connection ∈ plane.inserted
  missed : ∀ handling, plane.handling = some handling → plane.peers.byAddress handling.source = none

theorem Plane.Bound.step {plane plane' : Plane} {action : PlaneStep} (h : plane.Bound)
    (hallow : plane.bindsRegistered action = true) (hstep : plane.step action = some plane') :
    plane'.Bound := by
  cases action with
  | insert peer =>
    simp only [Plane.step] at hstep
    split_ifs at hstep with hold
    cases hstep
    have hnew : plane.peers.registered peer.connection = false :=
      Bool.eq_false_iff.mpr fun hin => hold (h.inserted _ hin)
    refine ⟨(Peers.held_insert hnew).symm ▸ h.indexed, fun connection hin => ?_, h.missed⟩
    by_cases heq : connection = peer.connection
    · exact heq ▸ List.mem_cons_self
    · have hbef : plane.peers.registered connection = true := by
        simpa [Peers.registered, Peers.insert, contains, heq] using hin
      exact List.mem_cons_of_mem _ (h.inserted _ hbef)
  | remove connection =>
    cases hstep
    refine ⟨Peers.indexed_remove h.indexed connection, fun other hin => h.inserted _ ?_,
      fun handling hhandling => ?_⟩
    · unfold Peers.remove at hin
      split at hin
      · exact hin
      · simp only [Peers.registered, contains, get?_erase] at hin ⊢
        split_ifs at hin
        · cases hin
        · exact hin
    · have hnone := h.missed handling hhandling
      unfold Peers.remove
      split
      · exact hnone
      · cases hproven : plane.peers.provenAddress connection with
        | none => simpa [hproven] using hnone
        | some address => simp [Function.update_apply, hnone]
  | lookup source =>
    simp only [Plane.step] at hstep
    split at hstep
    · cases hstep
      refine ⟨h.indexed, h.inserted, fun handling hhandling => ?_⟩
      split_ifs at hhandling with hsome
      obtain rfl := Option.some.inj hhandling
      simpa [Handling.source] using hsome
    · cases hstep
  | candidates =>
    simp only [Plane.step] at hstep
    split at hstep <;> cases hstep
    rename_i source hlooked
    refine ⟨h.indexed, h.inserted, fun handling hhandling => ?_⟩
    obtain rfl := Option.some.inj hhandling
    have hnone := h.missed _ hlooked
    exact hnone
  | decrypt opens =>
    simp only [Plane.step] at hstep
    split at hstep <;> cases hstep
    · rename_i source connection rest htrying
      refine ⟨h.indexed, h.inserted, fun handling hhandling => ?_⟩
      obtain rfl := Option.some.inj hhandling
      have hnone := h.missed _ htrying
      cases opens <;> exact hnone
    · exact ⟨h.indexed, h.inserted, fun _ hnone => by cases hnone⟩
  | bind =>
    simp only [Plane.step] at hstep
    split at hstep <;> cases hstep
    rename_i source connection hdecrypted
    simp only [Plane.bindsRegistered, hdecrypted] at hallow
    exact ⟨Peers.indexed_bind h.indexed (h.missed _ hdecrypted) hallow, h.inserted, fun _ hnone => by cases hnone⟩

theorem proven_addresses_registered {plane : Plane}
    (h : Reaches Plane.step (fun plane action => plane.bindsRegistered action = true) Plane.start
      plane) :
    (∀ address connection, plane.peers.byAddress address = some connection →
      plane.peers.registered connection = true ∧
        plane.peers.provenAddress connection = some address) ∧
    (∀ address other connection, plane.peers.byAddress address = some connection →
      plane.peers.byAddress other = some connection → address = other) ∧
    ∀ connection address, plane.peers.registered connection = true →
      plane.peers.provenAddress connection = some address →
      plane.peers.byAddress address = some connection := by
  have hstart : Plane.start.Bound :=
    ⟨fun _ _ => by simp [Plane.start, Peers.new, Peers.held], nofun, nofun⟩
  have hbound := Reaches.invariant (P := Plane.Bound) hstart
    (fun _ _ _ hinv hallow hstep => hinv.step hallow hstep) h
  have hfinds : ∀ address connection, plane.peers.byAddress address = some connection ↔
      plane.peers.registered connection = true ∧
        plane.peers.provenAddress connection = some address :=
    fun address connection => (hbound.indexed _ _).trans Peers.held_eq_some_iff
  refine ⟨fun address connection => (hfinds _ _).mp, fun address other connection hfind hother => ?_,
    fun connection address hin hproven => (hfinds _ _).mpr ⟨hin, hproven⟩⟩
  have hproven := ((hfinds _ _).mp hfind).2
  rw [((hfinds _ _).mp hother).2] at hproven
  exact (Option.some.inj hproven).symm

def provingSteps (more : List PlaneStep) : List PlaneStep :=
  [.insert ⟨1, 7⟩, .lookup (7, 50), .candidates, .decrypt true] ++ more ++ [.bind]

def provenPlane (more : List PlaneStep) : Plane :=
  (runActions Plane.step Plane.start (provingSteps more)).getD Plane.start

theorem proven_addresses_registered_bound :
    (provenPlane []).peers.byAddress (7, 50) = some 1 ∧
      (provenPlane []).peers.registered 1 = true :=
  ⟨by decide, ((proven_addresses_registered (reaches_getD (by decide))).1 _ _
    (by decide : (provenPlane []).peers.byAddress (7, 50) = some 1)).1⟩

/-- The connection ends between the decryption and the binding. -/
theorem removed_peer_bound :
    Reaches Plane.step (fun _ _ => True) Plane.start (provenPlane [.remove 1]) ∧
      (provenPlane [.remove 1]).peers.byAddress (7, 50) = some 1 ∧
      (provenPlane [.remove 1]).peers.registered 1 = false :=
  ⟨reaches_getD (by decide), by decide⟩

end MumbleRuntime.Registry
