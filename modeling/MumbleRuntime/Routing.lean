import MumbleRuntime.View

/-!
# The audio relation and the routing table compiled from it

Audio is a directed relation the flavor declares outright. Compiling it turns
connections into sessions, drops muted senders and deafened receivers, and
leaves for each sender the sorted list of the sessions that may hear it.
-/

namespace MumbleRuntime
open Library

structure Silence where
  muted : OrderedSet SessionId
  deafened : OrderedSet SessionId
  deriving DecidableEq

namespace Silence

def empty : Silence := ⟨Table.empty, Table.empty⟩

def record (silence : Silence) (session : SessionId) (flags : UserFlags) : Silence where
  muted :=
    if flags.selfMute || flags.mute || flags.suppress then silence.muted.insert session
    else silence.muted
  deafened :=
    if flags.selfDeaf || flags.deaf then silence.deafened.insert session else silence.deafened

def maySpeak (silence : Silence) (session : SessionId) : Bool := !silence.muted.contains session

def mayHear (silence : Silence) (session : SessionId) : Bool := !silence.deafened.contains session

end Silence

abbrev DomainId := ℕ

structure AudioRelation where
  domains : OrderedMap DomainId (OrderedSet ConnectionId)
  listeners : Table (toLex : ConnectionId × DomainId → ConnectionId ×ₗ DomainId)
  edges : Table (toLex : ConnectionId × ConnectionId → ConnectionId ×ₗ ConnectionId)
  deriving DecidableEq

namespace AudioRelation

def empty : AudioRelation := ⟨Table.empty, Table.empty, Table.empty⟩

def domain (relation : AudioRelation) (domain : DomainId) (members : List ConnectionId) :
    AudioRelation :=
  let old : OrderedSet ConnectionId := (relation.domains.find? domain).getD Table.empty
  { relation with domains := relation.domains.set domain (members.foldl Table.insert old) }

def listen (relation : AudioRelation) (listener : ConnectionId) (domain : DomainId) :
    AudioRelation :=
  { relation with listeners := relation.listeners.insert (listener, domain) }

def edge (relation : AudioRelation) (sender receiver : ConnectionId) : AudioRelation :=
  { relation with edges := relation.edges.insert (sender, receiver) }

def listening (relation : AudioRelation) : List (ConnectionId × OrderedSet ConnectionId) :=
  relation.listeners.rows.filterMap fun declaration =>
    (relation.domains.find? declaration.2).map fun members => (declaration.1, members)

end AudioRelation

structure AudioRouting where
  receiversOf : OrderedMap SessionId (List SessionId)
  sinceOf : OrderedMap SessionId ℕ
  silence : Silence
  deriving DecidableEq

namespace AudioRouting

def empty : AudioRouting := ⟨Table.empty, Table.empty, Silence.empty⟩

def receivers (routing : AudioRouting) (sender : SessionId) : List SessionId :=
  (routing.receiversOf.find? sender).getD []

def since (routing : AudioRouting) (session : SessionId) : Option ℕ := routing.sinceOf.find? session

end AudioRouting

namespace Routing

def append (lists : OrderedMap SessionId (List SessionId)) (sender : SessionId)
    (more : List SessionId) : OrderedMap SessionId (List SessionId) :=
  lists.set sender ((lists.find? sender).getD [] ++ more)

def listeningOn (relation : AudioRelation) (sessionOf : OrderedMap ConnectionId SessionId)
    (silence : Silence) (domain : DomainId) : List SessionId :=
  (relation.listeners.rows.filter fun declaration => declaration.2 = domain).filterMap
    fun declaration => (sessionOf.find? declaration.1).filter silence.mayHear

def compileDomain (relation : AudioRelation) (sessionOf : OrderedMap ConnectionId SessionId)
    (silence : Silence) (lists : OrderedMap SessionId (List SessionId))
    (entry : DomainId × OrderedSet ConnectionId) : OrderedMap SessionId (List SessionId) :=
  let sessions := entry.2.rows.filterMap sessionOf.find?
  let audience := sessions.filter silence.mayHear
  let listening := listeningOn relation sessionOf silence entry.1
  (sessions.filter silence.maySpeak).foldl (fun lists sender =>
    append lists sender (audience.filter (· ≠ sender) ++ listening.filter (· ≠ sender))) lists

def compileEdge (sessionOf : OrderedMap ConnectionId SessionId) (silence : Silence)
    (lists : OrderedMap SessionId (List SessionId)) (edge : ConnectionId × ConnectionId) :
    OrderedMap SessionId (List SessionId) :=
  match sessionOf.find? edge.1, sessionOf.find? edge.2 with
  | some sender, some receiver =>
    if silence.maySpeak sender && silence.mayHear receiver then append lists sender [receiver]
    else lists
  | _, _ => lists

def sortedSessions (sessions : List SessionId) : List SessionId :=
  (Table.ofList sessions : OrderedSet SessionId).rows

def compile (relation : AudioRelation) (sessionOf : OrderedMap ConnectionId SessionId)
    (since : OrderedMap SessionId ℕ) (silence : Silence) : AudioRouting :=
  let lists := relation.domains.rows.foldl (compileDomain relation sessionOf silence) Table.empty
  let lists := relation.edges.rows.foldl (compileEdge sessionOf silence) lists
  { receiversOf :=
      (lists.mapRows (fun row => (row.1, sortedSessions row.2)) (fun _ => rfl)).filter
        fun row => !row.2.isEmpty
    sinceOf := since
    silence }

end Routing

end MumbleRuntime
