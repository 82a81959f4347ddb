import Mathlib.Data.String.Basic
import MumbleRuntime.Ids
import MumbleRuntime.Library.Index
import MumbleRuntime.Library.OrderedTable

/-!
# Host bindings

Who may connect, and as whom: a participant has one credential and at most one
live connection. Both are indexed in both directions.
-/

namespace MumbleRuntime.Controller

open Library OrderedMap Option

structure Binding where
  participantId : String
  credential : String
  connection : Option ConnectionId
  deriving DecidableEq, Repr

inductive HostError
  | invalidRegistration
  | credentialConflict
  | unknownCredential
  | connectionConflict
  | inconsistentBinding
  deriving DecidableEq, Repr

def HostError.message : HostError → String
  | .invalidRegistration => "participant registrations and credentials must not be empty"
  | .credentialConflict => "the Mumble credential is already assigned"
  | .unknownCredential => "the Mumble credential is unknown or revoked"
  | .connectionConflict => "the Mumble connection is already assigned"
  | .inconsistentBinding => "the host binding indexes disagree"

structure Attachment where
  participantId : String
  replacedConnection : Option ConnectionId
  deriving DecidableEq, Repr

structure Bindings where
  participants : Table Binding.participantId
  credentials : OrderedMap String String
  connections : OrderedMap ConnectionId String

variable {bindings' : Bindings}

variable {attachment : Attachment} {error : HostError}

namespace Bindings

def empty : Bindings where
  participants := .empty
  credentials := .empty
  connections := .empty

variable (bindings : Bindings)

def register (participantId credential : String) : Except HostError Unit × Bindings :=
  if participantId.isEmpty || credential.isEmpty then (.error .invalidRegistration, bindings)
  else if (bindings.credentials.find? credential).any fun owner => owner ≠ participantId then
    (.error .credentialConflict, bindings)
  else
    let previous := bindings.participants.get? participantId
    let credentials : OrderedMap String String := match previous with
      | some binding => bindings.credentials.erase binding.credential
      | none => bindings.credentials
    (.ok (), { bindings with
      participants := bindings.participants.insert
        ⟨participantId, credential, previous.bind Binding.connection⟩
      credentials := credentials.set credential participantId })

def attach (credential : String) (connection : ConnectionId) :
    Except HostError Attachment × Bindings :=
  match bindings.credentials.find? credential with
  | none => (.error .unknownCredential, bindings)
  | some participantId =>
    if (bindings.connections.find? connection).any fun owner => owner ≠ participantId then
      (.error .connectionConflict, bindings)
    else match bindings.participants.get? participantId with
      | none => (.error .inconsistentBinding, bindings)
      | some binding =>
        let connections : OrderedMap ConnectionId String := match binding.connection with
          | some previous => bindings.connections.erase previous
          | none => bindings.connections
        (.ok ⟨participantId, binding.connection.filter fun previous => previous ≠ connection⟩,
          { bindings with
            participants := bindings.participants.insert
              { binding with connection := some connection }
            connections := connections.set connection participantId })

def disconnect (connection : ConnectionId) : Bindings :=
  match bindings.connections.find? connection with
  | none => bindings
  | some participantId =>
    { bindings with
      connections := bindings.connections.erase connection
      participants := match bindings.participants.get? participantId with
        | some binding =>
          if binding.connection = some connection then
            bindings.participants.insert { binding with connection := none }
          else bindings.participants
        | none => bindings.participants }

def remove (participantId : String) : Option ConnectionId × Bindings :=
  match bindings.participants.get? participantId with
  | none => (none, bindings)
  | some binding =>
    (binding.connection,
      { participants := bindings.participants.erase participantId
        credentials := bindings.credentials.erase binding.credential
        connections := match binding.connection with
          | some connection => bindings.connections.erase connection
          | none => bindings.connections })

def credential (participantId : String) : Option String :=
  (bindings.participants.get? participantId).map Binding.credential

def connection (participantId : String) : Option ConnectionId :=
  (bindings.participants.get? participantId).bind Binding.connection

def participant (connection : ConnectionId) : Option String :=
  bindings.connections.find? connection

def contains (participantId : String) : Bool := bindings.participants.contains participantId

def credentialAvailable (credential : String) : Bool :=
  !credential.isEmpty && !bindings.credentials.contains credential

structure Consistent : Prop where
  credentials : Indexes bindings.credentials.find? bindings.credential
  connections : Indexes bindings.participant bindings.connection

theorem empty_consistent : empty.Consistent where
  credentials _ _ := by simp [empty, credential]
  connections _ _ := by simp [empty, participant, connection]

variable {bindings}

theorem credentialAvailable_iff {credential : String} :
    bindings.credentialAvailable credential = true ↔
      credential.isEmpty = false ∧ bindings.credentials.find? credential = none := by
  simp [credentialAvailable, Table.contains, find?]

section Register

variable {id credential : String}

theorem register_available (hid : id.isEmpty = false)
    (hav : bindings.credentialAvailable credential = true) :
    (bindings.register id credential).1 = .ok () := by
  obtain ⟨hcredential, hnone⟩ := credentialAvailable_iff.mp hav
  simp [register, hid, hcredential, hnone]

section

variable (h : (bindings.register id credential).1 = .ok ())

include h

theorem register_ok :
    (bindings.register id credential).2 =
      { bindings with
        participants := bindings.participants.insert ⟨id, credential, bindings.connection id⟩
        credentials := set (match bindings.credential id with
          | some previous => bindings.credentials.erase previous
          | none => bindings.credentials) credential id } := by
  unfold register at h ⊢
  split_ifs at h ⊢ with hemp hconflict
  simp only [connection, Bindings.credential]
  cases bindings.participants.get? id <;> rfl

theorem get?_register (other : String) :
    (bindings.register id credential).2.participants.get? other =
      if other = id then some ⟨id, credential, bindings.connection id⟩
      else bindings.participants.get? other := by
  rw [register_ok h, Table.get?_insert]

theorem connection_register (other : String) :
    (bindings.register id credential).2.connection other = bindings.connection other := by
  rw [connection, get?_register h]
  split_ifs with hoth
  · rw [hoth]
    rfl
  · rfl

theorem credential_register (other : String) :
    (bindings.register id credential).2.credential other =
      if other = id then some credential else bindings.credential other := by
  rw [Bindings.credential, get?_register h]
  split_ifs <;> rfl

theorem contains_register (other : String) :
    (bindings.register id credential).2.contains other =
      (decide (other = id) || bindings.contains other) := by
  simp only [contains, Table.contains, get?_register h]
  split_ifs with hoth <;> simp [hoth]

theorem participant_register (other : ConnectionId) :
    (bindings.register id credential).2.participant other = bindings.participant other := by
  rw [register_ok h]
  rfl

theorem find?_register (other : String) :
    (bindings.register id credential).2.credentials.find? other =
      if other = credential then some id
      else if bindings.credential id = some other then none
      else bindings.credentials.find? other := by
  rw [register_ok h, find?_set]
  cases bindings.credential id with
  | none => simp
  | some previous =>
    simp only [find?_erase, some.injEq]
    simp only [eq_comm]

theorem register_free (holder : String)
    (hholder : bindings.credentials.find? credential = some holder) : holder = id := by
  unfold register at h
  split_ifs at h with hemp hconflict
  simpa [hholder] using hconflict

theorem Consistent.register (hcons : bindings.Consistent) :
    (bindings.register id credential).2.Consistent := by
  refine ⟨?_, ?_⟩
  · rw [funext (find?_register h), funext (credential_register h)]
    exact hcons.credentials.assign (register_free h)
  · rw [funext (participant_register h), funext (connection_register h)]
    exact hcons.connections

end

theorem register_error (h : (bindings.register id credential).1 = .error error) :
    error ≠ .inconsistentBinding ∧ (bindings.register id credential).2 = bindings := by
  unfold register at h ⊢
  split_ifs at h ⊢ <;> cases h <;> exact ⟨nofun, rfl⟩

end Register

/-- What `attach` does once it succeeds. -/
structure Attached (bindings : Bindings) (credential : String) (connection : ConnectionId)
    (attachment : Attachment) (bindings' : Bindings) : Prop where
  credential : bindings.credentials.find? credential = some attachment.participantId
  held : bindings.contains attachment.participantId = true
  free : ∀ holder, bindings.participant connection = some holder → holder = attachment.participantId
  replaced : attachment.replacedConnection =
    (bindings.connection attachment.participantId).filter fun previous => previous ≠ connection
  contains_eq : ∀ id, bindings'.contains id = bindings.contains id
  credential_eq : ∀ id, bindings'.credential id = bindings.credential id
  credentials_eq : bindings'.credentials = bindings.credentials
  connection_eq : ∀ id, bindings'.connection id =
    if id = attachment.participantId then some connection else bindings.connection id
  participant_eq : ∀ other, bindings'.participant other =
    if other = connection then some attachment.participantId
    else if bindings.connection attachment.participantId = some other then none
    else bindings.participant other

theorem attach_attached {credential : String} {connection : ConnectionId}
    (h : bindings.attach credential connection = (.ok attachment, bindings')) :
    Attached bindings credential connection attachment bindings' := by
  unfold attach at h
  cases hcredential : bindings.credentials.find? credential with
  | none => simp [hcredential] at h
  | some id =>
    rw [hcredential] at h
    dsimp only at h
    split_ifs at h with hconflict
    · simp at h
    cases hget : bindings.participants.get? id with
    | none => simp [hget] at h
    | some binding =>
      have hid : binding.participantId = id := Table.key_of_get? hget
      simp only [hget, Prod.mk.injEq, Except.ok.injEq] at h
      obtain ⟨rfl, rfl⟩ := h
      have hconn : bindings.connection id = binding.connection := by
        simp [Bindings.connection, hget]
      refine ⟨hcredential, ?_, ?_, ?_, ?_, ?_, rfl, ?_, ?_⟩
      · simp [contains, Table.contains, hget]
      · intro holder hholder
        have hfind : bindings.connections.find? connection = some holder := hholder
        simpa [hfind] using hconflict
      · rw [hconn]
      · intro other
        simp only [contains, Table.contains, Table.get?_insert, hid]
        split_ifs with hoth
        · simp [hoth, hget]
        · rfl
      · intro other
        simp only [Bindings.credential, Table.get?_insert, hid]
        split_ifs with hoth
        · simp [hoth, hget]
        · rfl
      · intro other
        simp only [Bindings.connection, Table.get?_insert, hid]
        split_ifs <;> rfl
      · intro other
        simp only [participant, find?_set, hconn]
        by_cases hoth : other = connection
        · simp [hoth]
        cases binding.connection with
        | none => simp
        | some previous => simp [eq_comm]

theorem Attached.consistent {credential : String} {connection : ConnectionId}
    (h : Attached bindings credential connection attachment bindings')
    (hcons : bindings.Consistent) : bindings'.Consistent := by
  refine ⟨?_, ?_⟩
  · rw [h.credentials_eq, funext h.credential_eq]
    exact hcons.credentials
  · rw [funext h.participant_eq, funext h.connection_eq]
    exact hcons.connections.assign h.free

theorem Consistent.attach_error (hcons : bindings.Consistent) {credential : String}
    {connection : ConnectionId}
    (h : bindings.attach credential connection = (.error error, bindings')) :
    (error = .unknownCredential ∨ error = .connectionConflict) ∧ bindings' = bindings := by
  unfold attach at h
  cases hcredential : bindings.credentials.find? credential with
  | none =>
    simp only [hcredential, Prod.mk.injEq, Except.error.injEq] at h
    exact ⟨.inl h.1.symm, h.2.symm⟩
  | some id =>
    have hheld := (hcons.credentials credential id).mp hcredential
    obtain ⟨binding, hget, -⟩ := map_eq_some_iff.mp hheld
    rw [hcredential] at h
    dsimp only at h
    split_ifs at h with hconflict
    · simp only [Prod.mk.injEq, Except.error.injEq] at h
      exact ⟨.inr h.1.symm, h.2.symm⟩
    · simp [hget] at h

section Disconnect

variable {connection : ConnectionId}

section

variable (hcons : bindings.Consistent)

include hcons

theorem Consistent.get?_disconnect (id : String) :
    (bindings.disconnect connection).participants.get? id =
      (bindings.participants.get? id).map fun binding =>
        if binding.connection = some connection then { binding with connection := none }
        else binding := by
  have hself : ∀ id, bindings.participant connection ≠ some id →
      bindings.participants.get? id = (bindings.participants.get? id).map fun binding =>
        if binding.connection = some connection then { binding with connection := none }
        else binding := by
    intro id hne
    cases hget : bindings.participants.get? id with
    | none => rfl
    | some binding =>
      have hconn : bindings.connection id = binding.connection := by
        simp [Bindings.connection, hget]
      have hoth : binding.connection ≠ some connection := by
        intro heq
        exact hne ((hcons.connections _ _).mpr (hconn.trans heq))
      simp [hoth]
  unfold disconnect
  cases hholder : bindings.connections.find? connection with
  | none => exact hself id (by simp [participant, hholder])
  | some holder =>
    have hheld := (hcons.connections connection holder).mp hholder
    obtain ⟨binding, hget, hconn⟩ := bind_eq_some_iff.mp hheld
    have hid : binding.participantId = holder := Table.key_of_get? hget
    simp only [hget, hconn, if_true, Table.get?_insert, hid]
    split_ifs with heq
    · simp [heq, hget, hconn, hid]
    · exact hself id (by
        simp only [participant, hholder, ne_eq, some.injEq]
        exact Ne.symm heq)

theorem Consistent.contains_disconnect (id : String) :
    (bindings.disconnect connection).contains id = bindings.contains id := by
  simp [contains, Table.contains, hcons.get?_disconnect]

theorem Consistent.credential_disconnect (id : String) :
    (bindings.disconnect connection).credential id = bindings.credential id := by
  rw [credential, hcons.get?_disconnect, credential]
  cases bindings.participants.get? id with
  | none => rfl
  | some binding =>
    simp only [map_some]
    split_ifs <;> rfl

theorem Consistent.connection_disconnect (id : String) :
    (bindings.disconnect connection).connection id =
      if bindings.connection id = some connection then none else bindings.connection id := by
  rw [Bindings.connection, hcons.get?_disconnect, Bindings.connection]
  cases bindings.participants.get? id with
  | none => simp
  | some binding =>
    simp only [map_some, bind_some]
    split_ifs <;> rfl

end

theorem participant_disconnect (other : ConnectionId) :
    (bindings.disconnect connection).participant other =
      if other = connection then none else bindings.participant other := by
  unfold disconnect
  cases hholder : bindings.connections.find? connection with
  | none =>
    split_ifs with hoth
    · rw [hoth]
      exact hholder
    · rfl
  | some holder => simp [participant]

theorem Consistent.disconnect (hcons : bindings.Consistent) (connection : ConnectionId) :
    (bindings.disconnect connection).Consistent := by
  have hcredentials : (bindings.disconnect connection).credentials = bindings.credentials := by
    unfold Bindings.disconnect
    cases bindings.connections.find? connection <;> rfl
  refine ⟨?_, ?_⟩
  · rw [hcredentials, funext hcons.credential_disconnect]
    exact hcons.credentials
  · rw [funext participant_disconnect, funext hcons.connection_disconnect]
    exact hcons.connections.withdraw connection

end Disconnect

section Remove

variable {id : String}

theorem get?_remove (other : String) :
    (bindings.remove id).2.participants.get? other =
      if other = id then none else bindings.participants.get? other := by
  unfold remove
  cases hget : bindings.participants.get? id with
  | none =>
    split_ifs with hoth
    · rw [hoth]
      exact hget
    · rfl
  | some binding => simp

theorem contains_remove (other : String) :
    (bindings.remove id).2.contains other = (!decide (other = id) && bindings.contains other) := by
  simp only [contains, Table.contains, get?_remove]
  split_ifs with hoth <;> simp [hoth]

theorem credential_remove (other : String) :
    (bindings.remove id).2.credential other =
      if other = id then none else bindings.credential other := by
  rw [credential, get?_remove]
  split_ifs <;> rfl

theorem connection_remove (other : String) :
    (bindings.remove id).2.connection other =
      if other = id then none else bindings.connection other := by
  rw [connection, get?_remove]
  split_ifs <;> rfl

theorem find?_remove (other : String) :
    (bindings.remove id).2.credentials.find? other =
      if bindings.credential id = some other then none else bindings.credentials.find? other := by
  unfold remove credential
  cases bindings.participants.get? id with
  | none => simp
  | some binding => simp [eq_comm]

theorem participant_remove (other : ConnectionId) :
    (bindings.remove id).2.participant other =
      if bindings.connection id = some other then none else bindings.participant other := by
  unfold remove participant connection
  cases bindings.participants.get? id with
  | none => simp
  | some binding =>
    cases hconn : binding.connection with
    | none => simp [hconn]
    | some connection => simp [hconn, eq_comm]

theorem Consistent.remove (hcons : bindings.Consistent) (id : String) :
    (bindings.remove id).2.Consistent := by
  refine ⟨?_, ?_⟩
  · rw [funext find?_remove, funext credential_remove]
    exact hcons.credentials.clear id
  · rw [funext participant_remove, funext connection_remove]
    exact hcons.connections.clear id

end Remove

end Bindings

inductive BindingCall
  | register (participantId credential : String)
  | attach (credential : String) (connection : ConnectionId)
  | disconnect (connection : ConnectionId)
  | remove (participantId : String)

namespace Bindings

def call (bindings : Bindings) : BindingCall → Except HostError Unit × Bindings
  | .register participantId credential => bindings.register participantId credential
  | .attach credential connection =>
    let (result, bindings) := bindings.attach credential connection
    (result.map fun _ => (), bindings)
  | .disconnect connection => (.ok (), bindings.disconnect connection)
  | .remove participantId => (.ok (), (bindings.remove participantId).2)

def run (calls : List BindingCall) : Bindings :=
  calls.foldl (fun bindings call => (bindings.call call).2) empty

variable {bindings : Bindings}

theorem Consistent.call_error (hcons : bindings.Consistent) {call : BindingCall}
    (h : (bindings.call call).1 = .error error) :
    error ≠ .inconsistentBinding ∧ (bindings.call call).2 = bindings := by
  cases call with
  | register id credential => exact register_error h
  | attach credential connection =>
    simp only [Bindings.call] at h ⊢
    rcases hattach : bindings.attach credential connection with ⟨result | attachment, next⟩
    · rw [hattach] at h
      cases h
      obtain ⟨herr, hnext⟩ := hcons.attach_error hattach
      exact ⟨by rcases herr with rfl | rfl <;> nofun, hnext⟩
    · rw [hattach] at h
      cases h
  | disconnect connection => cases h
  | remove id => cases h

/-- A call keeps the bindings consistent, and only an attachment gives out a connection. -/
theorem Consistent.call (hcons : bindings.Consistent) (call : BindingCall) :
    (bindings.call call).2.Consistent ∧ ∀ id connection,
      (bindings.call call).2.connection id = some connection →
        bindings.connection id = some connection ∨
          ∃ credential, call = .attach credential connection := by
  rcases herr : (bindings.call call).1 with error | done
  · rw [(hcons.call_error herr).2]
    exact ⟨hcons, fun _ _ h => .inl h⟩
  cases call with
  | register id credential =>
    refine ⟨Consistent.register herr hcons, fun other connection h => .inl ?_⟩
    exact (connection_register herr other).symm.trans h
  | attach credential connection =>
    simp only [Bindings.call] at herr ⊢
    rcases hattach : bindings.attach credential connection with ⟨error | attachment, next⟩
    · rw [hattach] at herr
      cases herr
    have hatt := attach_attached hattach
    refine ⟨hatt.consistent hcons, fun id other h => ?_⟩
    rw [hatt.connection_eq] at h
    split_ifs at h with hid
    · exact .inr ⟨credential, by rw [some.inj h]⟩
    · exact .inl h
  | disconnect connection =>
    refine ⟨hcons.disconnect connection, fun id other h => .inl ?_⟩
    rw [Bindings.call, hcons.connection_disconnect] at h
    split_ifs at h
    exact h
  | remove id =>
    refine ⟨hcons.remove id, fun other connection h => .inl ?_⟩
    rw [Bindings.call, connection_remove] at h
    split_ifs at h
    exact h

theorem Consistent.foldl (hcons : bindings.Consistent) (calls : List BindingCall) :
    (calls.foldl (fun bindings call => (bindings.call call).2) bindings).Consistent ∧
      ∀ id connection, (calls.foldl (fun bindings call => (bindings.call call).2)
          bindings).connection id = some connection →
        bindings.connection id = some connection ∨
          ∃ credential, BindingCall.attach credential connection ∈ calls := by
  induction calls generalizing bindings with
  | nil => exact ⟨hcons, fun _ _ h => .inl h⟩
  | cons call calls ih =>
    obtain ⟨hcalled, hgiven⟩ := hcons.call call
    refine ⟨(ih hcalled).1, fun id connection h => ?_⟩
    rcases (ih hcalled).2 id connection h with h | ⟨credential, h⟩
    · rcases hgiven id connection h with h | ⟨credential, rfl⟩
      · exact .inl h
      · exact .inr ⟨credential, List.mem_cons_self⟩
    · exact .inr ⟨credential, List.mem_cons_of_mem _ h⟩

theorem Consistent.disconnect_unheld (hcons : bindings.Consistent) {connection : ConnectionId}
    (h : ∀ id, bindings.connection id ≠ some connection) :
    bindings.disconnect connection = bindings := by
  have hnone : bindings.connections.find? connection = none :=
    eq_none_iff_forall_ne_some.mpr fun id hid => h id ((hcons.connections _ _).mp hid)
  simp only [Bindings.disconnect, hnone]

theorem Attached.replaced_unheld {credential : String} {connection previous : ConnectionId}
    (h : Attached bindings credential connection attachment bindings')
    (hcons : bindings.Consistent) (hreplaced : attachment.replacedConnection = some previous)
    (id : String) : bindings'.connection id ≠ some previous := by
  rw [h.replaced, filter_eq_some_iff] at hreplaced
  obtain ⟨hheld, hne⟩ := hreplaced
  rw [h.connection_eq]
  split_ifs with hid
  · exact fun heq => of_decide_eq_true hne (some.inj heq).symm
  · exact fun hoth => hid (hcons.connections.held_inj hoth hheld)

theorem bindings_consistent (calls : List BindingCall) :
    let bindings := run calls
    (∀ credential id, bindings.credentials.find? credential = some id ↔
      bindings.credential id = some credential) ∧
    (∀ connection id, bindings.connections.find? connection = some id ↔
      bindings.connection id = some connection) ∧
    (∀ id other credential, bindings.credential id = some credential →
      bindings.credential other = some credential → id = other) ∧
    (∀ id other connection, bindings.connection id = some connection →
      bindings.connection other = some connection → id = other) ∧
    (∀ id credential, (bindings.register id credential).2.connection = bindings.connection) ∧
    (∀ before after credential connection attachment previous,
      calls = before ++ .attach credential connection :: after →
      ((run before).attach credential connection).1 = .ok attachment →
      attachment.replacedConnection = some previous →
      (∀ credential, BindingCall.attach credential previous ∉ after) →
      bindings.disconnect previous = bindings) ∧
    ∀ call error, (bindings.call call).1 = .error error →
      error ≠ .inconsistentBinding ∧ (bindings.call call).2 = bindings := by
  have hrun : ∀ calls, (run calls).Consistent := fun calls => (empty_consistent.foldl calls).1
  refine ⟨(hrun calls).credentials, (hrun calls).connections,
    fun _ _ _ => (hrun calls).credentials.held_inj, fun _ _ _ => (hrun calls).connections.held_inj,
    ?_, ?_, fun call error => (hrun calls).call_error⟩
  · intro id credential
    rcases h : ((run calls).register id credential).1 with error | done
    · rw [(register_error h).2]
    · exact funext (connection_register h)
  · rintro before after credential connection attachment previous rfl hok hreplaced hlate
    have hatt := attach_attached (Prod.ext hok rfl)
    refine (hrun _).disconnect_unheld fun id hid => ?_
    rw [run, List.foldl_append] at hid
    rcases (((hrun before).call _).1.foldl after).2 id previous hid with hid | ⟨other, hoth⟩
    · exact hatt.replaced_unheld (hrun before) hreplaced id hid
    · exact hlate other hoth

end Bindings

end MumbleRuntime.Controller
