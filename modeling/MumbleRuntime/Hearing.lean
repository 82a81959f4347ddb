import MumbleRuntime.Allocation
import MumbleRuntime.Convergence

/-!
# The audio check against the pairs it stands for

`resolve` spells out who hears whom, pair by pair. The check of a render never
forms a pair: it counts the members of a group by the scope they stand in and
takes one off for a receiver that stands there too. That is one too many when
the receiver listens from outside the group. A listener that shares its scope
with a single member is then never asked to see it.
-/

namespace MumbleRuntime
open Library OrderedMap AudioRelation List Table ShardBuilder Build
open Option hiding mem_map

namespace AudioRelation

def domainPairs (members : OrderedSet ConnectionId) : List (ConnectionId × ConnectionId) :=
  members.rows.flatMap fun sender =>
    (members.rows.filter fun receiver => sender ≠ receiver).map fun receiver => (sender, receiver)

def listenerPairs (listener : ConnectionId) (members : OrderedSet ConnectionId) :
    List (ConnectionId × ConnectionId) :=
  (members.rows.filter fun sender => sender ≠ listener).map fun sender => (sender, listener)

/-- Every directed edge the declarations imply, as sender and receiver. -/
def resolve (relation : AudioRelation) :
    Table (toLex : ConnectionId × ConnectionId → ConnectionId ×ₗ ConnectionId) :=
  let resolved := (relation.domains.rows.flatMap fun entry => domainPairs entry.2).foldl
    Table.insert relation.edges
  (relation.listening.flatMap fun entry => listenerPairs entry.1 entry.2).foldl Table.insert resolved

variable {sender receiver : ConnectionId}

theorem mem_domainPairs {members : OrderedSet ConnectionId} :
    (sender, receiver) ∈ domainPairs members ↔
      sender ∈ members.rows ∧ receiver ∈ members.rows ∧ sender ≠ receiver := by
  simp [domainPairs]

theorem mem_listenerPairs {members : OrderedSet ConnectionId} {listener : ConnectionId} :
    (sender, receiver) ∈ listenerPairs listener members ↔
      receiver = listener ∧ sender ∈ members.rows ∧ sender ≠ receiver := by
  simp only [listenerPairs, mem_map, mem_filter, decide_eq_true_eq, Prod.mk.injEq]
  constructor
  · rintro ⟨_, ⟨hmember, hne⟩, rfl, rfl⟩
    exact ⟨rfl, hmember, hne⟩
  · rintro ⟨rfl, hmember, hne⟩
    exact ⟨sender, ⟨hmember, hne⟩, rfl, rfl⟩

theorem mem_resolve {relation : AudioRelation} :
    (sender, receiver) ∈ relation.resolve.rows ↔
      (sender, receiver) ∈ relation.edges.rows ∨
        (∃ entry ∈ relation.domains.rows, sender ∈ entry.2.rows ∧ receiver ∈ entry.2.rows ∧
          sender ≠ receiver) ∨
        ∃ entry ∈ relation.listening, receiver = entry.1 ∧ sender ∈ entry.2.rows ∧
          sender ≠ receiver := by
  rw [resolve, mem_foldl_insert_iff toLex.injective, mem_foldl_insert_iff toLex.injective,
    mem_flatMap, mem_flatMap]
  simp only [mem_domainPairs, mem_listenerPairs]
  constructor
  · rintro (hlisten | hdomain | hedge)
    · exact .inr (.inr hlisten)
    · exact .inr (.inl hdomain)
    · exact .inl hedge
  · rintro (hedge | hdomain | hlisten)
    · exact .inr (.inr hedge)
    · exact .inr (.inl hdomain)
    · exact .inl hlisten

end AudioRelation

namespace Build

variable {view : ShardView} {overlays : OrderedMap ConnectionId Overlay}
  {observations : Observations} {senders : OrderedSet ConnectionId} {receiver sender : ConnectionId}

def standing (view : ShardView) (senders : OrderedSet ConnectionId) (scope : Scope) :
    List ConnectionId :=
  senders.rows.filter fun sender => (sharedScope view).find? sender = some scope

variable {scope : Scope}

theorem mem_standing :
    sender ∈ standing view senders scope ↔
      sender ∈ senders.rows ∧ (sharedScope view).find? sender = some scope := by
  simp [standing]

theorem standing_nodup (scope : Scope) : (standing view senders scope).Nodup :=
  senders.rows_nodup.filter _

theorem perScope_find? (scope : Scope) :
    (perScope view senders).find? scope =
      if standing view senders scope = [] then none
      else some (standing view senders scope).length := by
  have hstd : ∀ sender, decide ((sharedScope view).find? sender = some scope) = true ↔
      (sharedScope view).find? sender = some scope := fun _ => decide_eq_true_iff
  have hcnt := find?_foldl_count _ hstd senders.rows empty
  rw [find?_empty, getD_none, Nat.zero_add] at hcnt
  refine Eq.trans ?_ hcnt
  unfold perScope
  congr 2
  funext counts sender
  cases (sharedScope view).find? sender <;> rfl

/-- The receiver listens from outside the group, and the sender is the only
member that stands where the receiver stands. -/
def Alone (view : ShardView) (senders : OrderedSet ConnectionId)
    (receiver sender : ConnectionId) : Prop :=
  receiver ∉ senders.rows ∧ ∃ scope, (sharedScope view).find? receiver = some scope ∧
    standing view senders scope = [sender]

theorem canSee_of_shared (hshr : (sharedScope view).find? sender = some scope)
    (hpriv : ∀ sender ∈ privatelySeen overlays receiver, (sharedScope view).find? sender = none) :
    canSee view overlays observations receiver sender = (observations.of receiver).sees scope := by
  have hnot : (privatelySeen overlays receiver).contains sender = false := by
    rw [Bool.eq_false_iff]
    intro hseen
    rw [hpriv sender (by simpa using hseen)] at hshr
    cases hshr
  rw [canSee, hnot, hshr, Bool.false_or]

theorem canSee_of_hidden (hhidden : (sharedScope view).find? sender = none) :
    canSee view overlays observations receiver sender =
      (privatelySeen overlays receiver).contains sender := by
  rw [canSee, hhidden, Bool.or_false]

theorem others_pos_iff :
    (0 < (if (sharedScope view).find? receiver = some scope then
        (standing view senders scope).length - 1 else (standing view senders scope).length)) ↔
      ∃ sender ∈ standing view senders scope, sender ≠ receiver ∧ ¬Alone view senders receiver sender := by
  have hnd : (standing view senders scope).Nodup := standing_nodup scope
  by_cases hown : (sharedScope view).find? receiver = some scope
  · rw [if_pos hown]
    constructor
    · intro hothers
      match hrows : standing view senders scope, hothers with
      | first :: second :: rest, _ =>
        rw [hrows] at hnd
        have hdistinct : first ≠ second := by
          rintro rfl
          simp at hnd
        have halone : ∀ sender, ¬Alone view senders receiver sender := by
          rintro sender ⟨-, other, hoth, honly⟩
          obtain rfl : scope = other := some.inj (hown.symm.trans hoth)
          rw [hrows] at honly
          cases honly
        by_cases hfst : first = receiver
        · exact ⟨second, by simp, fun h => hdistinct (hfst.trans h.symm), halone second⟩
        · exact ⟨first, by simp, hfst, halone first⟩
    · rintro ⟨sender, hsdr, hne, halone⟩
      by_contra hshort
      have honly : standing view senders scope = [sender] := by
        match hrows : standing view senders scope with
        | [] => rw [hrows] at hsdr; cases hsdr
        | [only] =>
          rw [hrows] at hsdr
          rw [mem_singleton.mp hsdr]
        | first :: second :: rest => rw [hrows] at hshort; simp at hshort
      refine halone ⟨fun hmember => ?_, scope, hown, honly⟩
      have hstd := mem_standing.mpr ⟨hmember, hown⟩
      rw [honly] at hstd
      exact hne (mem_singleton.mp hstd).symm
  · rw [if_neg hown, length_pos_iff_exists_mem]
    refine ⟨?_, fun ⟨sender, hsdr, _⟩ => ⟨sender, hsdr⟩⟩
    rintro ⟨sender, hsdr⟩
    have hstd := (mem_standing.mp hsdr).2
    refine ⟨sender, hsdr, ?_, ?_⟩
    · rintro rfl
      exact hown hstd
    · rintro ⟨-, other, hoth, honly⟩
      have hin : sender ∈ standing view senders other := by rw [honly]; exact mem_singleton_self _
      rw [some.inj (hstd.symm.trans (mem_standing.mp hin).2)] at hown
      exact hown hoth

theorem checkGroup_eq_none_iff (hpriv : ∀ receiver, ∀ sender ∈ privatelySeen overlays receiver,
      (sharedScope view).find? sender = none) (receivers : List ConnectionId) :
    checkGroup view overlays observations receivers senders = none ↔
      ∀ receiver ∈ receivers, ∀ sender ∈ senders.rows, sender ≠ receiver →
        canSee view overlays observations receiver sender = true ∨
          Alone view senders receiver sender := by
  rw [checkGroup, findSome?_eq_none_iff]
  refine forall₂_congr fun receiver _ => ?_
  rw [or_eq_none_iff, findSome?_eq_none_iff, findSome?_eq_none_iff]
  constructor
  · rintro ⟨hscopes, hhidden⟩ sender hsdr hne
    cases hshr : (sharedScope view).find? sender with
    | none =>
      have hseen := hhidden sender (by simp [hidden, hsdr, hshr])
      left
      rw [canSee_of_hidden hshr]
      by_contra hnot
      rw [if_pos ⟨hne, by simpa using hnot⟩] at hseen
      cases hseen
    | some scope =>
      rw [or_iff_not_imp_right]
      intro halone
      have hstd := mem_standing.mpr ⟨hsdr, hshr⟩
      have hrow : (scope, (standing view senders scope).length) ∈ (perScope view senders).rows := by
        rw [mem_rows_iff_find?, perScope_find?, if_neg (ne_nil_of_mem hstd)]
      have hothers := others_pos_iff.mpr ⟨sender, hstd, hne, halone⟩
      have hsees := hscopes _ hrow
      rw [canSee_of_shared hshr (hpriv receiver)]
      simpa [hothers] using hsees
  · intro hall
    refine ⟨?_, ?_⟩
    · rintro ⟨scope, count⟩ hrow
      rw [mem_rows_iff_find?, perScope_find?] at hrow
      split_ifs at hrow with hemp
      obtain rfl := some.inj hrow
      refine if_neg fun hasks => ?_
      rw [Bool.and_eq_true, decide_eq_true_eq, others_pos_iff] at hasks
      obtain ⟨⟨sender, hstd, hne, halone⟩, hblind⟩ := hasks
      obtain ⟨hsdr, hshr⟩ := mem_standing.mp hstd
      have hsees := (hall sender hsdr hne).resolve_right halone
      rw [canSee_of_shared hshr (hpriv receiver)] at hsees
      simp [hsees] at hblind
    · intro sender hsdr
      obtain ⟨hmember, hshr⟩ : sender ∈ senders.rows ∧ (sharedScope view).find? sender = none := by
        simpa [hidden] using hsdr
      refine if_neg fun hasks => ?_
      have hnotAlone : ¬Alone view senders receiver sender := by
        rintro ⟨-, scope, -, honly⟩
        have hstd : sender ∈ standing view senders scope := by
          rw [honly]
          exact mem_singleton_self _
        rw [(mem_standing.mp hstd).2] at hshr
        cases hshr
      have hsees := (hall sender hmember hasks.1).resolve_right hnotAlone
      rw [canSee_of_hidden hshr, hasks.2] at hsees
      cases hsees

def OneSession (view : ShardView) (overlays : OrderedMap ConnectionId Overlay) : Prop :=
  ∀ entry ∈ overlays.rows, ∀ user ∈ entry.2.users.rows, ∀ shared ∈ view.users.rows,
    user.occupant = shared.occupant → user.session = shared.session

theorem not_shared_of_privatelySeen (hxor : checkSharedXorPrivate view overlays = none)
    (hone : OneSession view overlays) (hseen : sender ∈ privatelySeen overlays receiver) :
    (sharedScope view).find? sender = none := by
  unfold privatelySeen at hseen
  cases hov : overlays.find? receiver with
  | none => simp [hov] at hseen
  | some overlay =>
    have hrow := mem_rows_iff_find?.mpr hov
    simp only [hov, mem_filterMap] at hseen
    obtain ⟨user, huser, hwho⟩ := hseen
    by_contra hshr
    obtain ⟨scope, hsc⟩ := ne_none_iff_exists'.mp hshr
    have hpair := mem_rows_iff_find?.mpr hsc
    rcases mem_or_mem_of_mem_foldl_insert hpair with hlst | hnever
    · obtain ⟨shared, hin, hmap⟩ := mem_filterMap.mp hlst
      obtain ⟨connection, hconn, heq⟩ := map_eq_some_iff.mp hmap
      cases heq
      have hsame : user.occupant = shared.occupant := by
        cases huserOf : user.occupant <;> cases hsharedOf : shared.occupant <;>
          simp_all [Occupant.connection?]
      have hses := hone _ hrow user huser shared hin hsame
      have habsent := (checkSharedXorPrivate_eq_none hxor hrow).2 user.session user
        (get?_of_mem huser)
      rw [hses, get?_of_mem hin] at habsent
      cases habsent
    · cases hnever

theorem oneSession_of_numbered {builder : ShardBuilder} (h : builder.Numbered) :
    OneSession builder.view builder.overlays := by
  rintro ⟨connection, overlay⟩ hentry user huser shared hshr hsame
  have hfind := mem_rows_iff_find?.mp hentry
  have hov : builder.overlayOf connection = overlay := by
    rw [overlayOf, hfind]
    rfl
  have hown := h.overlays connection user (by rw [hov]; exact huser)
  rw [hsame, h.view shared hshr] at hown
  exact (some.inj hown).symm

/-- The pair is only declared by listening, and each time the listener is alone
with the sender. -/
structure Overlooked (view : ShardView) (audio : AudioRelation) (sender receiver : ConnectionId) :
    Prop where
  edge : (sender, receiver) ∉ audio.edges.rows
  domain : ∀ entry ∈ audio.domains.rows, sender ∈ entry.2.rows → receiver ∉ entry.2.rows
  listen : ∀ entry ∈ audio.listening, entry.1 = receiver → sender ∈ entry.2.rows →
    Alone view entry.2 receiver sender

theorem checkReceiversSeeSenders_eq_none_iff {audio : AudioRelation}
    (hpriv : ∀ receiver, ∀ sender ∈ privatelySeen overlays receiver,
      (sharedScope view).find? sender = none) :
    checkReceiversSeeSenders view overlays audio observations = none ↔
      ∀ sender receiver, (sender, receiver) ∈ audio.resolve.rows →
        canSee view overlays observations receiver sender = true ∨
          Overlooked view audio sender receiver := by
  simp only [checkReceiversSeeSenders, or_eq_none_iff, findSome?_eq_none_iff,
    checkGroup_eq_none_iff hpriv, mem_singleton]
  constructor
  · rintro ⟨hdomains, hlistening, hedges⟩ sender receiver hpair
    rw [or_iff_not_imp_left]
    intro hblind
    have hedge : (sender, receiver) ∉ audio.edges.rows := by
      intro hedge
      have hsees := hedges _ hedge
      rw [if_neg hblind] at hsees
      cases hsees
    have hne : sender ≠ receiver := by
      rcases mem_resolve.mp hpair with h | ⟨_, _, _, _, h⟩ | ⟨_, _, _, _, h⟩
      · exact absurd h hedge
      · exact h
      · exact h
    refine ⟨hedge, ?_, ?_⟩
    · intro entry hentry hsdr hrcvr
      rcases hdomains entry hentry receiver hrcvr sender hsdr hne with hsees | halone
      · exact hblind hsees
      · exact halone.1 hrcvr
    · rintro entry hentry rfl hsdr
      exact (hlistening entry hentry entry.1 rfl sender hsdr hne).resolve_left hblind
  · intro hall
    refine ⟨?_, ?_, ?_⟩
    · intro entry hentry receiver hrcvr sender hsdr hne
      have hpair := mem_resolve.mpr (.inr (.inl ⟨entry, hentry, hsdr, hrcvr, hne⟩))
      exact (hall sender receiver hpair).imp_right fun hover =>
        absurd hrcvr (hover.domain entry hentry hsdr)
    · rintro entry hentry receiver rfl sender hsdr hne
      have hpair := mem_resolve.mpr (.inr (.inr ⟨entry, hentry, rfl, hsdr, hne⟩))
      exact (hall sender entry.1 hpair).imp_right fun hover =>
        hover.listen entry hentry rfl hsdr
    · rintro ⟨sender, receiver⟩ hedge
      refine if_pos ?_
      have hpair := mem_resolve.mpr (.inl hedge)
      exact (hall sender receiver hpair).resolve_right fun hover => hover.edge hedge

/-- The counting check stands for its pairs exactly when it does not stake all on
pairs it overlooks: every pair is seen, or an unseen one is not overlooked. -/
theorem counting_check_exact_iff {audio : AudioRelation}
    (hxor : checkSharedXorPrivate view overlays = none) (hone : OneSession view overlays) :
    (checkReceiversSeeSenders view overlays audio observations = none ↔
        ∀ sender receiver, (sender, receiver) ∈ audio.resolve.rows →
          canSee view overlays observations receiver sender = true) ↔
      (∀ sender receiver, (sender, receiver) ∈ audio.resolve.rows →
          canSee view overlays observations receiver sender = true) ∨
        ∃ sender receiver, (sender, receiver) ∈ audio.resolve.rows ∧
          canSee view overlays observations receiver sender = false ∧
          ¬Overlooked view audio sender receiver := by
  have hpriv : ∀ receiver, ∀ sender ∈ privatelySeen overlays receiver,
      (sharedScope view).find? sender = none :=
    fun receiver sender hseen => not_shared_of_privatelySeen hxor hone hseen
  rw [checkReceiversSeeSenders_eq_none_iff hpriv]
  constructor
  · intro hexact
    rw [or_iff_not_imp_left]
    intro hblind
    by_contra hcaught
    refine hblind (hexact.mp fun sender receiver hpair => ?_)
    rw [or_iff_not_imp_left]
    intro hunseen
    by_contra hover
    exact hcaught ⟨sender, receiver, hpair, by simpa using hunseen, hover⟩
  · rintro (hall | ⟨sender, receiver, hpair, hblind, hover⟩)
    · exact iff_of_true (fun sender receiver hpair => .inl (hall sender receiver hpair)) hall
    · refine iff_of_false (fun hpass => ?_) (fun hall => ?_)
      · rcases hpass sender receiver hpair with hsees | hsees
        · rw [hblind] at hsees
          cases hsees
        · exact hover hsees
      · rw [hall sender receiver hpair] at hblind
        cases hblind

end Build

section Eavesdropper

/-- Two people in the lobby, the first of whom listens to the domain of the
second from outside. -/
def eavesdropBuilder : ShardBuilder :=
  (ShardBuilder.new IdAllocator.new 1).render
    [.root "Lobby", .user ⟨rootChannel, Scope.root⟩ (.connection 1) "Ann" .same,
      .user ⟨rootChannel, Scope.root⟩ (.connection 2) "Bob" .same, .audioDomain 9 [2],
      .audioListen 1 9]

theorem eavesdropBuilder_numbered : eavesdropBuilder.Numbered :=
  render_numbered (new_numbered _ _) _ (by decide +kernel)

def blindListener : Observations := fun connection =>
  if connection = 2 then some observesRoot else some ScopeSet.none

def bothObserve : Observations := fun _ => some observesRoot

end Eavesdropper

theorem Build.counting_check_exact_iff_observed :
    Build.checkSharedXorPrivate eavesdropBuilder.view eavesdropBuilder.overlays = none ∧
      (2, 1) ∈ eavesdropBuilder.audio.resolve.rows ∧
      (Build.checkReceiversSeeSenders eavesdropBuilder.view eavesdropBuilder.overlays
          eavesdropBuilder.audio bothObserve = none ↔
        ∀ sender receiver, (sender, receiver) ∈ eavesdropBuilder.audio.resolve.rows →
          Build.canSee eavesdropBuilder.view eavesdropBuilder.overlays bothObserve receiver sender =
            true) := by
  have hxor : Build.checkSharedXorPrivate eavesdropBuilder.view eavesdropBuilder.overlays = none := by
    decide +kernel
  have hall : ∀ pair ∈ eavesdropBuilder.audio.resolve.rows,
      Build.canSee eavesdropBuilder.view eavesdropBuilder.overlays bothObserve pair.2 pair.1 =
        true := by
    decide +kernel
  exact ⟨hxor, by decide +kernel, (Build.counting_check_exact_iff hxor
    (Build.oneSession_of_numbered eavesdropBuilder_numbered)).mpr
      (.inl fun sender receiver hpair => hall (sender, receiver) hpair)⟩

/-- The render is accepted although the listener cannot see the one it hears. -/
theorem blind_listener_accepted :
    (eavesdropBuilder.finish blindListener).toOption.isSome = true ∧
      Build.checkSharedXorPrivate eavesdropBuilder.view eavesdropBuilder.overlays = none ∧
      Build.checkReceiversSeeSenders eavesdropBuilder.view eavesdropBuilder.overlays
        eavesdropBuilder.audio blindListener = none ∧
      (2, 1) ∈ eavesdropBuilder.audio.resolve.rows ∧
      Build.canSee eavesdropBuilder.view eavesdropBuilder.overlays blindListener 1 2 = false := by
  decide +kernel

end MumbleRuntime
