import MumbleRuntime.Hearing

/-!
# The compiled table against the relation it compiles

`compile` walks domains, listeners and edges one after the other and never forms
a pair. What it lists is nevertheless `resolve`, read through the sessions of the
connections and without the silent ones. Domains and listeners leave the speaker
out of its own list; an edge from a connection to itself does not.
-/

namespace MumbleRuntime
open Library OrderedMap AudioRelation OrderedSet Rendered
open List hiding find?

def AudioRouting.maySpeak (routing : AudioRouting) (sender : SessionId) : Bool :=
  routing.silence.maySpeak sender

namespace Rendered

variable {builder : ShardBuilder}

theorem sharedSessions_allocated (h : builder.Numbered) : ∀ connection session,
    (ofBuilder builder).sharedSessions.find? connection = some session →
      builder.ids.sessions (.connection connection) = some session := by
  refine foldlRecOn (motive := fun sessions : OrderedMap ConnectionId SessionId =>
    ∀ c s, sessions.find? c = some s → builder.ids.sessions (.connection c) = some s) _ _ ?_ ?_
  · intro c s hemp
    cases hemp
  · intro sessions hsessions user huser c s hset
    have hown := h.view user huser
    cases hwho : user.occupant with
    | synthetic id =>
      rw [hwho] at hset
      exact hsessions c s hset
    | connection owner =>
      rw [hwho] at hset hown
      simp only [Occupant.connection?, find?_set] at hset
      split_ifs at hset with hsame
      · rw [hsame, hown, hset]
      · exact hsessions c s hset

/-- Whatever session a render gives a connection is the one allocated to it. -/
theorem sessionOf_allocated (h : builder.Numbered) : ∀ connection session,
    (ofBuilder builder).sessionOf.find? connection = some session →
      builder.ids.sessions (.connection connection) = some session := by
  refine foldlRecOn (motive := fun heard : OrderedMap ConnectionId SessionId × Silence =>
    ∀ c s, heard.1.find? c = some s → builder.ids.sessions (.connection c) = some s) _ _
    (sharedSessions_allocated h) ?_
  intro heard hheard ⟨owner, overlay⟩ hentry c s hset
  have hnumbered := h.overlays owner
  rw [ShardBuilder.overlayOf, show builder.overlays.find? owner = some overlay from
    mem_rows_iff_find?.mp hentry] at hnumbered
  unfold hearOverlay at hset
  split_ifs at hset
  · exact hheard c s hset
  cases hown : ownUser owner overlay with
  | none =>
    rw [hown] at hset
    exact hheard c s hset
  | some user =>
    rw [hown] at hset
    simp only [find?_set] at hset
    split_ifs at hset with hsame
    · have hwho : user.occupant = .connection owner := by simpa using find?_some hown
      rw [hsame, ← hwho, hnumbered user (mem_of_find?_eq_some hown), hset]
    · exact hheard c s hset

theorem sessionOf_injective (h : builder.Numbered) : ∀ a b session,
    (ofBuilder builder).sessionOf.find? a = some session →
      (ofBuilder builder).sessionOf.find? b = some session → a = b := by
  intro a b session ha hb
  exact Occupant.connection.inj (IdAllocator.sessions_injective _ _ _ session
    (sessionOf_allocated h a session ha) (sessionOf_allocated h b session hb))

end Rendered

namespace Routing

variable {relation : AudioRelation} {sessionOf : OrderedMap ConnectionId SessionId}
  {since : OrderedMap SessionId ℕ} {silence : Silence}
  {lists : OrderedMap SessionId (List SessionId)} {s r : SessionId}

def Lists (lists : OrderedMap SessionId (List SessionId)) (s r : SessionId) : Prop :=
  r ∈ (lists.find? s).getD []

theorem lists_append {sender : SessionId} {more : List SessionId} :
    Lists (append lists sender more) s r ↔ Lists lists s r ∨ s = sender ∧ r ∈ more := by
  unfold Lists append
  rw [find?_set]
  split_ifs with hsdr
  · subst hsdr
    simp
  · simp [hsdr]

theorem lists_foldl {α : Type*} {step : OrderedMap SessionId (List SessionId) → α →
      OrderedMap SessionId (List SessionId)} {adds : α → Prop}
    (hstep : ∀ lists a, Lists (step lists a) s r ↔ Lists lists s r ∨ adds a) (rows : List α) :
    Lists (rows.foldl step lists) s r ↔ Lists lists s r ∨ ∃ a ∈ rows, adds a := by
  induction rows generalizing lists with
  | nil => simp
  | cons a rest ih =>
    rw [foldl_cons, ih, hstep, or_assoc]
    simp only [mem_cons, exists_eq_or_imp]

theorem lists_appendAll (more : SessionId → List SessionId) (senders : List SessionId) :
    Lists (senders.foldl (fun lists sender => append lists sender (more sender)) lists) s r ↔
      Lists lists s r ∨ s ∈ senders ∧ r ∈ more s := by
  have hstep : ∀ lists sender, Lists (append lists sender (more sender)) s r ↔
      Lists lists s r ∨ s = sender ∧ r ∈ more sender := fun _ _ => lists_append
  rw [lists_foldl hstep]
  refine or_congr_right ⟨?_, fun h => ⟨s, h.1, rfl, h.2⟩⟩
  rintro ⟨_, hsdr, rfl, hmore⟩
  exact ⟨hsdr, hmore⟩

theorem mem_listeningOn {domain : DomainId} :
    r ∈ listeningOn relation sessionOf silence domain ↔
      silence.mayHear r = true ∧ ∃ listener, (listener, domain) ∈ relation.listeners.rows ∧
        sessionOf.find? listener = some r := by
  simp only [listeningOn, mem_filterMap, mem_filter, decide_eq_true_eq, Option.filter_eq_some_iff]
  constructor
  · rintro ⟨⟨listener, _⟩, ⟨hlisten, rfl⟩, hses, hhears⟩
    exact ⟨hhears, listener, hlisten, hses⟩
  · rintro ⟨hhears, listener, hlisten, hses⟩
    exact ⟨(listener, domain), ⟨hlisten, rfl⟩, hses, hhears⟩

/-- Who of a domain's members and listeners hears whom, by session. -/
def InDomain (relation : AudioRelation) (sessionOf : OrderedMap ConnectionId SessionId)
    (s r : SessionId) (entry : DomainId × OrderedSet ConnectionId) : Prop :=
  (∃ sender ∈ entry.2.rows, sessionOf.find? sender = some s) ∧
    ((∃ receiver ∈ entry.2.rows, sessionOf.find? receiver = some r) ∨
      ∃ listener, (listener, entry.1) ∈ relation.listeners.rows ∧
        sessionOf.find? listener = some r)

def OnEdge (sessionOf : OrderedMap ConnectionId SessionId) (s r : SessionId)
    (edge : ConnectionId × ConnectionId) : Prop :=
  sessionOf.find? edge.1 = some s ∧ sessionOf.find? edge.2 = some r

theorem lists_compileDomain (entry : DomainId × OrderedSet ConnectionId) :
    Lists (compileDomain relation sessionOf silence lists entry) s r ↔
      Lists lists s r ∨ (silence.maySpeak s = true ∧ silence.mayHear r = true) ∧ r ≠ s ∧
        InDomain relation sessionOf s r entry := by
  dsimp only [compileDomain]
  rw [lists_appendAll]
  simp only [mem_filter, mem_filterMap, mem_append, decide_eq_true_eq, mem_listeningOn, InDomain]
  refine or_congr_right ⟨?_, ?_⟩
  · rintro ⟨⟨hsdr, hspeaks⟩, ⟨⟨hmember, hhears⟩, hne⟩ | ⟨⟨hhears, hlistens⟩, hne⟩⟩
    · exact ⟨⟨hspeaks, hhears⟩, hne, hsdr, .inl hmember⟩
    · exact ⟨⟨hspeaks, hhears⟩, hne, hsdr, .inr hlistens⟩
  · rintro ⟨⟨hspeaks, hhears⟩, hne, hsdr, hmember | hlistens⟩
    · exact ⟨⟨hsdr, hspeaks⟩, .inl ⟨⟨hmember, hhears⟩, hne⟩⟩
    · exact ⟨⟨hsdr, hspeaks⟩, .inr ⟨⟨hhears, hlistens⟩, hne⟩⟩

theorem lists_compileEdge (edge : ConnectionId × ConnectionId) :
    Lists (compileEdge sessionOf silence lists edge) s r ↔
      Lists lists s r ∨ (silence.maySpeak s = true ∧ silence.mayHear r = true) ∧
        OnEdge sessionOf s r edge := by
  unfold compileEdge OnEdge
  split
  · rename_i sender receiver hsdr hrcvr
    rw [hsdr, hrcvr, Option.some.injEq, Option.some.injEq]
    split_ifs with hallow
    · rw [Bool.and_eq_true] at hallow
      rw [lists_append, mem_singleton]
      refine or_congr_right ⟨?_, fun h => ⟨h.2.1.symm, h.2.2.symm⟩⟩
      rintro ⟨rfl, rfl⟩
      exact ⟨hallow, rfl, rfl⟩
    · refine ⟨.inl, ?_⟩
      rintro (hold | ⟨⟨hspeaks, hhears⟩, rfl, rfl⟩)
      · exact hold
      · exact absurd (by simp [hspeaks, hhears]) hallow
  · rename_i hnone
    refine ⟨.inl, ?_⟩
    rintro (hold | ⟨-, hsdr, hrcvr⟩)
    · exact hold
    · exact absurd hrcvr (hnone s r hsdr)

theorem mem_sortedSessions {sessions : List SessionId} :
    r ∈ sortedSessions sessions ↔ r ∈ sessions := by
  rw [sortedSessions, mem_rows_iff, Table.ofList, contains_foldl_insert]
  simp

/-- The lists of a compile before they are sorted and the empty ones dropped. -/
def drafted (relation : AudioRelation) (sessionOf : OrderedMap ConnectionId SessionId)
    (silence : Silence) : OrderedMap SessionId (List SessionId) :=
  relation.edges.rows.foldl (compileEdge sessionOf silence)
    (relation.domains.rows.foldl (compileDomain relation sessionOf silence) Table.empty)

theorem receiversOf_compile (s : SessionId) :
    (compile relation sessionOf since silence).receiversOf.find? s =
      (((drafted relation sessionOf silence).find? s).map sortedSessions).filter
        fun list => !list.isEmpty := by
  rw [compile, find?, Table.get?_filter, Table.get?_mapRows, find?, drafted]
  cases Table.get? _ s with
  | none => rfl
  | some row => cases hlist : sortedSessions row.2 <;> simp [hlist, Option.filter_some]

theorem receivers_compile (s : SessionId) :
    (compile relation sessionOf since silence).receivers s =
      sortedSessions (((drafted relation sessionOf silence).find? s).getD []) := by
  rw [AudioRouting.receivers, receiversOf_compile]
  cases (drafted relation sessionOf silence).find? s with
  | none => rfl
  | some list => cases hlist : sortedSessions list <;> simp [hlist, Option.filter_some]

/-- What a compile lists, for any assignment of sessions. -/
theorem mem_receivers_iff :
    r ∈ (compile relation sessionOf since silence).receivers s ↔
      (silence.maySpeak s = true ∧ silence.mayHear r = true) ∧
        ((∃ edge ∈ relation.edges.rows, OnEdge sessionOf s r edge) ∨
          r ≠ s ∧ ∃ entry ∈ relation.domains.rows, InDomain relation sessionOf s r entry) := by
  have hemp : ¬Lists Table.empty s r := fun h => by cases h
  rw [receivers_compile, mem_sortedSessions]
  change Lists (drafted relation sessionOf silence) s r ↔ _
  rw [drafted, lists_foldl fun _ edge => lists_compileEdge edge,
    lists_foldl fun _ entry => lists_compileDomain entry]
  constructor
  · rintro ((hnever | ⟨entry, hentry, hallow, hne, hin⟩) | ⟨edge, hedge, hallow, hon⟩)
    · exact absurd hnever hemp
    · exact ⟨hallow, .inr ⟨hne, entry, hentry, hin⟩⟩
    · exact ⟨hallow, .inl ⟨edge, hedge, hon⟩⟩
  · rintro ⟨hallow, ⟨edge, hedge, hon⟩ | ⟨hne, entry, hentry, hin⟩⟩
    · exact .inr ⟨edge, hedge, hallow, hon⟩
    · exact .inl (.inr ⟨entry, hentry, hallow, hne, hin⟩)

theorem mem_listening {listener : ConnectionId} {members : OrderedSet ConnectionId} :
    (listener, members) ∈ relation.listening ↔
      ∃ domain, (domain, members) ∈ relation.domains.rows ∧
        (listener, domain) ∈ relation.listeners.rows := by
  simp only [listening, mem_filterMap, Option.map_eq_some_iff, Prod.mk.injEq, mem_rows_iff_find?]
  constructor
  · rintro ⟨⟨_, domain⟩, hlisten, _, hfind, rfl, rfl⟩
    exact ⟨domain, hfind, hlisten⟩
  · rintro ⟨domain, hfind, hlisten⟩
    exact ⟨(listener, domain), hlisten, members, hfind, rfl, rfl⟩

/-- The pairs of the relation, read through the sessions. -/
theorem resolve_iff (hinjective : ∀ a b session, sessionOf.find? a = some session →
      sessionOf.find? b = some session → a = b) :
    (∃ pair ∈ relation.resolve.rows, OnEdge sessionOf s r pair) ↔
      (∃ edge ∈ relation.edges.rows, OnEdge sessionOf s r edge) ∨
        r ≠ s ∧ ∃ entry ∈ relation.domains.rows, InDomain relation sessionOf s r entry := by
  have hsessions : ∀ {a b}, sessionOf.find? a = some s → sessionOf.find? b = some r →
      (a ≠ b ↔ r ≠ s) := by
    intro a b ha hb
    refine not_congr ⟨?_, ?_⟩
    · rintro rfl
      exact Option.some.inj (hb.symm.trans ha)
    · rintro rfl
      exact hinjective a b r ha hb
  constructor
  · rintro ⟨⟨a, b⟩, hpair, ha, hb⟩
    rcases mem_resolve.mp hpair with hedge | ⟨entry, hentry, hin, hout, hne⟩ |
      ⟨⟨_, members⟩, hlistening, rfl, hin, hne⟩
    · exact .inl ⟨(a, b), hedge, ha, hb⟩
    · exact .inr ⟨(hsessions ha hb).mp hne, entry, hentry, ⟨a, hin, ha⟩, .inl ⟨b, hout, hb⟩⟩
    · obtain ⟨domain, hdomain, hlisten⟩ := mem_listening.mp hlistening
      exact .inr ⟨(hsessions ha hb).mp hne, _, hdomain, ⟨a, hin, ha⟩, .inr ⟨_, hlisten, hb⟩⟩
  · rintro (⟨edge, hedge, hon⟩ | ⟨hne, entry, hentry, ⟨a, hin, ha⟩, hhears⟩)
    · exact ⟨edge, mem_resolve.mpr (.inl hedge), hon⟩
    · rcases hhears with ⟨b, hout, hb⟩ | ⟨b, hlisten, hb⟩
      · exact ⟨(a, b), mem_resolve.mpr
          (.inr (.inl ⟨entry, hentry, hin, hout, (hsessions ha hb).mpr hne⟩)), ha, hb⟩
      · exact ⟨(a, b), mem_resolve.mpr (.inr (.inr ⟨(b, entry.2),
          mem_listening.mpr ⟨entry.1, hentry, hlisten⟩, rfl, hin,
          (hsessions ha hb).mpr hne⟩)), ha, hb⟩

/-- The compiled table is the relation's own definition, read by session. -/
theorem compile_eq_resolve (relation : AudioRelation)
    (sessionOf : OrderedMap ConnectionId SessionId) (since : OrderedMap SessionId ℕ)
    (silence : Silence)
    (hinjective : ∀ a b session, sessionOf.find? a = some session →
      sessionOf.find? b = some session → a = b) :
    let routing := compile relation sessionOf since silence
    (∀ s r, r ∈ routing.receivers s ↔
      ∃ pair ∈ relation.resolve.rows, sessionOf.find? pair.1 = some s ∧
        sessionOf.find? pair.2 = some r ∧ s ∉ silence.muted.rows ∧ r ∉ silence.deafened.rows) ∧
      (∀ s, (routing.receivers s).Pairwise (· < ·)) ∧
      (∀ s list, routing.receiversOf.find? s = some list → list ≠ []) ∧
      (∀ s, routing.since s = since.find? s) ∧
      ∀ s, routing.maySpeak s = true ↔ s ∉ silence.muted.rows := by
  have hspeaks : ∀ s, silence.maySpeak s = true ↔ s ∉ silence.muted.rows := by
    simp [Silence.maySpeak, OrderedSet.mem_rows_iff]
  have hhears : ∀ r, silence.mayHear r = true ↔ r ∉ silence.deafened.rows := by
    simp [Silence.mayHear, OrderedSet.mem_rows_iff]
  refine ⟨fun s r => ?_, fun s => ?_, fun s list hlist => ?_, fun _ => rfl, hspeaks⟩
  · rw [mem_receivers_iff, ← resolve_iff hinjective, hspeaks, hhears]
    constructor
    · rintro ⟨⟨hmuted, hdeafened⟩, pair, hpair, hs, hr⟩
      exact ⟨pair, hpair, hs, hr, hmuted, hdeafened⟩
    · rintro ⟨pair, hpair, hs, hr, hmuted, hdeafened⟩
      exact ⟨⟨hmuted, hdeafened⟩, pair, hpair, hs, hr⟩
  · rw [receivers_compile]
    exact Table.sorted _
  · rw [receiversOf_compile, Option.filter_eq_some_iff] at hlist
    rintro rfl
    cases hlist.2

theorem compile_eq_resolve_listener :
    1 ∈ (compile eavesdropBuilder.audio (Rendered.ofBuilder eavesdropBuilder).sessionOf Table.empty
      Silence.empty).receivers 2 := by
  refine ((compile_eq_resolve _ _ _ _
    (Rendered.sessionOf_injective eavesdropBuilder_numbered)).1 2 1).mpr ⟨(2, 1), ?_⟩
  decide +kernel

end Routing

namespace ShardBuilder

variable {builder : ShardBuilder}

theorem call_edges (builder : ShardBuilder) (call : BuildCall)
    (edge : ConnectionId × ConnectionId) :
    edge ∈ (builder.call call).2.audio.edges.rows ↔
      call = .audioEdge edge.1 edge.2 ∨ edge ∈ builder.audio.edges.rows := by
  have hkeep : ∀ {after : ShardBuilder} {call : BuildCall}, after.audio.edges = builder.audio.edges →
      (∀ a b, call ≠ .audioEdge a b) → (edge ∈ after.audio.edges.rows ↔
        call = .audioEdge edge.1 edge.2 ∨ edge ∈ builder.audio.edges.rows) := by
    intro after call hsame hcall
    rw [hsame]
    exact ⟨.inr, fun h => h.resolve_left (hcall _ _)⟩
  cases call with
  | audioEdge a b =>
    change edge ∈ ([(a, b)].foldl Table.insert builder.audio.edges).rows ↔ _
    rw [Table.mem_foldl_insert_iff toLex.injective, mem_singleton, BuildCall.audioEdge.injEq,
      Prod.ext_iff, @eq_comm _ a, @eq_comm _ b]
  | root name =>
    refine hkeep ?_ (fun _ _ h => by cases h)
    simp only [ShardBuilder.call, root]
    split_ifs <;> rfl
  | channel parent key name narrow =>
    exact hkeep (congrArg _ (builder.channel_rest _ _ _ _).audio) (fun _ _ h => by cases h)
  | user place who name narrow =>
    exact hkeep (congrArg _ (builder.user_rest _ _ _ _).1.audio) (fun _ _ h => by cases h)
  | channelLink a b =>
    refine hkeep ?_ (fun _ _ h => by cases h)
    simp only [ShardBuilder.call, channelLink]
    split_ifs <;> rfl
  | _ => exact hkeep rfl (fun _ _ h => by cases h)

theorem render_edges (calls : List BuildCall) (edge : ConnectionId × ConnectionId) :
    edge ∈ (builder.render calls).audio.edges.rows ↔
      .audioEdge edge.1 edge.2 ∈ calls ∨ edge ∈ builder.audio.edges.rows := by
  induction calls generalizing builder with
  | nil => simp [render]
  | cons call rest ih =>
    rw [render_cons, ih, call_edges, mem_cons, @eq_comm _ call]
    tauto

end ShardBuilder

/-- Nobody is listed as its own receiver exactly when every connection with an
edge to itself is muted or deafened. -/
theorem echoless_iff {ids : IdAllocator} {shard : ShardId} {calls : List BuildCall}
    {observations : Observations} {rendered : Rendered}
    (hok : ((ShardBuilder.new ids shard).render calls).finish observations = .ok rendered)
    (since : OrderedMap SessionId ℕ) (silence : Silence) :
    (∀ s, s ∉ (Routing.compile rendered.audio rendered.sessionOf since silence).receivers s) ↔
      ∀ connection session, .audioEdge connection connection ∈ calls →
        rendered.sessionOf.find? connection = some session →
        silence.maySpeak session = false ∨ silence.mayHear session = false := by
  obtain ⟨herr, -, -, -, -, rfl⟩ := ShardBuilder.finish_eq_ok hok
  have hnumbered := ShardBuilder.render_numbered (ShardBuilder.new_numbered ids shard) calls herr
  simp only [Routing.mem_receivers_iff]
  constructor
  · intro hsil connection session hcall hses
    have hedge := (@ShardBuilder.render_edges (.new ids shard) calls
      (connection, connection)).mpr (.inl hcall)
    by_contra hloud
    simp only [not_or, Bool.not_eq_false] at hloud
    exact hsil session ⟨hloud, .inl ⟨_, hedge, hses, hses⟩⟩
  · rintro hedges s ⟨⟨hspeaks, hhears⟩, ⟨⟨a, b⟩, hedge, ha, hb⟩ | ⟨hne, -⟩⟩
    · obtain rfl := Rendered.sessionOf_injective hnumbered a b s ha hb
      rcases (ShardBuilder.render_edges calls (a, a)).mp hedge with hcall | hnever
      · rcases hedges a s hcall ha with hmuted | hdeafened
        · rw [hmuted] at hspeaks
          cases hspeaks
        · rw [hdeafened] at hhears
          cases hhears
      · cases hnever
    · exact hne rfl

section Echo

def echoCalls : List BuildCall :=
  [.root "Lobby", .user ⟨rootChannel, Scope.root⟩ (.connection 1) "Ann" .same, .audioEdge 1 1]

def echoBuilder : ShardBuilder := (ShardBuilder.new IdAllocator.new 1).render echoCalls

def echoMuted : Silence := ⟨Table.ofList [1], Table.empty⟩

end Echo

theorem echoless_iff_muted :
    (echoBuilder.finish bothObserve).toOption.isSome = true ∧
      ∀ s, s ∉ (Routing.compile (Rendered.ofBuilder echoBuilder).audio
        (Rendered.ofBuilder echoBuilder).sessionOf Table.empty echoMuted).receivers s := by
  have hacc : (echoBuilder.finish bothObserve).toOption.isSome = true := by decide +kernel
  refine ⟨hacc, (echoless_iff (ShardBuilder.finish_of_isSome hacc) _ _).mpr ?_⟩
  intro connection session hcall hses
  have hrows : ∀ row ∈ (Rendered.ofBuilder echoBuilder).sessionOf.rows,
      echoMuted.maySpeak row.2 = false := by
    decide +kernel
  exact .inl (hrows _ (mem_rows_iff_find?.mpr hses))

/-- The render is accepted and its only speaker hears itself. -/
theorem own_voice_returned :
    (echoBuilder.finish bothObserve).toOption.isSome = true ∧
      1 ∈ (Routing.compile (Rendered.ofBuilder echoBuilder).audio
        (Rendered.ofBuilder echoBuilder).sessionOf Table.empty Silence.empty).receivers 1 := by
  decide +kernel

end MumbleRuntime
