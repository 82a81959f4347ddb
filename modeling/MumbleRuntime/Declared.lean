import MumbleRuntime.Allocation
import MumbleRuntime.Composed

/-!
# What an accepted render leaves of its channel calls

A shared channel is added under an id nothing has yet, and no later call replaces
it. The links of the view are then those of the link calls. A link call compares the
scopes of its two ends only, and may join a channel that is seen to one that is not.
-/

namespace MumbleRuntime
open Library ShardBuilder ShardView OrderedSet
open Option hiding or_assoc

namespace ShardBuilder

variable {builder : ShardBuilder} {call : BuildCall}

/-- Where accepted calls lead, whatever handles they were given. -/
def Loose (builder : ShardBuilder) : Prop := Grounded builder [] fun _ => True

variable (h : builder.Loose) (herr : (builder.call call).2.error = none)

include h herr in
theorem call_loose : (builder.call call).2.Loose := by
  have hissue : ∀ {b : ShardBuilder} {issued : List ChannelRef} (more : List ChannelRef),
      Grounded b issued (fun _ => True) → Grounded b more fun _ => True :=
    fun more hb => { hb with handle := fun _ _ => .inr trivial }
  by_cases hcall : ∃ connection build, call = .privately connection build
  · obtain ⟨connection, build, rfl⟩ := hcall
    have hkept : Grounded _ ([] ++ []) fun _ => True :=
      privately_grounded h (fun _ hid => hid) connection build fun _ _ => trivial
    exact hissue [] hkept
  · exact hissue [] (call_grounded (hissue call.placing h)
      (fun connection build heq => hcall ⟨connection, build, heq⟩) (fun _ hmem => hmem) herr)

/-- The channel a call adds to the view. -/
def placed (builder : ShardBuilder) : BuildCall → Option Channel
  | .root name => some (Channel.fresh rootKey rootChannel rootChannel Scope.root name)
  | .channel parent key name narrow =>
    some (Channel.fresh key (builder.channel parent key name narrow).1.id parent.id
      (builder.channel parent key name narrow).1.scope name)
  | _ => none

include h herr in
theorem placed_fresh {channel : Channel} (hplc : builder.placed call = some channel) :
    builder.view.channels.get? channel.id = none ∧
      (builder.call call).2.view.channels = builder.view.channels.insert channel := by
  cases call with
  | root name =>
    obtain rfl := some.inj hplc
    simp only [call, root] at herr ⊢
    split_ifs at herr ⊢ with hrtd
    · exact absurd herr (fail_error _ _)
    · rw [h.rooted, Bool.not_eq_true, isSome_eq_false_iff, isNone_iff_eq_none] at hrtd
      exact ⟨hrtd, rfl⟩
  | channel parent key name narrow =>
    obtain ⟨scope, id, ids, hnarrowed, hseen, hid, hres⟩ := channel_ok herr
    obtain ⟨hpos, hfr⟩ := grounded_fresh h hseen hid
    obtain rfl := some.inj hplc
    simp only [call, hres]
    exact ⟨hfr, trivial⟩
  | _ => cases hplc

/-- The links a call notes, each with the end it is noted at. -/
def linking : BuildCall → List (ChannelId × ChannelId)
  | .channelLink a b => [(a.id, b.id), (b.id, a.id)]
  | _ => []

theorem get?_modifyChannel (builder : ShardBuilder) (place id : ChannelId) {f : Channel → Channel}
    (hf : ∀ channel, (f channel).id = channel.id) :
    (builder.modifyChannel place f).view.channels.get? id =
      (builder.view.channels.get? id).map (if id = place then f else fun entry => entry) := by
  rw [modifyChannel, Table.get?_modify _ _ _ _ hf]
  split_ifs
  · rfl
  · exact map_id'.symm

/-- The channel `id` gains the links noted at it. -/
def Edits (before after : ShardBuilder) (links : List (ChannelId × ChannelId)) (id : ChannelId) :
    Prop :=
  ∃ edit : Channel → Channel,
    after.view.channels.get? id = (before.view.channels.get? id).map edit ∧
      ∀ entry target, (edit entry).links.contains target = true ↔
        entry.links.contains target = true ∨ (id, target) ∈ links

theorem call_edits (herr : (builder.call call).2.error = none)
    (hplc : builder.placed call = none) (id : ChannelId) :
    Edits builder (builder.call call).2 (linking call) id := by
  have hsame : ∀ {after : ShardBuilder}, after.view.channels = builder.view.channels →
      Edits builder after [] id := fun hview =>
    ⟨fun entry => entry, by rw [hview, map_id'], fun _ _ => by simp⟩
  cases call with
  | root name => cases hplc
  | channel parent key name narrow => cases hplc
  | channelPosition place position
  | channelCanEnter place yes
  | channelCanText place yes =>
    refine ⟨_, builder.get?_modifyChannel place.id id fun _ => rfl, fun entry target => ?_⟩
    split_ifs <;> simp [linking]
  | channelLink a b =>
    simp only [call, channelLink] at herr ⊢
    split_ifs at herr ⊢
    · unfold Edits
      rw [get?_modifyChannel, get?_modifyChannel, map_map]
      · refine ⟨_, rfl, fun entry target => ?_⟩
        simp only [linking, List.mem_cons, List.not_mem_nil, or_false, Prod.mk.injEq]
        split_ifs <;> simp only [Function.comp_apply, contains_insert, Bool.or_eq_true,
          decide_eq_true_eq] <;> tauto
      · exact fun _ => rfl
      · exact fun _ => rfl
    · exact absurd herr (fail_error _ _)
  | user place who name narrow => exact hsame (builder.user_rest _ _ _ _).2.1
  | _ => exact hsame rfl

def Linked (builder : ShardBuilder) (id target : ChannelId) : Prop :=
  ∃ channel, builder.view.channels.get? id = some channel ∧ channel.links.contains target = true

include h herr in
theorem call_linked (id target : ChannelId) : (builder.call call).2.Linked id target ↔
      builder.Linked id target ∨
        (id, target) ∈ (linking call).filter fun link => builder.view.channels.contains link.1 := by
  unfold Linked
  cases hplc : builder.placed call with
  | none =>
    obtain ⟨edit, hget, hedit⟩ := call_edits herr hplc id
    rw [hget]
    cases hentry : builder.view.channels.get? id with
    | none => simp [Table.contains, hentry]
    | some entry => simpa [Table.contains, hentry] using hedit entry target
  | some channel =>
    obtain ⟨hfr, hview⟩ := placed_fresh h herr hplc
    have hnone : linking call = [] ∧ channel.links = Table.empty := by
      cases call <;> cases hplc <;> exact ⟨rfl, rfl⟩
    rw [hview, Table.get?_insert, hnone.1]
    split_ifs with hid
    · simp [hid, hfr, hnone.2]
    · simp

/-- The links the calls note, as far as the end they are noted at is there. -/
def linksMade (builder : ShardBuilder) : List BuildCall → List (ChannelId × ChannelId)
  | [] => []
  | call :: rest =>
    ((linking call).filter fun link => builder.view.channels.contains link.1) ++
      (builder.call call).2.linksMade rest

theorem render_linked {calls : List BuildCall} (h : builder.Loose)
    (herr : (builder.render calls).error = none) (id target : ChannelId) :
    (builder.render calls).Linked id target ↔
      builder.Linked id target ∨ (id, target) ∈ builder.linksMade calls := by
  induction calls generalizing builder with
  | nil => simp [render, linksMade]
  | cons call rest ih =>
    rw [render_cons] at herr ⊢
    have hcall := render_error herr
    rw [ih (call_loose h hcall) herr, call_linked h hcall, or_assoc, linksMade, List.mem_append]

end ShardBuilder

def ShardView.seen (view : ShardView) (see : ScopeSet) (id : ChannelId) : Bool :=
  (view.channels.get? id).any fun channel => see.sees channel.scope

def linkCalls : List BuildCall :=
  denCalls ++ [.channelLink ⟨rootChannel, Scope.root⟩ ⟨1, denScope⟩]

def linkBuilder : ShardBuilder := (ShardBuilder.new IdAllocator.new 0).render linkCalls

end MumbleRuntime
