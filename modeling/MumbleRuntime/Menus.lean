import MumbleRuntime.Base

/-!
# The client's action menu

A client appends an entry for every action it is offered and deletes every entry
of the name it is told to remove. Its menu is the fold of all the modifications
its queue accepted, whichever shard sent them. As long as every handover finds
room for the withdrawals, the menu is what the shard it is attached to has
committed.
-/

namespace MumbleRuntime
open Library ControlMessage Option Action
open List hiding all_eq_true filter_filter filter_map map_map modify
open Nat Emit

structure MenuEntry where
  name : String
  text : Option String
  context : Option ℕ
  deriving DecidableEq

def Action.entry (action : Action) : MenuEntry where
  name := Emit.actionName action.key
  text := some action.text
  context := some action.on.bits

namespace ControlMessage

/-- `msgContextActionModify`: an addition appends an entry, a removal deletes
every entry of that name. -/
def onMenu (menu : List MenuEntry) : ControlMessage → List MenuEntry
  | .contextActionModify modify =>
    match modify.operation with
    | some .add => menu ++ [⟨modify.action, modify.text, modify.context⟩]
    | some .remove => menu.filter fun entry => entry.name ≠ modify.action
    | none => menu
  | _ => menu

def isMenu : ControlMessage → Bool
  | .contextActionModify _ => true
  | _ => false

theorem isMenu_of_isReply {message : ControlMessage} (h : message.isReply = true) :
    message.isMenu = false := by
  cases message <;> first | rfl | cases h

theorem foldl_onMenu_of_not_menu {messages : List ControlMessage} (menu : List MenuEntry)
    (h : ∀ message ∈ messages, message.isMenu = false) : messages.foldl onMenu menu = menu := by
  induction messages generalizing menu with
  | nil => rfl
  | cons message rest ih =>
    have hfst : onMenu menu message = menu := by
      have hplain := h message mem_cons_self
      cases message <;> first | rfl | cases hplain
    rw [foldl_cons, hfst]
    exact ih menu fun m hm => h m (mem_cons_of_mem _ hm)

theorem foldl_withdraw (actions : List Action) (menu : List MenuEntry) :
    (actions.map fun action => withdrawAction action.key).foldl onMenu menu =
      menu.filter fun entry => ∀ action ∈ actions, entry.name ≠ actionName action.key := by
  induction actions generalizing menu with
  | nil => simp
  | cons action rest ih =>
    rw [map_cons, foldl_cons, ih]
    simp only [onMenu, withdrawAction, List.filter_filter, forall_mem_cons]
    refine filter_congr fun entry _ => ?_
    simp only [Bool.decide_and, Bool.and_comm]

theorem foldl_offer (actions : List Action) (menu : List MenuEntry) :
    (actions.map offerAction).foldl onMenu menu = menu ++ actions.map entry := by
  induction actions generalizing menu with
  | nil => simp
  | cons action rest ih =>
    rw [map_cons, foldl_cons, ih, map_cons]
    simp only [onMenu, offerAction, entry, append_assoc, cons_append, nil_append]

end ControlMessage

variable {digits : List Char}

namespace Emit

theorem actionName_inj {first second : ActionKey} (h : actionName first = actionName second) :
    first = second := by
  have hdigits : toDigits 10 first = toDigits 10 second := String.ofList_injective h
  calc
    first = ofDigitChars 10 (toDigits 10 first) 0 := ofDigitChars_ten_toDigits.symm
    _ = ofDigitChars 10 (toDigits 10 second) 0 := by rw [hdigits]
    _ = second := ofDigitChars_ten_toDigits

theorem digitChar_of_isDigit {c : Char} (h : c.isDigit = true) :
    c.toNat - '0'.toNat < 10 ∧ (c.toNat - '0'.toNat).digitChar = c := by
  have hzero : '0'.toNat = 48 := rfl
  have hbounds : 48 ≤ c.toNat ∧ c.toNat ≤ 57 := by
    rw [Char.isDigit, Bool.and_eq_true, decide_eq_true_eq, decide_eq_true_eq] at h
    exact h
  have hchar : ∀ n < 10, (digitChar n).toNat = n + 48 := by decide
  refine ⟨by omega, Char.toNat_inj.mp ?_⟩
  rw [hchar _ (by omega)]
  omega

theorem parseDigits_from (digits : List Char) (init : ℕ) :
    digits.foldlM (fun n c => (digitValue c).map (10 * n + ·)) init =
      if digits.all Char.isDigit then some (ofDigitChars 10 digits init) else none := by
  induction digits generalizing init with
  | nil => simp [ofDigitChars_nil]
  | cons c digits ih =>
    rw [foldlM_cons, digitValue, ofDigitChars_cons]
    by_cases hc : c.isDigit = true
    · rw [if_pos hc, map_some, bind_eq_bind, bind_some, ih]
      simp only [all_cons, hc, Bool.true_and]
    · simp [hc]

/-- Digits read after a value that is not zero are the digits written after it. -/
theorem toDigits_ofDigitChars (hdigits : ∀ c ∈ digits, c.isDigit = true) {n : ℕ} (hn : 0 < n) :
    toDigits 10 (ofDigitChars 10 digits n) = toDigits 10 n ++ digits := by
  induction digits generalizing n with
  | nil => rw [ofDigitChars_nil, append_nil]
  | cons c digits ih =>
    rw [forall_mem_cons] at hdigits
    obtain ⟨hlt, hchar⟩ := digitChar_of_isDigit hdigits.1
    rw [ofDigitChars_cons, ih hdigits.2 (by omega),
      ← toDigits_append_toDigits (by decide) hn hlt, toDigits_of_lt_base hlt, hchar,
      append_assoc]
    rfl

theorem ofDigitChars_lt (hdigits : ∀ c ∈ digits, c.isDigit = true) :
    ofDigitChars 10 digits 0 < 10 ^ digits.length := by
  -- With a nine in front the digits still make a number of one digit more.
  have hlen : (toDigits 10 (ofDigitChars 10 digits 9)).length = digits.length + 1 := by
    rw [toDigits_ofDigitChars hdigits (by decide), toDigits_of_lt_base (by decide)]
    rfl
  have hlt := (length_toDigits_le_iff (by decide) (succ_pos _)).mp hlen.le
  rw [ofDigitChars_eq_ofDigitChars_zero, pow_succ] at hlt
  omega

/-- A sign or a zero that this server does not write, before digits it could have written. -/
def Padded (name : String) : Prop :=
  ∃ digits : List Char, digits ≠ [] ∧ (∀ c ∈ digits, c.isDigit = true) ∧
    Nat.ofDigitChars 10 digits 0 < 2 ^ 64 ∧
    (name.toList = '+' :: digits ∨ name.toList = '0' :: digits)

theorem read_eq_some_iff {key : ℕ} (hkey : key < 2 ^ 64) :
    (if digits = [] then none else (parseDigits digits).filter (· < 2 ^ 64)) = some key ↔
      digits ≠ [] ∧ (∀ c ∈ digits, c.isDigit = true) ∧ ofDigitChars 10 digits 0 = key := by
  by_cases hnil : digits = []
  · simp [hnil]
  · rw [if_neg hnil, parseDigits, parseDigits_from]
    simp only [List.all_eq_true]
    split_ifs with hdigits
    · simp only [filter_eq_some_iff, some.injEq, decide_eq_true_eq]
      exact ⟨fun h => ⟨hnil, hdigits, h.1⟩, fun h => ⟨h.2.2, h.2.2.symm ▸ hkey⟩⟩
    · simp [hdigits]

theorem plus_not_digit : ¬ '+'.isDigit = true := by decide

theorem actionKey_eq_some_iff {name : String} {key : ActionKey} (hkey : key < 2 ^ 64) :
    actionKey name = some key ↔ ∃ digits, (name.toList = '+' :: digits ∨ name.toList = digits) ∧
      digits ≠ [] ∧ (∀ c ∈ digits, c.isDigit = true) ∧ ofDigitChars 10 digits 0 = key := by
  unfold actionKey parseU64
  dsimp only
  split
  · rename_i rest hchars
    rw [read_eq_some_iff hkey, hchars]
    refine ⟨fun h => ⟨rest, .inl rfl, h⟩, ?_⟩
    rintro ⟨digits, heq | rfl, hnil, hdigits, hvalue⟩
    · exact (cons.inj heq).2 ▸ ⟨hnil, hdigits, hvalue⟩
    · exact absurd (hdigits '+' mem_cons_self) plus_not_digit
  · rename_i hplus
    rw [read_eq_some_iff hkey]
    refine ⟨fun h => ⟨_, .inr rfl, h⟩, ?_⟩
    rintro ⟨digits, heq | rfl, h⟩
    · exact absurd heq (hplus digits)
    · exact h

theorem eq_actionName_iff {name : String} {key : ActionKey} :
    name = actionName key ↔ name.toList = toDigits 10 key := by
  rw [actionName, toString_eq_ofList_toDigits, ← String.toList_inj, String.toList_ofList]

theorem action_names_exact_iff (name : String) :
    (∀ key < 2 ^ 64, actionKey name = some key ↔ name = actionName key) ↔ ¬Padded name := by
  have hwritten : ∀ key, ∀ c ∈ Nat.toDigits 10 key, c.isDigit = true :=
    fun _ _ => Nat.isDigit_of_mem_toDigits (by decide) (by decide)
  constructor
  · rintro hexact ⟨digits, hnil, hdigits, hlt, hplus | hzero⟩
    · have hname := eq_actionName_iff.mp ((hexact _ hlt).mp
        ((actionKey_eq_some_iff hlt).mpr ⟨digits, .inl hplus, hnil, hdigits, rfl⟩))
      rw [hplus] at hname
      exact plus_not_digit (hwritten _ _ (hname ▸ List.mem_cons_self))
    · have hall : ∀ c ∈ '0' :: digits, c.isDigit = true :=
        List.forall_mem_cons.mpr ⟨by decide, hdigits⟩
      have hname := eq_actionName_iff.mp ((hexact _ hlt).mp ((actionKey_eq_some_iff hlt).mpr
        ⟨_, .inr hzero, List.cons_ne_nil _ _, hall, Nat.ofDigitChars_cons⟩))
      have hle := (Nat.length_toDigits_le_iff (by decide) (List.length_pos_iff.mpr hnil)).mpr
        (ofDigitChars_lt hdigits)
      rw [← hname, hzero, List.length_cons] at hle
      omega
  · intro hplain key hkey
    rw [actionKey_eq_some_iff hkey, eq_actionName_iff]
    constructor
    · rintro ⟨digits, hplus | hchars, hnil, hdigits, hvalue⟩
      · exact absurd ⟨digits, hnil, hdigits, hvalue.symm ▸ hkey, .inl hplus⟩ hplain
      · obtain ⟨c, rest, rfl⟩ := List.exists_cons_of_ne_nil hnil
        rw [List.forall_mem_cons] at hdigits
        obtain ⟨hlt, hchar⟩ := digitChar_of_isDigit hdigits.1
        rw [Nat.ofDigitChars_cons, Nat.mul_zero, Nat.zero_add] at hvalue
        rcases Nat.eq_zero_or_pos (c.toNat - '0'.toNat) with hzero | hpos
        · -- A zero that is not padding stands alone.
          rw [hzero] at hchar hvalue
          have hrest : rest = [] := by
            by_contra hmore
            have hpad : name.toList = '0' :: rest := hchars.trans (congrArg (· :: rest) hchar.symm)
            exact hplain ⟨rest, hmore, hdigits.2, hvalue.symm ▸ hkey, .inr hpad⟩
          subst hrest
          rw [hchars, ← hvalue, ← hchar]
          rfl
        · rw [hchars, ← hvalue, toDigits_ofDigitChars hdigits.2 hpos, Nat.toDigits_of_lt_base hlt,
            hchar]
          rfl
    · intro hname
      exact ⟨_, .inr hname, Nat.toDigits_ne_nil, hwritten key, Nat.ofDigitChars_ten_toDigits⟩

/-- A plus sign is read over, so a name nobody wrote is taken for the seventh action. -/
theorem signed_name_accepted : actionKey "+7" = some 7 ∧ "+7" ≠ actionName 7 := by
  decide +kernel

theorem emit_isMenu (ops : List PlanOp) (self : SessionId) :
    ∀ message ∈ emit ops self, message.isMenu = false := by
  intro message hmsg
  obtain ⟨op, -, rfl⟩ := mem_map.mp hmsg
  cases op <;> rfl

end Emit

def Shows (menu : List MenuEntry) (actions : Actions) : Prop :=
  menu.Perm (actions.rows.map Action.entry)

theorem Shows.names_nodup {menu : List MenuEntry} {actions : Actions} (h : Shows menu actions) :
    (menu.map MenuEntry.name).Nodup := by
  have hnames : (menu.map MenuEntry.name).Perm ((actions.rows.map key).map actionName) := by
    simpa [List.map_map, Function.comp_def, entry] using h.map MenuEntry.name
  exact hnames.nodup_iff.mpr (actions.keys_nodup.map fun _ _ => actionName_inj)

theorem Shows.withdrawn {menu : List MenuEntry} {sent : Actions} (h : Shows menu sent)
    (fresh : Actions) :
    ((sent.rows.filter fun action => fresh.get? action.key ≠ some action).map
        fun action => withdrawAction action.key).foldl onMenu menu |>.Perm
      ((sent.rows.filter fun action => fresh.get? action.key = some action).map entry) := by
  rw [foldl_withdraw]
  refine (h.filter _).trans (List.Perm.of_eq ?_)
  rw [List.filter_map]
  congr 1
  refine filter_congr fun action haction => ?_
  refine decide_eq_decide.mpr ⟨fun hkept => ?_, fun hkept other hoth hname => ?_⟩
  · by_contra hgone
    exact hkept action (mem_filter.mpr ⟨haction, by simpa using hgone⟩) rfl
  · obtain ⟨hoth, hgone⟩ := mem_filter.mp hoth
    have hkey := actionName_inj hname
    have hget := Table.get?_of_mem haction
    rw [hkey, Table.get?_of_mem hoth] at hget
    obtain rfl := some.inj hget
    exact of_decide_eq_true hgone hkept

theorem Shows.actions {menu : List MenuEntry} {sent : Actions} (h : Shows menu sent)
    (fresh : Actions) :
    Shows ((actions sent fresh).foldl onMenu menu) fresh := by
  unfold Shows Emit.actions
  rw [foldl_append, foldl_offer]
  refine ((h.withdrawn fresh).append_right _).trans ?_
  rw [← map_append]
  exact (Table.shared_append_new_perm sent fresh).map entry

namespace OutboundQueue

def menu (queue : OutboundQueue) : List MenuEntry :=
  queue.accepted.foldl ControlMessage.onMenu []

variable {queue queue' : OutboundQueue}

theorem menu_append {messages : List ControlMessage}
    (h : queue'.accepted = queue.accepted ++ messages) :
    queue'.menu = messages.foldl onMenu queue.menu := by
  rw [menu, h, foldl_append]
  rfl

theorem Adds.menu (h : Adds (fun message => message.isMenu = false) queue queue') :
    queue'.menu = queue.menu := by
  obtain ⟨more, hacc, hplain⟩ := h
  rw [menu_append hacc, foldl_onMenu_of_not_menu _ hplain]

theorem Touched.menu (h : queue.Touched queue') : queue'.menu = queue.menu := by
  have hadds : Adds (fun message => message.isMenu = false) queue queue' := h.adds rfl
  exact hadds.menu

end OutboundQueue

namespace AttachedConnection

variable {attached : AttachedConnection}

theorem sendAll_menu {batches : List (List ControlMessage)}
    (h : ∀ batch ∈ batches, ∀ message ∈ batch, message.isReply = true) :
    (attached.sendAll batches).queue.menu = attached.queue.menu :=
  ((sendAll_adds h attached).mono fun _ => isMenu_of_isReply).menu

def MenuKept (attached : AttachedConnection) : Prop :=
  Shows attached.queue.menu attached.actionsSent

section

variable (h : attached.MenuKept)

include h

theorem MenuKept.transmitted {queue : OutboundQueue} {ops : List PlanOp} {actions : Actions}
    (hacc : queue.accepted = attached.queue.accepted ++ attached.batch ops actions) :
    Shows queue.menu actions := by
  rw [OutboundQueue.menu_append hacc, batch, foldl_append,
    foldl_onMenu_of_not_menu _ (emit_isMenu ops attached.session)]
  exact Shows.actions h actions

theorem MenuKept.requeued {queue : OutboundQueue}
    (hmenu : queue.menu = attached.queue.menu) : MenuKept { attached with queue } := by
  unfold MenuKept
  rw [hmenu]
  exact h

theorem MenuKept.turned (shard : Shard) (logic : ShardLogic)
    (rendered : Rendered) : (shard.turned logic rendered attached).MenuKept := by
  rcases shard.turned_cases logic rendered attached with
    ⟨ops, -, -, -, queue, hacc, htrn⟩ | ⟨-, -, queue, hacc, htrn⟩
  · rw [htrn]
    exact h.transmitted hacc
  · rw [htrn]
    exact h.requeued (OutboundQueue.Adds.menu (.of_eq hacc))

theorem MenuKept.retried (journal : Journal) :
    (attached.push journal journal.head attached.overlaySent
      attached.actionsSent).attached.MenuKept := by
  rcases attached.push_cases journal with
    ⟨replayed, -, -, queue, hacc, hpush⟩ | ⟨queue, outcome, hacc, hpush⟩
  · rw [hpush]
    exact h.transmitted hacc
  · rw [hpush]
    exact h.requeued (OutboundQueue.Adds.menu (.of_eq hacc))

theorem MenuKept.withdrawn (hadm : attached.queue.admits attached.actionsSent.rows.length = true) :
    (attached.send (actions attached.actionsSent Table.empty)).queue.menu = [] := by
  have hlen : (actions attached.actionsSent Table.empty).length =
      attached.actionsSent.rows.length := by
    simp [actions, show (Table.empty : Actions).rows = [] from rfl]
  rcases attached.queue.trySendAll_cases (actions attached.actionsSent Table.empty) with
    ⟨-, -, hacc⟩ | ⟨-, hrefused, -⟩
  · have hshows : Shows _ Table.empty := Shows.actions h Table.empty
    rw [← OutboundQueue.menu_append hacc] at hshows
    exact hshows.eq_nil
  · rw [hlen, hadm] at hrefused
    cases hrefused

end

end AttachedConnection

/-- A shard hands a connection over only when its queue takes the withdrawal of
every action it was offered. -/
def Runtime.WithdrawsOnLeaving (runtime : Runtime) (event : Event) : Prop :=
  match event with
  | .depart id _ connection _ =>
    ((runtime.shards.get? id).bind fun shard => shard.connections.get? connection).all
      (fun attached => attached.queue.admits attached.actionsSent.rows.length) = true
  | _ => True

instance (runtime : Runtime) (event : Event) : Decidable (runtime.WithdrawsOnLeaving event) := by
  unfold Runtime.WithdrawsOnLeaving
  split <;> infer_instance

def menuLocally : Locally Runtime.WithdrawsOnLeaving where
  shard _ := True
  attached _ _ a := a.MenuKept
  flying _ flight := flight.queue.menu = []
  gone _ := True
  new _ := trivial
  becomes _ _ := trivial
  stays {runtime event runtime' s s' a a'} _ _ _ _ _ hkept hfate := by
    cases hfate with
    | rest _ => exact hkept
    | touched _ htouched => exact hkept.requeued htouched.menu
    | offered _ _ =>
      rw [AttachedConnection.sendAll_eq]
      exact hkept.requeued
        (AttachedConnection.sendAll_menu (runtime.offered_isReply event s a))
    | retried _ _ _ => exact hkept.retried s.journal
    | turned _ _ _ _ => exact hkept.turned s _ _
  lands {runtime event runtime' s s' flight session a} _ _ _ _ hempty _ hlands := by
    have hlanded : (flight.landed session s.version).MenuKept := by
      unfold AttachedConnection.MenuKept
      rw [show (flight.landed session s.version).queue = flight.queue from rfl, hempty]
      exact List.Perm.nil
    rw [hlands.row, AttachedConnection.sendAll_eq]
    exact hlanded.requeued
      (AttachedConnection.sendAll_menu (runtime.offered_isReply event s _))
  touched {ids ids' flight queue} _ hempty hqueue := by
    rcases hqueue with rfl | htouched
    · exact hempty
    · exact htouched.menu.trans hempty
  connected := rfl
  departed {runtime logic runtime' s a destination} hallowed _ hs ha _ hkept := by
    refine hkept.withdrawn ?_
    simpa only [Runtime.WithdrawsOnLeaving, hs, ha, Option.bind_some, Option.all_some] using hallowed
  refused _ := trivial
  left _ _ := trivial

/-- In every run whose handovers find room for the withdrawals, the menu of an
attached connection's client has one entry for each action committed for it. -/
theorem menu_is_committed {runtime : Runtime}
    (hreach : Reaches Runtime.step Runtime.WithdrawsOnLeaving Runtime.start runtime)
    {id : ShardId} {shard : Shard} {connection : ConnectionId} {attached : AttachedConnection}
    (hshard : runtime.shards.get? id = some shard)
    (hattached : shard.connections.get? connection = some attached) :
    (attached.queue.menu.map MenuEntry.name).Nodup ∧
      attached.queue.menu.Perm (attached.actionsSent.rows.map Action.entry) :=
  have hkept : attached.MenuKept := (menuLocally.holds hreach).attached hshard hattached
  ⟨hkept.names_nodup, hkept⟩

section Buttons

def buttonLogic : ShardLogic := lobbyLogic [.privately 1 [.action 4 "Ready" On.server]]

/-- The first connection is offered the button, and its flavor then says `count`
words to it before it is moved to the other shard, which offers it again. -/
def buttonEvents (count : ℕ) : List Event :=
  [.create, .create, .connect 1, .arrive 1 {}, .turn 1 buttonLogic,
    .command 1 (chatterLogic count) (.requestedSelfState 1 none none),
    .depart 1 {} 1 2, .read 1 queueCapacity, .arrive 1 {}, .turn 2 buttonLogic]

def buttonRuntime (count : ℕ) : Runtime :=
  (runActions Runtime.step Runtime.start (buttonEvents count)).getD Runtime.start

def buttonShard (count : ℕ) : Shard := ((buttonRuntime count).shards.get? 2).getD (Shard.new 2)

def buttonHolder (count : ℕ) : AttachedConnection :=
  ((buttonShard count).connections.get? 1).getD
    (Flight.landed ⟨1, 1, 1, .new, 0, .empty, true⟩ 1 0)

end Buttons

theorem menu_is_committed_moved :
    (buttonHolder 1).actionsSent.rows.length = 1 ∧
      ((buttonHolder 1).queue.menu.map MenuEntry.name).Nodup ∧
      (buttonHolder 1).queue.menu.Perm ((buttonHolder 1).actionsSent.rows.map Action.entry) := by
  have hreach : Reaches Runtime.step Runtime.WithdrawsOnLeaving Runtime.start (buttonRuntime 1) :=
    reaches_getD (by decide +kernel)
  exact ⟨by decide +kernel, menu_is_committed hreach
    (eq_some_getD (by decide +kernel) : _ = some (buttonShard 1))
    (eq_some_getD (by decide +kernel) : _ = some (buttonHolder 1))⟩

/-- The queue is full when the connection is handed over: the withdrawal is
lost, and the client ends with two buttons of one name. -/
theorem button_survives_full_handover :
    Reaches Runtime.step (fun _ _ => True) Runtime.start (buttonRuntime 1022) ∧
      (buttonRuntime 1022).shards.get? 2 = some (buttonShard 1022) ∧
      (buttonShard 1022).connections.get? 1 = some (buttonHolder 1022) ∧
      ¬((buttonHolder 1022).queue.menu.map MenuEntry.name).Nodup ∧
      ¬(buttonHolder 1022).queue.menu.Perm
        ((buttonHolder 1022).actionsSent.rows.map Action.entry) :=
  ⟨reaches_of_run (eq_some_getD (by decide +kernel)) (allAllowed_true _ _),
    eq_some_getD (by decide +kernel), eq_some_getD (by decide +kernel), by decide +kernel⟩

end MumbleRuntime
