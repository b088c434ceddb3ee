import OpsUp.Interaction.Transition
import Mathlib.Data.List.Nodup
import Std.Data.String.ToInt

/-!
# The tabs of the workspace

`MainPage` holds the open tabs and the key of the active one, `TerminalTabs` shows them.
Both write the active key when a tab is closed: the updater of `closeTerminal`, which React
may run at once or with the next render, and `focusTab`.
-/

namespace OpsUp.Ui

open OpsUp.Interaction

/-- `server` is the id of the server. -/
structure TabInfo where
  key : String
  server : Int
  deriving DecidableEq, Repr

structure Workspace where
  tabs : List TabInfo
  activeKey : String
  deriving DecidableEq, Repr

namespace Workspace

/-! ## Opening and closing -/

/-- The template text of a key; `now` is `Date.now()`. -/
def tabKey (server now : Int) : String := toString server ++ ("-" ++ toString now)

def openTerminal (server now : Int) (s : Workspace) : Workspace :=
  let key := tabKey server now
  match s.tabs.find? fun tab => tab.server = server with
  | some existing => { s with activeKey := existing.key }
  | none => { tabs := s.tabs ++ [⟨key, server⟩], activeKey := key }

/-- The updater of `closeTerminal` with the active key that it has captured: the tabs that are
left, and the argument of `setActiveKey` when that is called. -/
def closeTerminal (captured targetKey : String) (previous : List TabInfo) :
    List TabInfo × Option String :=
  let next := previous.filter fun tab => tab.key ≠ targetKey
  match next.getLast? with
  | some last => (next, if captured = targetKey then some last.key else none)
  | none => (next, some "")

/-- `tabs.findIndex` -/
def findIndex (key : String) (tabs : List TabInfo) : Int :=
  match tabs.findIdx? fun tab => tab.key = key with
  | some index => index
  | none => -1

/-- `tabs[index]` -/
def tabAt (tabs : List TabInfo) (index : Int) : Option TabInfo :=
  if index < 0 then none else tabs[index.toNat]?

/-- `next` of `closeTab` -/
def neighbour (key : String) (tabs : List TabInfo) : Option TabInfo :=
  let index := findIndex key tabs
  (tabAt tabs (index + 1)).or (tabAt tabs (index - 1))

/-- Calls of `setActiveKey`, as they are applied; a call that is not made is `none`. -/
def applied (activeKey : String) : List (Option String) → String
  | [] => activeKey
  | none :: rest => applied activeKey rest
  | some key :: rest => applied key rest

/-- `closeTab`; with `late` the updater runs after `focusTab`. -/
def closeTab (key captured : String) (late : Bool) (s : Workspace) : Workspace :=
  let next := neighbour key s.tabs
  let (tabs, updated) := closeTerminal captured key s.tabs
  let focused := next.map TabInfo.key
  let calls := if late then [focused, updated] else [updated, focused]
  { tabs := tabs, activeKey := applied s.activeKey calls }

/-! ## Events -/

/-- `event.key` -/
inductive TabEventKey where
  | arrowRight
  | arrowLeft
  | home
  | endKey
  | delete
  | other
  deriving DecidableEq

/-- The index that a key of the tab with this index moves to. -/
def target (index length : Nat) : TabEventKey → Option Nat
  | .arrowRight => some ((index + 1) % length)
  | .arrowLeft => some ((index + length - 1) % length)
  | .home => some 0
  | .endKey => some (length - 1)
  | .delete => none
  | .other => none

/-- What the user does; tabs are named by their index, as they are rendered.  A close may find
any captured key. -/
inductive TabEvent where
  | openServer (server now : Int)
  | click (index : Nat)
  | keyDown (index : Nat) (key : TabEventKey) (captured : String) (late : Bool)
  | close (index : Nat) (captured : String) (late : Bool)

def initial : Workspace := ⟨[], ""⟩

/-- `onSelect` -/
def select (key : String) (s : Workspace) : Workspace := { s with activeKey := key }

def step (s : Workspace) : TabEvent → Option Workspace
  | .openServer server now => some (s.openTerminal server now)
  | .click index => s.tabs[index]?.map fun tab => s.select tab.key
  | .keyDown index key captured late =>
      match s.tabs[index]? with
      | none => none
      | some tab =>
          if key = .delete then some (s.closeTab tab.key captured late)
          else
            match target index s.tabs.length key with
            | none => some s
            | some next => s.tabs[next]?.map fun tab => s.select tab.key
  | .close index captured late => s.tabs[index]?.map fun tab => s.closeTab tab.key captured late

/-! ## Keys -/

theorem hyphen_notMem_toDigits (m : Nat) : '-' ∉ Nat.toDigits 10 m := by
  intro hmem
  have hdigit := Nat.isDigit_of_mem_toDigits (by omega) (by omega) hmem
  simp at hdigit

/-- After its first character a decimal number has no hyphen. -/
theorem toList_toString_int (n : Int) :
    ∃ first digits, (toString n).toList = first :: digits ∧ '-' ∉ digits := by
  cases n with
  | ofNat m =>
      have hlist : (toString (Int.ofNat m)).toList = Nat.toDigits 10 m := Nat.toList_repr
      have hdigits : Nat.toDigits 10 m ≠ [] := Nat.toDigits_ne_nil
      obtain ⟨first, digits, hcons⟩ := List.exists_cons_of_ne_nil hdigits
      refine ⟨first, digits, hlist.trans hcons, fun hmem => hyphen_notMem_toDigits m ?_⟩
      rw [hcons]
      exact List.mem_cons_of_mem _ hmem
  | negSucc m =>
      refine ⟨'-', Nat.toDigits 10 (m + 1), ?_, hyphen_notMem_toDigits (m + 1)⟩
      change ("-" ++ Nat.repr (m + 1)).toList = _
      rw [String.toList_append, Nat.toList_repr]
      rfl

/-- Two texts without a hyphen that are followed by one are found again. -/
theorem eq_of_append_hyphen {front back : List Char} {rest tail : List Char}
    (hfront : '-' ∉ front) (hback : '-' ∉ back) (same : front ++ '-' :: rest = back ++ '-' :: tail) :
    front = back := by
  induction front generalizing back with
  | nil =>
      cases back with
      | nil => rfl
      | cons c back =>
          obtain ⟨rfl, -⟩ := List.cons.inj same
          exact absurd List.mem_cons_self hback
  | cons c front ih =>
      cases back with
      | nil =>
          obtain ⟨rfl, -⟩ := List.cons.inj same
          exact absurd List.mem_cons_self hfront
      | cons d back =>
          obtain ⟨rfl, hsame⟩ := List.cons.inj same
          rw [ih (fun hmem => hfront (List.mem_cons_of_mem _ hmem))
            (fun hmem => hback (List.mem_cons_of_mem _ hmem)) hsame]

/-- A key belongs to one server, whenever it was made. -/
theorem server_of_tabKey {server other now later : Int}
    (same : tabKey server now = tabKey other later) : server = other := by
  obtain ⟨first, digits, hserver, hdigits⟩ := toList_toString_int server
  obtain ⟨second, figures, hother, hfigures⟩ := toList_toString_int other
  have hlists := congrArg String.toList same
  simp only [tabKey, String.toList_append, hserver, hother, List.cons_append] at hlists
  obtain ⟨hfirst, hrest⟩ := List.cons.inj hlists
  have hsame : digits = figures := eq_of_append_hyphen hdigits hfigures hrest
  apply Int.repr_injective
  change toString server = toString other
  rw [← String.toList_inj, hserver, hother, hfirst, hsame]

theorem tabKey_ne_empty (server now : Int) : tabKey server now ≠ "" := by
  obtain ⟨first, digits, hserver, -⟩ := toList_toString_int server
  intro hempty
  have hlist := congrArg String.toList hempty
  rw [tabKey, String.toList_append, hserver] at hlist
  cases hlist

/-! ## Closing a tab -/

section Closing

variable {front back : List TabInfo} {tab : TabInfo} {captured activeKey : String} {late : Bool}

/-- The place of a tab in the list. -/
theorem findIndex_append (before : ∀ other ∈ front, other.key ≠ tab.key) :
    findIndex tab.key (front ++ tab :: back) = front.length := by
  have hnone : front.findIdx? (fun other => decide (other.key = tab.key)) = none := by
    rw [List.findIdx?_eq_none_iff]
    intro other hother
    exact decide_eq_false (before other hother)
  have hhead : (tab :: back).findIdx? (fun other => decide (other.key = tab.key)) = some 0 := by
    rw [List.findIdx?_cons, if_pos (decide_eq_true rfl)]
  rw [findIndex, List.findIdx?_append, hnone, hhead]
  simp

/-- The next tab, or else the one before. -/
theorem neighbour_append (before : ∀ other ∈ front, other.key ≠ tab.key) :
    neighbour tab.key (front ++ tab :: back) = back.head?.or front.getLast? := by
  have hafter : tabAt (front ++ tab :: back) (front.length + 1) = back.head? := by
    rw [tabAt, if_neg (by omega)]
    have hplace : ((front.length : Int) + 1).toNat = front.length + 1 := by omega
    rw [hplace, List.getElem?_append_right (by omega), Nat.add_sub_cancel_left,
      List.getElem?_cons_succ, List.head?_eq_getElem?]
  have hbefore : tabAt (front ++ tab :: back) (front.length - 1) = front.getLast? := by
    cases front using List.reverseRecOn with
    | nil => rfl
    | append_singleton earlier last =>
        have hplace : ((earlier ++ [last]).length : Int) - 1 = earlier.length := by
          rw [List.length_append, List.length_singleton]
          omega
        rw [hplace, tabAt, if_neg (by omega), Int.toNat_natCast, List.getLast?_concat]
        simp
  rw [neighbour, findIndex_append before, hafter, hbefore]

/-- Only that tab is taken out. -/
theorem filter_append (before : ∀ other ∈ front, other.key ≠ tab.key)
    (after : ∀ other ∈ back, other.key ≠ tab.key) :
    (front ++ tab :: back).filter (fun other => other.key ≠ tab.key) = front ++ back := by
  rw [List.filter_append, List.filter_cons_of_neg (by simp)]
  congr 1
  · rw [List.filter_eq_self]
    exact fun other hother => decide_eq_true (before other hother)
  · rw [List.filter_eq_self]
    exact fun other hother => decide_eq_true (after other hother)

/-- The other tabs have other keys. -/
theorem others_of_distinct (distinct : ((front ++ tab :: back).map TabInfo.key).Nodup) :
    (∀ other ∈ front, other.key ≠ tab.key) ∧ ∀ other ∈ back, other.key ≠ tab.key := by
  rw [List.map_append, List.map_cons, List.nodup_append, List.nodup_cons] at distinct
  obtain ⟨-, ⟨hback, -⟩, hfront⟩ := distinct
  constructor
  · intro other hother
    exact hfront _ (List.mem_map_of_mem hother) _ List.mem_cons_self
  · intro other hother hsame
    exact hback (hsame ▸ List.mem_map_of_mem hother)

theorem closeTerminal_fst (captured targetKey : String) (previous : List TabInfo) :
    (closeTerminal captured targetKey previous).1 =
      previous.filter fun tab => tab.key ≠ targetKey := by
  unfold closeTerminal
  dsimp only
  split
  · rfl
  · rfl

/-- What the updater calls `setActiveKey` with. -/
theorem closeTerminal_snd {key targetKey : String} {previous : List TabInfo}
    (called : (closeTerminal captured targetKey previous).2 = some key) :
    (∃ tab ∈ (closeTerminal captured targetKey previous).1, tab.key = key ∧ captured = targetKey) ∨
      ((closeTerminal captured targetKey previous).1 = [] ∧ key = "") := by
  unfold closeTerminal at called ⊢
  dsimp only at called ⊢
  split at called
  · next last hlast =>
      split at called
      · next hcaptured =>
          exact Or.inl ⟨last, List.mem_of_getLast? hlast, Option.some.inj called, hcaptured⟩
      · cases called
  · next hnone =>
      exact Or.inr ⟨List.getLast?_eq_none_iff.mp hnone, (Option.some.inj called).symm⟩

/-- The calls agree on a property of keys, and one of them is made unless it holds already. -/
theorem applied_spec (good : String → Prop) {calls : List (Option String)}
    (all : ∀ key, some key ∈ calls → good key) (made : (∃ key, some key ∈ calls) ∨ good activeKey) :
    good (applied activeKey calls) := by
  induction calls generalizing activeKey with
  | nil =>
      rcases made with ⟨key, hkey⟩ | hgood
      · cases hkey
      · exact hgood
  | cons call rest ih =>
      have hrest : ∀ key, some key ∈ rest → good key :=
        fun key hkey => all key (List.mem_cons_of_mem _ hkey)
      cases call with
      | none =>
          refine ih hrest ?_
          rcases made with ⟨key, hkey⟩ | hgood
          · rcases List.mem_cons.mp hkey with himpossible | hmem
            · cases himpossible
            · exact Or.inl ⟨key, hmem⟩
          · exact Or.inr hgood
      | some key => exact ih hrest (Or.inr (all key List.mem_cons_self))

theorem closeTab_tabs (key captured : String) (late : Bool) (s : Workspace) :
    (s.closeTab key captured late).tabs = s.tabs.filter fun tab => tab.key ≠ key :=
  closeTerminal_fst captured key s.tabs

/-- Both calls of `setActiveKey` are applied, in either order. -/
theorem closeTab_activeKey (key captured : String) (late : Bool) (s : Workspace) :
    ∃ calls, (s.closeTab key captured late).activeKey = applied s.activeKey calls ∧
      ∀ called, some called ∈ calls ↔ (neighbour key s.tabs).map TabInfo.key = some called ∨
        (closeTerminal captured key s.tabs).2 = some called := by
  cases late with
  | true =>
      refine ⟨[(neighbour key s.tabs).map TabInfo.key, (closeTerminal captured key s.tabs).2], rfl,
        fun called => ?_⟩
      rw [List.mem_pair]
      exact or_congr eq_comm eq_comm
  | false =>
      refine ⟨[(closeTerminal captured key s.tabs).2, (neighbour key s.tabs).map TabInfo.key], rfl,
        fun called => ?_⟩
      rw [List.mem_pair, or_comm]
      exact or_congr eq_comm eq_comm

theorem mem_of_head_or_last {other : TabInfo} (found : back.head?.or front.getLast? = some other) :
    other ∈ front ++ back := by
  cases back with
  | nil => exact List.mem_append_left _ (List.mem_of_getLast? found)
  | cons first rest =>
      obtain rfl := Option.some.inj found
      exact List.mem_append_right _ List.mem_cons_self

theorem head_or_last_of_ne_nil (rest : front ++ back ≠ []) :
    ∃ other, back.head?.or front.getLast? = some other := by
  cases back with
  | nil =>
      rw [List.append_nil] at rest
      exact ⟨front.getLast rest, List.getLast?_eq_some_getLast rest⟩
  | cons first others => exact ⟨first, rfl⟩

end Closing

/-! ## The invariant -/

structure Sound (s : Workspace) : Prop where
  keyed : ∀ tab ∈ s.tabs, ∃ now, tab.key = tabKey tab.server now
  servers : (s.tabs.map TabInfo.server).Nodup
  active : (∃ tab ∈ s.tabs, tab.key = s.activeKey) ∨ (s.tabs = [] ∧ s.activeKey = "")

variable {s next : Workspace}

theorem sound_initial : Sound initial := ⟨nofun, List.nodup_nil, Or.inr ⟨rfl, rfl⟩⟩

/-- Tabs of different servers have different keys. -/
theorem Sound.keys (sound : Sound s) : (s.tabs.map TabInfo.key).Nodup := by
  refine List.Nodup.map_on ?_ (List.Nodup.of_map _ sound.servers)
  intro tab htab other hother hsame
  obtain ⟨now, hkey⟩ := sound.keyed tab htab
  obtain ⟨later, hotherKey⟩ := sound.keyed other hother
  rw [hkey, hotherKey] at hsame
  exact List.inj_on_of_nodup_map sound.servers htab hother (server_of_tabKey hsame)

theorem Sound.select (sound : Sound s) {tab : TabInfo} (mem : tab ∈ s.tabs) :
    Sound (s.select tab.key) :=
  ⟨sound.keyed, sound.servers, Or.inl ⟨tab, mem, rfl⟩⟩

theorem Sound.openTerminal (sound : Sound s) (server now : Int) :
    Sound (s.openTerminal server now) := by
  unfold Workspace.openTerminal
  dsimp only
  split
  · next existing hfound => exact sound.select (List.mem_of_find?_eq_some hfound)
  · next hnone =>
      have hfresh : server ∉ s.tabs.map TabInfo.server := by
        intro hmem
        obtain ⟨tab, htab, hserver⟩ := List.mem_map.mp hmem
        exact List.find?_eq_none.mp hnone tab htab (decide_eq_true hserver)
      refine ⟨?_, ?_, Or.inl ⟨_, List.mem_append_right _ (List.mem_singleton_self _), rfl⟩⟩
      · intro tab htab
        rcases List.mem_append.mp htab with hold | hnew
        · exact sound.keyed tab hold
        · obtain rfl := List.mem_singleton.mp hnew
          exact ⟨now, rfl⟩
      · rw [List.map_append, List.nodup_append]
        refine ⟨sound.servers, List.nodup_singleton _, ?_⟩
        rintro old hold added hadded rfl
        obtain rfl := List.mem_singleton.mp hadded
        exact hfresh hold

/-- After a close the active key is again that of a tab, whichever call was applied last. -/
theorem Sound.closeTab (sound : Sound s) {tab : TabInfo} (mem : tab ∈ s.tabs) (captured : String)
    (late : Bool) : Sound (s.closeTab tab.key captured late) := by
  obtain ⟨front, back, htabs⟩ := List.append_of_mem mem
  obtain ⟨hfront, hback⟩ := others_of_distinct (htabs ▸ sound.keys)
  have hleft := closeTab_tabs tab.key captured late s
  have hnext : neighbour tab.key s.tabs = back.head?.or front.getLast? := by
    rw [htabs]
    exact neighbour_append hfront
  have hfilter : s.tabs.filter (fun other => other.key ≠ tab.key) = front ++ back := by
    rw [htabs]
    exact filter_append hfront hback
  obtain ⟨calls, hactive, hcalls⟩ := closeTab_activeKey tab.key captured late s
  refine ⟨?_, ?_, ?_⟩
  · intro other hother
    rw [hleft] at hother
    exact sound.keyed other (List.mem_of_mem_filter hother)
  · rw [hleft]
    exact sound.servers.sublist (List.Sublist.map _ List.filter_sublist)
  have hupdater := closeTerminal_fst captured tab.key s.tabs
  rw [hactive, hleft, hfilter]
  rw [hfilter] at hupdater
  refine applied_spec (fun key => (∃ other ∈ front ++ back, other.key = key) ∨
    (front ++ back = [] ∧ key = "")) ?_ (Or.inl ?_)
  · intro key hkey
    rcases (hcalls key).mp hkey with hfocused | hupdated
    · obtain ⟨other, hother, hsame⟩ := Option.map_eq_some_iff.mp hfocused
      rw [hnext] at hother
      exact Or.inl ⟨other, mem_of_head_or_last hother, hsame⟩
    · have hcalled := closeTerminal_snd hupdated
      rw [hupdater] at hcalled
      exact hcalled.imp_left fun ⟨other, hother, hsame, _⟩ => ⟨other, hother, hsame⟩
  · by_cases hrest : front ++ back = []
    · refine ⟨"", (hcalls "").mpr (Or.inr ?_)⟩
      have hlast : (s.tabs.filter fun other => other.key ≠ tab.key).getLast? = none := by
        rw [hfilter, hrest]
        rfl
      rw [closeTerminal]
      simp only [hlast]
    · obtain ⟨other, hother⟩ := head_or_last_of_ne_nil hrest
      refine ⟨other.key, (hcalls other.key).mpr (Or.inl ?_)⟩
      rw [hnext, hother]
      rfl

theorem Sound.step {event : TabEvent} (sound : Sound s) (step : s.step event = some next) :
    Sound next := by
  cases event with
  | openServer server now =>
      obtain rfl := Option.some.inj step
      exact sound.openTerminal server now
  | click index =>
      obtain ⟨tab, htab, rfl⟩ := Option.map_eq_some_iff.mp step
      exact sound.select (List.mem_of_getElem? htab)
  | keyDown index key captured late =>
      dsimp only [Workspace.step] at step
      split at step
      · cases step
      · next tab htab =>
          split at step
          · obtain rfl := Option.some.inj step
            exact sound.closeTab (List.mem_of_getElem? htab) captured late
          · split at step
            · obtain rfl := Option.some.inj step
              exact sound
            · obtain ⟨other, hother, rfl⟩ := Option.map_eq_some_iff.mp step
              exact sound.select (List.mem_of_getElem? hother)
  | close index captured late =>
      obtain ⟨tab, htab, rfl⟩ := Option.map_eq_some_iff.mp step
      exact sound.closeTab (List.mem_of_getElem? htab) captured late

/-- A key pressed on a tab leads to a tab. -/
theorem step_keyDown_isSome {index : Nat} (rendered : index < s.tabs.length) (key : TabEventKey)
    (captured : String) (late : Bool) : (s.step (.keyDown index key captured late)).isSome := by
  have htarget : ∀ place, target index s.tabs.length key = some place → place < s.tabs.length := by
    intro place hplace
    cases key with
    | arrowRight =>
        obtain rfl := Option.some.inj hplace
        exact Nat.mod_lt _ (by omega)
    | arrowLeft =>
        obtain rfl := Option.some.inj hplace
        exact Nat.mod_lt _ (by omega)
    | home =>
        obtain rfl := Option.some.inj hplace
        omega
    | endKey =>
        obtain rfl := Option.some.inj hplace
        omega
    | delete => cases hplace
    | other => cases hplace
  rw [Workspace.step, List.getElem?_eq_getElem rendered]
  dsimp only
  split
  · rfl
  · split
    · rfl
    · next place hplace =>
        rw [List.getElem?_eq_getElem (htarget place hplace)]
        rfl

/-- Whatever is opened, selected and closed, and in whatever order the calls of a close are
applied, servers and keys are distinct and the active key is that of an open tab. -/
theorem tabs_consistent {events : List TabEvent}
    (run : play Workspace.step initial events = some s) :
    (s.tabs.map TabInfo.server).Nodup ∧ (s.tabs.map TabInfo.key).Nodup ∧
      ((∃ tab ∈ s.tabs, tab.key = s.activeKey) ∨ s.activeKey = "") ∧
      (s.activeKey = "" ↔ s.tabs = []) := by
  have hsound : Sound s := play_preserves Sound sound_initial Sound.step run
  refine ⟨hsound.servers, hsound.keys, hsound.active.imp_right And.right, ?_⟩
  constructor
  · intro hempty
    rcases hsound.active with ⟨tab, htab, hkey⟩ | ⟨hnone, -⟩
    · obtain ⟨now, htabKey⟩ := hsound.keyed tab htab
      exact absurd (htabKey.symm.trans (hkey.trans hempty)) (tabKey_ne_empty _ _)
    · exact hnone
  · intro hnone
    rcases hsound.active with ⟨tab, htab, -⟩ | ⟨-, hempty⟩
    · rw [hnone] at htab
      cases htab
    · exact hempty

/-- The tabs of two servers are opened, the first is selected by opening its server again, and
then closed, so that the second becomes active. -/
theorem tabs_consistent_close :
    ∃ s, play Workspace.step initial [.openServer 1 5, .openServer 2 6, .openServer 1 7,
        .close 0 "1-5" false] = some s ∧ s.activeKey = "2-6" ∧
      (s.tabs.map TabInfo.server).Nodup ∧ (s.tabs.map TabInfo.key).Nodup ∧
        ((∃ tab ∈ s.tabs, tab.key = s.activeKey) ∨ s.activeKey = "") ∧
        (s.activeKey = "" ↔ s.tabs = []) := by
  have hrun : play Workspace.step initial [.openServer 1 5, .openServer 2 6, .openServer 1 7,
      .close 0 "1-5" false] = some ⟨[⟨"2-6", 2⟩], "2-6"⟩ := by
    decide +kernel
  exact ⟨_, hrun, rfl, tabs_consistent hrun⟩

/-! ## Closing a background tab -/

section Background

variable {front back : List TabInfo} {tab active : TabInfo} {late : Bool}

/-- The tab after the closed one, or else the one before, becomes active. -/
theorem closeTab_background {activeKey captured : String}
    (distinct : ((front ++ tab :: back).map TabInfo.key).Nodup) (background : captured ≠ tab.key)
    {other : TabInfo} (next : back.head?.or front.getLast? = some other) :
    (Workspace.mk (front ++ tab :: back) activeKey).closeTab tab.key captured late =
      ⟨front ++ back, other.key⟩ := by
  obtain ⟨hfront, hback⟩ := others_of_distinct distinct
  have hmem := mem_of_head_or_last next
  have hsilent : closeTerminal captured tab.key (front ++ tab :: back) = (front ++ back, none) := by
    unfold closeTerminal
    rw [filter_append hfront hback]
    dsimp only
    split
    · rw [if_neg background]
    · next hnone =>
        rw [List.getLast?_eq_none_iff.mp hnone] at hmem
        cases hmem
  unfold closeTab
  dsimp only
  rw [neighbour_append hfront, next, hsilent]
  cases late with
  | true => rfl
  | false => rfl

/-- Closing a background tab removes that tab only, and leaves the active key as it was exactly
when the active tab follows it, or precedes it as the last tab. -/
theorem background_close_keeps_iff {s : Workspace} (distinct : (s.tabs.map TabInfo.key).Nodup)
    (opened : active ∈ s.tabs) (current : s.activeKey = active.key) (mem : tab ∈ s.tabs)
    (background : tab.key ≠ active.key) (late : Bool) :
    ((s.closeTab tab.key s.activeKey late).tabs = s.tabs.erase tab ∧
        (s.closeTab tab.key s.activeKey late).activeKey = s.activeKey) ↔
      (∃ front back, s.tabs = front ++ tab :: active :: back) ∨
        ∃ front, s.tabs = front ++ [active, tab] := by
  have hcaptured : s.activeKey ≠ tab.key := by
    rw [current]
    exact background.symm
  obtain ⟨tabs, activeKey⟩ := s
  dsimp only at distinct opened current hcaptured mem ⊢
  -- around any place of the tab, the close is what it does with the neighbour
  have hclose : ∀ front back other, tabs = front ++ tab :: back →
      back.head?.or front.getLast? = some other →
      (Workspace.mk tabs activeKey).closeTab tab.key activeKey late = ⟨tabs.erase tab, other.key⟩ := by
    rintro front back other rfl hnext
    have hfront : tab ∉ front := by
      intro hmem
      exact (others_of_distinct distinct).1 tab hmem rfl
    rw [closeTab_background distinct hcaptured hnext, List.erase_append_right _ hfront,
      List.erase_cons_head]
  constructor
  · rintro ⟨-, hkept⟩
    obtain ⟨front, back, htabs⟩ := List.append_of_mem mem
    have hrest : front ++ back ≠ [] := by
      intro hempty
      obtain ⟨rfl, rfl⟩ := List.append_eq_nil_iff.mp hempty
      rw [htabs, List.nil_append, List.mem_singleton] at opened
      exact background (congrArg TabInfo.key opened).symm
    obtain ⟨other, hother⟩ := head_or_last_of_ne_nil hrest
    rw [hclose front back other htabs hother] at hkept
    have hotherMem : other ∈ tabs := by
      rw [htabs]
      rcases List.mem_append.mp (mem_of_head_or_last hother) with hmem | hmem
      · exact List.mem_append_left _ hmem
      · exact List.mem_append_right _ (List.mem_cons_of_mem _ hmem)
    obtain rfl : other = active :=
      List.inj_on_of_nodup_map distinct hotherMem opened (hkept.trans current)
    cases back with
    | nil =>
        obtain ⟨earlier, rfl⟩ := List.getLast?_eq_some_iff.mp hother
        refine Or.inr ⟨earlier, ?_⟩
        rw [htabs, List.append_assoc]
        rfl
    | cons first rest =>
        obtain rfl := Option.some.inj hother
        exact Or.inl ⟨front, rest, htabs⟩
  · rintro (⟨front, back, htabs⟩ | ⟨front, htabs⟩)
    · rw [hclose front (active :: back) active htabs rfl]
      exact ⟨rfl, current.symm⟩
    · have hsplit : tabs = (front ++ [active]) ++ tab :: [] := by
        rw [htabs, List.append_assoc]
        rfl
      rw [hclose (front ++ [active]) [] active hsplit List.getLast?_concat]
      exact ⟨rfl, current.symm⟩

/-- Three tabs, the second of which is active. -/
def threeTabs : Workspace := ⟨[⟨"1-5", 1⟩, ⟨"2-6", 2⟩, ⟨"3-7", 3⟩], "2-6"⟩

theorem background_close_keeps_threeTabs :
    (threeTabs.closeTab "1-5" threeTabs.activeKey false).tabs = threeTabs.tabs.erase ⟨"1-5", 1⟩ ∧
      (threeTabs.closeTab "1-5" threeTabs.activeKey false).activeKey = threeTabs.activeKey := by
  have hdistinct : (threeTabs.tabs.map TabInfo.key).Nodup := by decide +kernel
  have hactive : ⟨"2-6", 2⟩ ∈ threeTabs.tabs := by decide +kernel
  have hclosed : ⟨"1-5", 1⟩ ∈ threeTabs.tabs := by decide +kernel
  have hother : (TabInfo.mk "1-5" 1).key ≠ (TabInfo.mk "2-6" 2).key := by decide +kernel
  exact (background_close_keeps_iff hdistinct hactive rfl hclosed hother false).mpr
    (Or.inl ⟨[], [⟨"3-7", 3⟩], rfl⟩)

def firstActive : Workspace := { threeTabs with activeKey := "1-5" }

/-- Closing the second tab activates the third, although the first one was active. -/
theorem background_close_moves :
    (firstActive.tabs.map TabInfo.key).Nodup ∧ ⟨"1-5", 1⟩ ∈ firstActive.tabs ∧
      ⟨"2-6", 2⟩ ∈ firstActive.tabs ∧ firstActive.activeKey = "1-5" ∧
      (firstActive.closeTab "2-6" firstActive.activeKey false).tabs =
        firstActive.tabs.erase ⟨"2-6", 2⟩ ∧
      (firstActive.closeTab "2-6" firstActive.activeKey false).activeKey = "3-7" ∧
      ¬ ((firstActive.closeTab "2-6" firstActive.activeKey false).tabs =
          firstActive.tabs.erase ⟨"2-6", 2⟩ ∧
        (firstActive.closeTab "2-6" firstActive.activeKey false).activeKey =
          firstActive.activeKey) := by
  decide +kernel

end Background

end Workspace

end OpsUp.Ui
