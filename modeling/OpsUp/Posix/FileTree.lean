import Mathlib.Data.List.AList
import OpsUp.Go.Path

/-!
# File trees

The entries of a file system, each under the names that lead to it from the root.  A path
is walked segment by segment through directories and symbolic links; a process may follow
a limited number of links for each path.
-/

namespace OpsUp.Posix

open OpsUp.Go

abbrev Name := List Char

/-- The names from the root to an entry, none of which is a link. -/
abbrev Location := List Name

/-- What an entry is; `special` stands for devices, sockets and the like. -/
inductive Entry where
  | regular
  | special
  | directory
  | link (target : String)
  deriving DecidableEq, Repr

/-- Entries with attributes of the type `α`. -/
structure FileTree (α : Type) where
  entries : AList fun _ : Location => Entry × α
  root : (entries.lookup []).map Prod.fst = some .directory
  parents : ∀ here name node, entries.lookup (here ++ [name]) = some node →
    (entries.lookup here).map Prod.fst = some .directory ∧ IsName name

namespace FileTree

variable {α : Type} {tree after : FileTree α} {here there : Location} {name : Name}
  {entry : Entry} {attributes : α}

def lookup (tree : FileTree α) (here : Location) : Option Entry :=
  (tree.entries.lookup here).map Prod.fst

theorem lookup_root (tree : FileTree α) : tree.lookup [] = some .directory := tree.root

/-- What is in a directory, links not followed. -/
def children (tree : FileTree α) (here : Location) : List (Name × Entry × α) :=
  tree.entries.entries.filterMap fun stored =>
    match stored.1.getLast? with
    | none => none
    | some name => if stored.1.dropLast = here then some (name, stored.2) else none

theorem entries_eq_some_iff : tree.entries.lookup here = some (entry, attributes) ↔
    ⟨here, entry, attributes⟩ ∈ tree.entries.entries := AList.mem_lookup_iff

theorem mem_children_iff : (name, entry, attributes) ∈ tree.children here ↔
    tree.entries.lookup (here ++ [name]) = some (entry, attributes) := by
  unfold children
  rw [List.mem_filterMap, entries_eq_some_iff]
  constructor
  · rintro ⟨⟨location, stored⟩, hstored, hchild⟩
    cases hlast : location.getLast? with
    | none => simp [hlast] at hchild
    | some last =>
        simp only [hlast] at hchild
        split at hchild
        · next hparent =>
            obtain ⟨rfl, rfl⟩ := Prod.mk.inj (Option.some.inj hchild)
            rw [← hparent, List.dropLast_append_getLast? last hlast]
            exact hstored
        · cases hchild
  · intro hstored
    refine ⟨_, hstored, ?_⟩
    simp

/-- A child is in a directory, under a name. -/
theorem lookup_of_mem_children (child : (name, entry, attributes) ∈ tree.children here) :
    tree.lookup (here ++ [name]) = some entry ∧ tree.lookup here = some .directory ∧
      IsName name := by
  have hstored := mem_children_iff.mp child
  refine ⟨?_, tree.parents here name _ hstored⟩
  rw [lookup, hstored]
  rfl

/-- Nothing but the root directory. -/
def empty (attributes : α) : FileTree α where
  entries := AList.singleton [] (.directory, attributes)
  root := by
    rw [AList.mem_lookup_iff.mpr (List.mem_singleton_self _), Option.map_some]
  parents := by
    intro here name node hnode
    have hstored := List.mem_singleton.mp (AList.mem_lookup_iff.mp hnode)
    simp at hstored

/-- Put an entry under a new name into a directory. -/
def add (tree : FileTree α) (here : Location) (name : Name) (node : Entry × α)
    (directory : tree.lookup here = some .directory) (absent : tree.lookup (here ++ [name]) = none)
    (named : IsName name) : FileTree α where
  entries := tree.entries.insert (here ++ [name]) node
  root := by
    rw [AList.lookup_insert_ne (by simp)]
    exact tree.root
  parents := by
    intro parent child stored hstored
    have kept : ∀ {location : Location}, tree.lookup location = some .directory →
        (AList.lookup location (tree.entries.insert (here ++ [name]) node)).map Prod.fst =
          some .directory := by
      intro location hlocation
      have hother : location ≠ here ++ [name] := by
        rintro rfl
        rw [absent] at hlocation
        cases hlocation
      rw [AList.lookup_insert_ne hother]
      exact hlocation
    by_cases hsame : parent ++ [child] = here ++ [name]
    · obtain ⟨rfl, hchild⟩ := List.append_inj' hsame rfl
      obtain rfl := List.singleton_inj.mp hchild
      exact ⟨kept directory, named⟩
    · rw [AList.lookup_insert_ne hsame] at hstored
      obtain ⟨hparent, hname⟩ := tree.parents parent child stored hstored
      exact ⟨kept hparent, hname⟩

/-- Nothing is below this location. -/
def IsLeaf (tree : FileTree α) (here : Location) : Prop := tree.children here = []

instance : Decidable (tree.IsLeaf here) :=
  decidable_of_iff ((tree.children here).isEmpty = true) List.isEmpty_iff

theorem isLeaf_iff : tree.IsLeaf here ↔ ∀ name, tree.lookup (here ++ [name]) = none := by
  unfold IsLeaf
  rw [List.eq_nil_iff_forall_not_mem]
  constructor
  · intro hempty name
    rw [Option.eq_none_iff_forall_not_mem]
    intro entry hentry
    obtain ⟨⟨_, attributes⟩, hstored, rfl⟩ := Option.map_eq_some_iff.mp hentry
    exact hempty _ (mem_children_iff.mpr hstored)
  · rintro hnone ⟨name, entry, attributes⟩ hchild
    have hstored := (lookup_of_mem_children hchild).1
    rw [hnone name] at hstored
    cases hstored

/-- There is something at this location, and it is no directory. -/
def IsFile (tree : FileTree α) (here : Location) : Prop :=
  tree.lookup here ≠ none ∧ tree.lookup here ≠ some .directory

instance : Decidable (tree.IsFile here) := by
  unfold IsFile
  infer_instance

theorem IsFile.leaf (file : tree.IsFile here) : tree.IsLeaf here := by
  rw [isLeaf_iff]
  intro name
  cases hchild : tree.entries.lookup (here ++ [name]) with
  | none => rw [lookup, hchild, Option.map_none]
  | some node => exact absurd (tree.parents here name node hchild).1 file.2

theorem IsFile.not_root (file : tree.IsFile here) : here ≠ [] := by
  rintro rfl
  exact file.2 tree.root

/-- Take away an entry that has nothing below it. -/
def erase (tree : FileTree α) (here : Location) (leaf : tree.IsLeaf here) (not_root : here ≠ []) :
    FileTree α where
  entries := tree.entries.erase here
  root := by
    rw [AList.lookup_erase_ne (Ne.symm not_root)]
    exact tree.root
  parents := by
    intro directory name node hnode
    have hkept : directory ++ [name] ≠ here := by
      rintro rfl
      rw [AList.lookup_erase] at hnode
      cases hnode
    rw [AList.lookup_erase_ne hkept] at hnode
    have hparent : directory ≠ here := by
      rintro rfl
      have hnone := isLeaf_iff.mp leaf name
      rw [lookup, hnode] at hnone
      cases hnone
    rw [AList.lookup_erase_ne hparent]
    exact tree.parents directory name node hnode

theorem entries_erase (leaf : tree.IsLeaf here) (not_root : here ≠ []) :
    (tree.erase here leaf not_root).entries.lookup there =
      if there = here then none else tree.entries.lookup there := by
  unfold erase
  split
  · next hsame => rw [hsame, AList.lookup_erase]
  · next hother => rw [AList.lookup_erase_ne hother]

/-- `unlink`: any entry but a directory, a link itself and not what it leads to. -/
def unlink (tree : FileTree α) (here : Location) : Option (FileTree α) :=
  if file : tree.IsFile here then some (tree.erase here file.leaf file.not_root) else none

/-- `rmdir`: an empty directory, and no link to one. -/
def rmdir (tree : FileTree α) (here : Location) : Option (FileTree α) :=
  if empty : tree.lookup here = some .directory ∧ tree.IsLeaf here ∧ here ≠ [] then
    some (tree.erase here empty.2.1 empty.2.2)
  else none

/-- `after` is the tree without the entry that was at `here`, all else with its attributes. -/
def Removed (tree : FileTree α) (here : Location) (after : FileTree α) : Prop :=
  tree.lookup here ≠ none ∧
    ∀ there, after.entries.lookup there = if there = here then none else tree.entries.lookup there

theorem removed_of_unlink (unlinked : tree.unlink here = some after) :
    tree.IsFile here ∧ tree.Removed here after := by
  unfold unlink at unlinked
  split at unlinked
  · next file =>
      obtain rfl := Option.some.inj unlinked
      exact ⟨file, file.1, fun there => entries_erase file.leaf file.not_root⟩
  · cases unlinked

theorem exists_unlink (file : tree.IsFile here) : ∃ after, tree.unlink here = some after := by
  unfold unlink
  rw [dif_pos file]
  exact ⟨_, rfl⟩

theorem removed_of_rmdir (removed : tree.rmdir here = some after) :
    tree.lookup here = some .directory ∧ tree.Removed here after := by
  unfold rmdir at removed
  split at removed
  · next empty =>
      obtain rfl := Option.some.inj removed
      refine ⟨empty.1, ?_, fun there => entries_erase empty.2.1 empty.2.2⟩
      rw [empty.1]
      nofun
  · cases removed

theorem exists_rmdir (directory : tree.lookup here = some .directory) (leaf : tree.IsLeaf here)
    (not_root : here ≠ []) : ∃ after, tree.rmdir here = some after := by
  unfold rmdir
  rw [dif_pos ⟨directory, leaf, not_root⟩]
  exact ⟨_, rfl⟩

/-- A removal tells which entry was removed. -/
theorem Removed.unique (first : tree.Removed here after)
    (second : tree.Removed there after) : there = here := by
  by_contra hother
  have hgone := second.2 there
  rw [if_pos rfl, first.2 there, if_neg hother] at hgone
  exact second.1 (by rw [lookup, hgone, Option.map_none])

end FileTree

/-! ## Walking a path -/

section Walks

variable {α : Type}

/--
Walk through directories.  A link is handed to `onLink` with what follows it, except that a
link at the end of the path is where the walk ends unless it is to be followed.
-/
def walkThrough (tree : FileTree α) (follow : Bool)
    (onLink : Location → String → List Name → Option Location) :
    Location → List Name → Option Location
  | here, [] => some here
  | here, segment :: rest =>
      if tree.lookup here ≠ some .directory then none
      else if segment = [] ∨ segment = ['.'] then walkThrough tree follow onLink here rest
      else if segment = ['.', '.'] then walkThrough tree follow onLink here.dropLast rest
      else
        match tree.lookup (here ++ [segment]) with
        | none => none
        | some (.link target) =>
            if rest = [] ∧ follow = false then some (here ++ [segment])
            else onLink here target rest
        | some _ => walkThrough tree follow onLink (here ++ [segment]) rest

/-- Where a path or a link that is read in the directory `here` begins. -/
def startOf (here : Location) (path : String) : Location :=
  if isRooted path.toList then [] else here

/-- Walk and follow at most `links` links; an empty target leads nowhere. -/
def walk (tree : FileTree α) (follow : Bool) : Nat → Location → List Name → Option Location
  | 0 => walkThrough tree follow fun _ _ _ => none
  | links + 1 => walkThrough tree follow fun here target rest =>
      if target = "" then none
      else walk tree follow links (startOf here target) (segments target.toList ++ rest)

/-- A process: its working directory and how many links it follows for one path. -/
structure Process where
  workingDirectory : Location
  maxLinks : Nat

/-- The entry that a path leads to; `follow` is whether a link at its end is followed. -/
def Process.resolve (process : Process) (tree : FileTree α) (follow : Bool) (path : String) :
    Option Location :=
  if path = "" then none
  else walk tree follow process.maxLinks (startOf process.workingDirectory path)
    (segments path.toList)

/-- One more name after a walk, which is not followed if it is a link. -/
def lastStep (tree : FileTree α) (name : Name) (there : Location) : Option Location :=
  if tree.lookup there ≠ some .directory then none
  else if tree.lookup (there ++ [name]) = none then none
  else some (there ++ [name])

variable {tree : FileTree α} {here there : Location} {name : Name}
  {onLink other : Location → String → List Name → Option Location}

theorem walkThrough_concat (named : IsName name)
    (links : ∀ here target rest,
      onLink here target (rest ++ [name]) = (other here target rest).bind (lastStep tree name))
    (path : List Name) (here : Location) :
    walkThrough tree false onLink here (path ++ [name]) =
      (walkThrough tree true other here path).bind (lastStep tree name) := by
  induction path generalizing here with
  | nil =>
      rw [List.nil_append, walkThrough, walkThrough, Option.bind_some, lastStep]
      split
      · rfl
      · rw [if_neg (not_or.mpr ⟨named.nonempty, named.not_dot⟩), if_neg named.not_dots]
        cases hentry : tree.lookup (here ++ [name]) with
        | none => rfl
        | some entry => cases entry <;> rfl
  | cons segment rest ih =>
      rw [List.cons_append, walkThrough, walkThrough]
      split
      · rfl
      · split
        · exact ih here
        · split
          · exact ih here.dropLast
          · cases hentry : tree.lookup (here ++ [segment]) with
            | none => rfl
            | some entry =>
                cases entry with
                | link target =>
                    dsimp only
                    rw [if_neg (by simp), if_neg (by simp)]
                    exact links here target rest
                | regular => exact ih (here ++ [segment])
                | special => exact ih (here ++ [segment])
                | directory => exact ih (here ++ [segment])

/-- A walk without following the last name comes from a walk that follows everything before. -/
theorem walk_concat (named : IsName name) (links : Nat) (path : List Name) (here : Location) :
    walk tree false links here (path ++ [name]) =
      (walk tree true links here path).bind (lastStep tree name) := by
  induction links generalizing path here with
  | zero => exact walkThrough_concat named (fun _ _ _ => rfl) path here
  | succ links ih =>
      apply walkThrough_concat named
      intro here target rest
      split
      · rfl
      · rw [← List.append_assoc]
        exact ih _ _

/-- Following the last name makes no difference unless it is a link. -/
def SameUnlessLink (tree : FileTree α) (unfollowed followed : Option Location) : Prop :=
  unfollowed = followed ∨
    ∃ there target, unfollowed = some there ∧ tree.lookup there = some (.link target)

theorem walkThrough_follow (links : ∀ here target rest,
      SameUnlessLink tree (onLink here target rest) (other here target rest))
    (path : List Name) (here : Location) :
    SameUnlessLink tree (walkThrough tree false onLink here path)
      (walkThrough tree true other here path) := by
  induction path generalizing here with
  | nil => exact Or.inl rfl
  | cons segment rest ih =>
      rw [walkThrough, walkThrough]
      split
      · exact Or.inl rfl
      · split
        · exact ih here
        · split
          · exact ih here.dropLast
          · cases hentry : tree.lookup (here ++ [segment]) with
            | none => exact Or.inl rfl
            | some entry =>
                cases entry with
                | link target =>
                    simp only [Bool.true_eq_false, and_false, if_false]
                    split
                    · exact Or.inr ⟨_, target, rfl, hentry⟩
                    · exact links here target rest
                | regular => exact ih (here ++ [segment])
                | special => exact ih (here ++ [segment])
                | directory => exact ih (here ++ [segment])

theorem walk_follow (links : Nat) (path : List Name) (here : Location) :
    SameUnlessLink tree (walk tree false links here path) (walk tree true links here path) := by
  induction links generalizing path here with
  | zero => exact walkThrough_follow (fun _ _ _ => Or.inl rfl) path here
  | succ links ih =>
      apply walkThrough_follow
      intro here target rest
      split
      · exact Or.inl rfl
      · exact ih _ _

theorem resolve_follow (process : Process) (path : String) :
    SameUnlessLink tree (process.resolve tree false path) (process.resolve tree true path) := by
  unfold Process.resolve
  split
  · exact Or.inl rfl
  · exact walk_follow _ _ _

/-- Segments that stay where they are. -/
theorem walk_stay (follow : Bool) (links : Nat) {segment : Name}
    (stays : segment = [] ∨ segment = ['.']) (rest : List Name) (here : Location) :
    walk tree follow links here (segment :: rest) =
      if tree.lookup here ≠ some .directory then none else walk tree follow links here rest := by
  cases links <;> rw [walk, walkThrough, if_pos stays]

theorem walk_nil (follow : Bool) (links : Nat) (here : Location) :
    walk tree follow links here [] = some here := by
  cases links <;> rw [walk, walkThrough]

theorem startOf_append {front : List Char} (nonempty : front ≠ []) (back : List Char) :
    startOf here (String.ofList (front ++ back)) = startOf here (String.ofList front) := by
  unfold startOf
  rw [String.toList_ofList, String.toList_ofList, isRooted_append nonempty]

/-- From the root nothing but a name leads away. -/
theorem walk_root (follow : Bool) (links : Nat) {segment : Name}
    (stays : segment = [] ∨ segment = ['.']) (rest : List Name) :
    walk tree follow links [] (segment :: rest) = walk tree follow links [] rest := by
  rw [walk_stay follow links stays, if_neg (not_not.mpr tree.lookup_root)]

/-- The path of a name in a directory is walked to the cleaned directory and one name on. -/
theorem resolve_joinPath (process : Process) (dir : String) {name : String}
    (named : IsName name.toList) : process.resolve tree false (joinPath [dir, name]) =
      (process.resolve tree true (cleanPath dir)).bind (lastStep tree name.toList) := by
  have hno_slash := segments_of_no_slash named.no_slash
  have hnonempty : joinPath [dir, name] ≠ "" := by
    rw [joinPath_name dir named, ne_eq, String.ofList_eq_empty_iff]
    exact List.append_ne_nil_of_right_ne_nil _ named.nonempty
  unfold Process.resolve
  rw [if_neg hnonempty, if_neg (cleanPath_ne_empty dir), joinPath_name dir named, cleanPath_eq]
  have hclean := cleanStack_clean dir.toList
  generalize isRooted dir.toList = rooted at hclean ⊢
  generalize cleanStack dir.toList = stack at hclean ⊢
  by_cases hempty : stack = []
  · rw [frontChars, if_pos hempty, hempty]
    cases rooted with
    | true =>
        have hsegments : segments (['/'] ++ name.toList) = [] :: ([] ++ [name.toList]) := by
          rw [List.singleton_append, segments, if_pos rfl, hno_slash]
          rfl
        have hroot : segments (pathText (pathChars true [])).toList = [[], []] := by decide
        have hstart : startOf process.workingDirectory (pathText (pathChars true [])) = [] := rfl
        have hpath : pathChars true [] = ['/'] := rfl
        rw [hstart, hroot, hpath, startOf_append (List.cons_ne_nil '/' []), String.toList_ofList,
          hsegments, ← hpath]
        change walk tree false process.maxLinks [] _ = _
        rw [walk_root false _ (Or.inl rfl), walk_concat named, walk_root true _ (Or.inl rfl),
          walk_root true _ (Or.inl rfl)]
    | false =>
        have hdot : segments (pathText (pathChars false [])).toList = [['.']] := by decide
        have hstart : startOf process.workingDirectory (pathText (pathChars false [])) =
            process.workingDirectory := rfl
        have hname : startOf process.workingDirectory (String.ofList name.toList) =
            process.workingDirectory := by
          rw [startOf, String.toList_ofList, named.not_rooted, if_neg Bool.false_ne_true]
        have hpath : pathChars false [] ++ name.toList = name.toList := rfl
        have hsegments : [name.toList] = [] ++ [name.toList] := rfl
        rw [hpath, hname, hstart, hdot, String.toList_ofList, hno_slash, hsegments,
          walk_concat named, walk_stay true _ (Or.inr rfl), walk_nil, Option.bind_some]
        split
        · next hmissing => rw [lastStep, if_pos hmissing, Option.bind_none]
        · rw [Option.bind_some]
  · have hfull := hclean.pathChars_ne_nil hempty
    have hfront : frontChars rooted stack ++ name.toList =
        pathChars rooted stack ++ '/' :: name.toList := by
      rw [frontChars, if_neg hempty, List.append_assoc, List.singleton_append]
    rw [hfront, startOf_append hfull, String.toList_ofList, segments_slash, hno_slash,
      walk_concat named, pathText, if_neg hfull, String.toList_ofList]

end Walks

end OpsUp.Posix
