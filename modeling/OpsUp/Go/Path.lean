import Mathlib.Tactic.Common

/-!
# Slash-separated paths

The functions of the Go package `path`.  They work on the text alone: `..` removes
the segment before it, whatever that is on the server.  They compare bytes with `/` and
`.` only, so a character of the text may as well be a byte.
-/

namespace OpsUp.Go

/-- The texts between the slashes. -/
def segments : List Char → List (List Char)
  | [] => [[]]
  | c :: rest =>
      if c = '/' then [] :: segments rest
      else
        match segments rest with
        | [] => [[c]]
        | segment :: others => (c :: segment) :: others

/-- One segment after those of `stack`, the last of which comes first. -/
def cleanStep (rooted : Bool) (stack : List (List Char)) (segment : List Char) :
    List (List Char) :=
  if segment = [] ∨ segment = ['.'] then stack
  else if segment = ['.', '.'] then
    match stack with
    | [] => if rooted then [] else [segment]
    | top :: below => if top = ['.', '.'] then segment :: stack else below
  else segment :: stack

/-- `path.Clean`. -/
def cleanPath (path : String) : String :=
  let rooted := path.toList.head? == some '/'
  let kept := ((segments path.toList).foldl (cleanStep rooted) []).reverse
  let text := (if rooted then ['/'] else []) ++ List.intercalate ['/'] kept
  if text = [] then "." else String.ofList text

/-- `path.Dir`: everything up to the last slash, cleaned. -/
def dirPath (path : String) : String :=
  cleanPath (String.ofList (path.toList.reverse.dropWhile fun c => c ≠ '/').reverse)

/-- `path.Join`: leading empty elements are ignored. -/
def joinPath (elements : List String) : String :=
  match elements.dropWhile fun element => element = "" with
  | [] => ""
  | rest => cleanPath ("/".intercalate rest)

/-- `path.Base`: the last element without the slashes after it. -/
def basePath (path : String) : String :=
  if path = "" then "."
  else
    let last := ((path.toList.reverse.dropWhile fun c => c = '/').takeWhile fun c => c ≠ '/').reverse
    if last = [] then "/" else String.ofList last

example : dirPath "/srv//a/../b.txt" = "/srv" := by decide

example : joinPath ["", "a/", "../../b"] = "../b" := by decide

example : basePath "a/b//" = "b" := by decide

/-! ## Cleaned paths -/

/-- A segment that names an entry of a directory. -/
structure IsName (segment : List Char) : Prop where
  nonempty : segment ≠ []
  not_dot : segment ≠ ['.']
  not_dots : segment ≠ ['.', '.']
  no_slash : '/' ∉ segment

instance (segment : List Char) : Decidable (IsName segment) :=
  decidable_of_iff
    (segment ≠ [] ∧ segment ≠ ['.'] ∧ segment ≠ ['.', '.'] ∧ '/' ∉ segment)
    ⟨fun h => ⟨h.1, h.2.1, h.2.2.1, h.2.2.2⟩,
      fun name => ⟨name.nonempty, name.not_dot, name.not_dots, name.no_slash⟩⟩

def isRooted (chars : List Char) : Bool := chars.head? == some '/'

/-- The segments that cleaning keeps, the last of which comes first. -/
def cleanStack (chars : List Char) : List (List Char) :=
  (segments chars).foldl (cleanStep (isRooted chars)) []

def pathChars (rooted : Bool) (stack : List (List Char)) : List Char :=
  (if rooted then ['/'] else []) ++ List.intercalate ['/'] stack.reverse

def pathText (chars : List Char) : String := if chars = [] then "." else String.ofList chars

theorem cleanPath_eq (path : String) :
    cleanPath path = pathText (pathChars (isRooted path.toList) (cleanStack path.toList)) := rfl

/-- What cleaning keeps: names, after the `..` that a relative path begins with. -/
inductive CleanStack (rooted : Bool) : List (List Char) → Prop where
  | root : CleanStack rooted []
  | up {stack : List (List Char)} (relative : rooted = false)
      (above : ∀ segment ∈ stack, segment = ['.', '.']) (clean : CleanStack rooted stack) :
      CleanStack rooted (['.', '.'] :: stack)
  | name {segment : List Char} {stack : List (List Char)} (name : IsName segment)
      (clean : CleanStack rooted stack) : CleanStack rooted (segment :: stack)

theorem IsName.not_rooted {segment : List Char} (name : IsName segment) :
    isRooted segment = false := by
  unfold isRooted
  rw [beq_eq_false_iff_ne]
  intro hhead
  exact name.no_slash (List.mem_of_mem_head? hhead)

theorem segments_eq_splitOn (chars : List Char) : segments chars = chars.splitOn '/' := by
  induction chars with
  | nil => rfl
  | cons c rest ih =>
      rw [segments, List.splitOn_cons_eq_if_modifyHead, ih]
      simp only [beq_iff_eq]
      split
      · rfl
      · cases hsplit : rest.splitOn '/' with
        | nil => exact absurd hsplit (List.splitOn_ne_nil '/' rest)
        | cons segment others => rfl

theorem segments_of_no_slash {chars : List Char} (no_slash : '/' ∉ chars) :
    segments chars = [chars] := by
  rw [segments_eq_splitOn, List.splitOn_eq_singleton no_slash]

theorem segments_slash (front back : List Char) :
    segments (front ++ '/' :: back) = segments front ++ segments back := by
  simp only [segments_eq_splitOn, List.splitOn_append_cons_self]

theorem no_slash_of_mem_segments {chars segment : List Char} (member : segment ∈ segments chars) :
    '/' ∉ segment := by
  induction chars generalizing segment with
  | nil =>
      rw [segments, List.mem_singleton] at member
      rw [member]
      exact List.not_mem_nil
  | cons c rest ih =>
      rw [segments] at member
      split at member
      · rcases List.mem_cons.mp member with rfl | hrest
        · exact List.not_mem_nil
        · exact ih hrest
      · next hc =>
          split at member
          · rw [List.mem_singleton.mp member, List.mem_singleton]
            exact fun hslash => hc hslash.symm
          · next first others hsplit =>
              rcases List.mem_cons.mp member with rfl | hothers
              · rw [List.mem_cons, not_or]
                refine ⟨fun hslash => hc hslash.symm, ih ?_⟩
                rw [hsplit]
                exact List.mem_cons_self
              · apply ih
                rw [hsplit]
                exact List.mem_cons_of_mem _ hothers

variable {rooted : Bool} {stack : List (List Char)} {segment : List Char}

/-- A segment of a clean stack is a name or goes up. -/
theorem CleanStack.forall_mem (clean : CleanStack rooted stack) {property : List Char → Prop}
    (up : property ['.', '.']) (name : ∀ segment, IsName segment → property segment) :
    ∀ part ∈ stack, property part := by
  induction clean with
  | root => nofun
  | up relative above clean ih =>
      intro part hpart
      rcases List.mem_cons.mp hpart with rfl | hpart
      · exact up
      · exact ih part hpart
  | name hname clean ih =>
      intro part hpart
      rcases List.mem_cons.mp hpart with rfl | hpart
      · exact name part hname
      · exact ih part hpart

theorem CleanStack.no_slash (clean : CleanStack rooted stack) : ∀ part ∈ stack, '/' ∉ part :=
  clean.forall_mem (by decide) fun _ name => name.no_slash

theorem CleanStack.nonempty (clean : CleanStack rooted stack) : ∀ part ∈ stack, part ≠ [] :=
  clean.forall_mem (by decide) fun _ name => name.nonempty

theorem CleanStack.step (clean : CleanStack rooted stack) (no_slash : '/' ∉ segment) :
    CleanStack rooted (cleanStep rooted stack segment) := by
  unfold cleanStep
  split
  · exact clean
  · next hplain =>
      rw [not_or] at hplain
      split
      · next hup =>
          subst hup
          cases clean with
          | root =>
              cases rooted with
              | true => exact .root
              | false => exact .up rfl nofun .root
          | up relative above clean =>
              dsimp only
              rw [if_pos rfl]
              refine .up relative ?_ (.up relative above clean)
              intro part hpart
              rcases List.mem_cons.mp hpart with rfl | hpart
              · rfl
              · exact above part hpart
          | name name clean =>
              dsimp only
              rw [if_neg name.not_dots]
              exact clean
      · next hname => exact .name ⟨hplain.1, hplain.2, hname, no_slash⟩ clean

theorem CleanStack.steps {parts : List (List Char)} (clean : CleanStack rooted stack)
    (no_slash : ∀ part ∈ parts, '/' ∉ part) :
    CleanStack rooted (parts.foldl (cleanStep rooted) stack) := by
  induction parts generalizing stack with
  | nil => exact clean
  | cons part parts ih =>
      apply ih
      · exact clean.step (no_slash part List.mem_cons_self)
      · exact fun other hother => no_slash other (List.mem_cons_of_mem part hother)

theorem cleanStack_clean (chars : List Char) : CleanStack (isRooted chars) (cleanStack chars) :=
  CleanStack.root.steps fun _ => no_slash_of_mem_segments

theorem cleanStep_name (name : IsName segment) : cleanStep rooted stack segment = segment :: stack := by
  unfold cleanStep
  rw [if_neg (not_or.mpr ⟨name.nonempty, name.not_dot⟩), if_neg name.not_dots]

/-- Cleaning keeps what it has kept. -/
theorem CleanStack.foldl_reverse (clean : CleanStack rooted stack) :
    stack.reverse.foldl (cleanStep rooted) [] = stack := by
  induction clean with
  | root => rfl
  | up relative above clean ih =>
      rw [List.reverse_cons, List.foldl_append, ih, relative]
      cases clean with
      | root => rfl
      | up _ _ _ => rfl
      | name name _ => exact absurd (above _ List.mem_cons_self) name.not_dots
  | name name clean ih =>
      rw [List.reverse_cons, List.foldl_append, ih]
      exact cleanStep_name name

theorem isRooted_append {front : List Char} (nonempty : front ≠ []) (back : List Char) :
    isRooted (front ++ back) = isRooted front := by
  cases front with
  | nil => exact absurd rfl nonempty
  | cons c rest => rfl

/-- What follows a slash is cleaned after what comes before it. -/
theorem cleanStack_slash {front : List Char} (nonempty : front ≠ []) (back : List Char) :
    cleanStack (front ++ '/' :: back) =
      (segments back).foldl (cleanStep (isRooted front)) (cleanStack front) := by
  unfold cleanStack
  rw [isRooted_append nonempty, segments_slash, List.foldl_append]

theorem intercalate_concat {parts : List (List Char)} (nonempty : parts ≠ []) (last : List Char) :
    List.intercalate ['/'] (parts ++ [last]) = List.intercalate ['/'] parts ++ '/' :: last := by
  induction parts with
  | nil => exact absurd rfl nonempty
  | cons first rest ih =>
      cases rest with
      | nil => simp [List.intercalate_cons_cons]
      | cons second others =>
          have hrest := ih (List.cons_ne_nil second others)
          rw [List.cons_append, List.cons_append, List.intercalate_cons_cons,
            List.intercalate_cons_cons, ← List.cons_append, hrest]
          simp only [List.append_assoc]

theorem isRooted_intercalate {parts : List (List Char)} (nonempty : ∀ part ∈ parts, part ≠ [])
    (no_slash : ∀ part ∈ parts, '/' ∉ part) : isRooted (List.intercalate ['/'] parts) = false := by
  cases parts with
  | nil => rfl
  | cons first rest =>
      have hnonempty := nonempty first List.mem_cons_self
      have hslash := no_slash first List.mem_cons_self
      cases first with
      | nil => exact absurd rfl hnonempty
      | cons c chars =>
          have hc : c ≠ '/' := fun hc => hslash (by simp [hc])
          cases rest with
          | nil => simpa [isRooted, List.intercalate_singleton] using hc
          | cons second others => simpa [isRooted, List.intercalate_cons_cons] using hc

theorem CleanStack.isRooted_pathChars (clean : CleanStack rooted stack) :
    isRooted (pathChars rooted stack) = rooted := by
  unfold pathChars
  cases rooted with
  | true => rfl
  | false =>
      rw [if_neg Bool.false_ne_true, List.nil_append]
      apply isRooted_intercalate
      · exact fun part hpart => clean.nonempty part (List.mem_reverse.mp hpart)
      · exact fun part hpart => clean.no_slash part (List.mem_reverse.mp hpart)

theorem foldl_segments_intercalate (clean : CleanStack rooted stack) :
    (segments (List.intercalate ['/'] stack.reverse)).foldl (cleanStep rooted) [] = stack := by
  by_cases hempty : stack = []
  · rw [hempty]
    rfl
  · have hno_slash : ∀ part ∈ stack.reverse, '/' ∉ part := fun part hpart =>
      clean.no_slash part (List.mem_reverse.mp hpart)
    rw [segments_eq_splitOn, List.splitOn_intercalate '/' hno_slash (by simpa using hempty)]
    exact clean.foldl_reverse

theorem CleanStack.cleanStack_pathChars (clean : CleanStack rooted stack) :
    cleanStack (pathChars rooted stack) = stack := by
  have hfold := foldl_segments_intercalate clean
  rw [cleanStack, clean.isRooted_pathChars, pathChars]
  cases rooted with
  | false => exact hfold
  | true =>
      rw [if_pos rfl, List.singleton_append, segments, if_pos rfl]
      exact hfold

theorem CleanStack.pathChars_ne_nil (clean : CleanStack rooted stack) (nonempty : stack ≠ []) :
    pathChars rooted stack ≠ [] := by
  intro hnil
  have hstack := clean.cleanStack_pathChars
  rw [hnil] at hstack
  exact nonempty hstack.symm

theorem toList_pathText (chars : List Char) :
    (pathText chars).toList = if chars = [] then ['.'] else chars := by
  unfold pathText
  split
  · rfl
  · exact String.toList_ofList

/-- A cleaned path is cleaned to itself. -/
theorem CleanStack.cleanPath_pathText (clean : CleanStack rooted stack) :
    cleanPath (pathText (pathChars rooted stack)) = pathText (pathChars rooted stack) := by
  rw [cleanPath_eq, toList_pathText]
  split
  · next hempty =>
      rw [hempty]
      decide
  · rw [clean.isRooted_pathChars, clean.cleanStack_pathChars]

theorem cleanPath_idem (path : String) : cleanPath (cleanPath path) = cleanPath path := by
  rw [cleanPath_eq path]
  exact (cleanStack_clean path.toList).cleanPath_pathText

/-! ## A name in a directory -/

/-- What stands before a name that follows the segments of `stack`. -/
def frontChars (rooted : Bool) (stack : List (List Char)) : List Char :=
  if stack = [] then pathChars rooted [] else pathChars rooted stack ++ ['/']

theorem pathChars_cons (rooted : Bool) (stack : List (List Char)) (segment : List Char) :
    pathChars rooted (segment :: stack) = frontChars rooted stack ++ segment := by
  unfold frontChars
  by_cases hempty : stack = []
  · rw [if_pos hempty, hempty, pathChars, pathChars, List.reverse_singleton,
      List.intercalate_singleton]
    simp
  · rw [if_neg hempty, pathChars, pathChars, List.reverse_cons,
      intercalate_concat (by simpa using hempty)]
    simp only [List.append_assoc, List.singleton_append]

theorem frontChars_slash (rooted : Bool) (stack : List (List Char)) :
    frontChars rooted stack = [] ∨ ∃ before, frontChars rooted stack = before ++ ['/'] := by
  unfold frontChars
  split
  · cases rooted with
    | true => exact Or.inr ⟨[], rfl⟩
    | false => exact Or.inl rfl
  · exact Or.inr ⟨_, rfl⟩

/-- The part before the last slash, cleaned, is the path of the segments before. -/
theorem CleanStack.cleanPath_frontChars (clean : CleanStack rooted stack) :
    cleanPath (String.ofList (frontChars rooted stack)) = pathText (pathChars rooted stack) := by
  unfold frontChars
  split
  · next hempty =>
      rw [hempty]
      cases rooted <;> decide
  · next hempty =>
      have hnonempty := clean.pathChars_ne_nil hempty
      rw [cleanPath_eq, String.toList_ofList, isRooted_append hnonempty,
        cleanStack_slash hnonempty, clean.isRooted_pathChars, clean.cleanStack_pathChars]
      rfl

theorem dropWhile_reverse {front segment : List Char} (no_slash : '/' ∉ segment)
    (slash : front = [] ∨ ∃ before, front = before ++ ['/']) :
    ((front ++ segment).reverse.dropWhile fun c => c ≠ '/').reverse = front := by
  have hdropped : ∀ c ∈ segment.reverse, decide (c ≠ '/') = true := by
    intro c hc
    rw [decide_eq_true_eq]
    rintro rfl
    exact no_slash (List.mem_reverse.mp hc)
  rw [List.reverse_append, List.dropWhile_append_of_pos hdropped]
  rcases slash with rfl | ⟨before, rfl⟩
  · rfl
  · rw [List.reverse_append, List.reverse_singleton, List.singleton_append,
      List.dropWhile_cons_of_neg (by simp)]
    simp

theorem takeWhile_reverse {front segment : List Char} (nonempty : segment ≠ [])
    (no_slash : '/' ∉ segment) (slash : front = [] ∨ ∃ before, front = before ++ ['/']) :
    (((front ++ segment).reverse.dropWhile fun c => c = '/').takeWhile
      fun c => c ≠ '/').reverse = segment := by
  have hkept : ∀ c ∈ segment.reverse, decide (c ≠ '/') = true := by
    intro c hc
    rw [decide_eq_true_eq]
    rintro rfl
    exact no_slash (List.mem_reverse.mp hc)
  have hdrop : ((segment.reverse ++ front.reverse).dropWhile fun c => decide (c = '/')) =
      segment.reverse ++ front.reverse := by
    cases hreverse : segment.reverse with
    | nil => exact absurd (List.reverse_eq_nil_iff.mp hreverse) nonempty
    | cons c rest =>
        have hc := of_decide_eq_true (hkept c (by rw [hreverse]; exact List.mem_cons_self))
        exact List.dropWhile_cons_of_neg (by simpa using hc)
  have hstop : (front.reverse.takeWhile fun c => decide (c ≠ '/')) = [] := by
    rcases slash with rfl | ⟨before, rfl⟩
    · rfl
    · rw [List.reverse_append, List.reverse_singleton, List.singleton_append]
      exact List.takeWhile_cons_of_neg (by simp)
  rw [List.reverse_append, hdrop, List.takeWhile_append_of_pos hkept, hstop, List.append_nil,
    List.reverse_reverse]

theorem cleanPath_ne_empty (path : String) : cleanPath path ≠ "" := by
  intro hempty
  have hchars := congrArg String.toList hempty
  rw [cleanPath_eq, toList_pathText] at hchars
  split at hchars
  · cases hchars
  · next hfull => exact hfull hchars

/-- A name joined to a directory follows the cleaned segments of the directory. -/
theorem joinPath_name (dir : String) {name : String} (named : IsName name.toList) :
    joinPath [dir, name] = String.ofList
      (frontChars (isRooted dir.toList) (cleanStack dir.toList) ++ name.toList) := by
  have hname : name ≠ "" := by
    rintro rfl
    exact named.nonempty rfl
  have hnonempty : pathChars (isRooted dir.toList) (name.toList :: cleanStack dir.toList) ≠ [] := by
    rw [pathChars_cons]
    exact List.append_ne_nil_of_right_ne_nil _ named.nonempty
  have hcleaned : joinPath [dir, name] = pathText
      (pathChars (isRooted dir.toList) (name.toList :: cleanStack dir.toList)) := by
    have hsegments := segments_of_no_slash named.no_slash
    by_cases hdir : dir = ""
    · have hsingle : joinPath [dir, name] = cleanPath name := by
        rw [hdir]
        unfold joinPath
        rw [List.dropWhile_cons_of_pos (by simp), List.dropWhile_cons_of_neg (by simpa using hname)]
        rfl
      have hrooted := named.not_rooted
      rw [hsingle, cleanPath_eq, hrooted, cleanStack, hrooted, hsegments, hdir, List.foldl_cons,
        List.foldl_nil, cleanStep_name named]
      rfl
    · have hlist : dir.toList ≠ [] := by simpa using hdir
      have hpair : joinPath [dir, name] = cleanPath (dir ++ "/" ++ name) := by
        unfold joinPath
        rw [List.dropWhile_cons_of_neg (by simpa using hdir)]
        simp
      have hchars : (dir ++ "/" ++ name).toList = dir.toList ++ '/' :: name.toList := by
        rw [String.toList_append, String.toList_append, List.append_assoc]
        rfl
      rw [hpair, cleanPath_eq, hchars, isRooted_append hlist, cleanStack_slash hlist, hsegments,
        List.foldl_cons, List.foldl_nil, cleanStep_name named]
  rw [hcleaned, pathText, if_neg hnonempty, pathChars_cons]

/-- The directory of a name that was joined to a directory is that directory, cleaned. -/
theorem dirPath_joinPath (dir : String) {name : String} (named : IsName name.toList) :
    dirPath (joinPath [dir, name]) = cleanPath dir := by
  rw [joinPath_name dir named, dirPath, String.toList_ofList,
    dropWhile_reverse named.no_slash (frontChars_slash _ _),
    (cleanStack_clean dir.toList).cleanPath_frontChars, cleanPath_eq]

/-- The last element of a name that was joined to a directory is the name. -/
theorem basePath_joinPath (dir : String) {name : String} (named : IsName name.toList) :
    basePath (joinPath [dir, name]) = name := by
  have hnonempty : joinPath [dir, name] ≠ "" := by
    rw [joinPath_name dir named, ne_eq, String.ofList_eq_empty_iff]
    exact List.append_ne_nil_of_right_ne_nil _ named.nonempty
  unfold basePath
  rw [if_neg hnonempty, joinPath_name dir named, String.toList_ofList,
    takeWhile_reverse named.nonempty named.no_slash (frontChars_slash _ _)]
  dsimp only
  rw [if_neg named.nonempty, String.ofList_toList]

/-- The last element of a path is `/` or has no slash. -/
theorem basePath_no_slash (path : String) :
    basePath path ≠ "" ∧ (basePath path = "/" ∨ '/' ∉ (basePath path).toList) := by
  unfold basePath
  split
  · decide
  · dsimp only
    split
    · decide
    · next hlast =>
        refine ⟨by simpa only [ne_eq, String.ofList_eq_empty_iff] using hlast, Or.inr ?_⟩
        rw [String.toList_ofList, List.mem_reverse]
        intro hslash
        have hall := List.all_eq_true.mp List.all_takeWhile '/' hslash
        exact absurd rfl (of_decide_eq_true hall)

end OpsUp.Go
