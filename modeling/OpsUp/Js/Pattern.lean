import OpsUp.Js.Text

/-!
# Patterns of a fixed length

Regular expressions between `^` and `$` that are made of literal characters, classes
and counted repetitions match texts of one length, place by place.  Places are UTF-16
code units; where only ASCII units are accepted, the characters of a text are its
places.
-/

namespace OpsUp.Js

variable {α : Type}

/-- A class for each place of the text. -/
abbrev Pattern (α : Type) := List (α → Bool)

namespace Pattern

/-- `RegExp.prototype.test` -/
def test : Pattern α → List α → Bool
  | [], [] => true
  | accepts :: pattern, place :: rest => accepts place && test pattern rest
  | _, _ => false

def literal [DecidableEq α] (text : List α) : Pattern α := text.map fun expected place =>
  decide (place = expected)

/-- `[...]{count}` -/
def repeated (accepts : α → Bool) (count : Nat) : Pattern α := List.replicate count accepts

theorem test_append {front back : Pattern α} {text : List α} :
    test (front ++ back) text = true ↔
      ∃ start rest, text = start ++ rest ∧ test front start = true ∧ test back rest = true := by
  induction front generalizing text with
  | nil =>
      constructor
      · intro htext
        exact ⟨[], text, rfl, rfl, htext⟩
      · rintro ⟨start, rest, rfl, hstart, hrest⟩
        cases start with
        | nil => exact hrest
        | cons place tail => cases hstart
  | cons accepts front ih =>
      cases text with
      | nil =>
          constructor
          · nofun
          · rintro ⟨start, rest, htext, hstart, -⟩
            rw [(List.append_eq_nil_iff.mp htext.symm).1] at hstart
            cases hstart
      | cons place tail =>
          rw [List.cons_append, test, Bool.and_eq_true, ih]
          constructor
          · rintro ⟨hplace, start, rest, rfl, hstart, hrest⟩
            refine ⟨place :: start, rest, rfl, ?_, hrest⟩
            rw [test, hplace, hstart]
            rfl
          · rintro ⟨start, rest, htext, hstart, hrest⟩
            cases start with
            | nil => cases hstart
            | cons first others =>
                obtain ⟨rfl, rfl⟩ := List.cons.inj htext
                rw [test, Bool.and_eq_true] at hstart
                exact ⟨hstart.1, others, rest, rfl, hstart.2, hrest⟩

theorem test_repeated {accepts : α → Bool} {count : Nat} {text : List α} :
    test (repeated accepts count) text = true ↔
      text.length = count ∧ ∀ place ∈ text, accepts place = true := by
  unfold repeated
  induction count generalizing text with
  | zero => cases text <;> simp [test]
  | succ count ih =>
      cases text with
      | nil => simp [test, List.replicate_succ]
      | cons place rest =>
          simp only [List.replicate_succ, test, Bool.and_eq_true, ih, List.length_cons,
            List.mem_cons, forall_eq_or_imp, Nat.add_right_cancel_iff]
          tauto

/-! ## Characters for code units -/

/-- The class, for characters that are one unit each. -/
def onChar (accepts : UInt16 → Bool) (c : Char) : Bool :=
  decide (c.toNat < 0x10000) && accepts (UInt16.ofNat c.toNat)

/-- No surrogate is accepted at any place. -/
def WithoutSurrogates (pattern : Pattern UInt16) : Prop :=
  ∀ accepts ∈ pattern, ∀ unit : UInt16, 0xd800 ≤ unit.toNat → accepts unit = false

/-- Such a pattern may be read as one of characters. -/
theorem test_jsString {pattern : Pattern UInt16} (plain : WithoutSurrogates pattern)
    (text : List Char) :
    test pattern (text.flatMap utf16Units) = test (pattern.map onChar) text := by
  induction pattern generalizing text with
  | nil =>
      cases text with
      | nil => rfl
      | cons c rest =>
          rw [List.flatMap_cons, utf16Units]
          split <;> rfl
  | cons accepts pattern ih =>
      have hrest := ih fun other hother => plain other (List.mem_cons_of_mem _ hother)
      cases text with
      | nil => rfl
      | cons c rest =>
          rw [List.flatMap_cons, List.map_cons, test, onChar, ← hrest, utf16Units]
          split
          · next hunit =>
              rw [List.singleton_append, test, decide_eq_true hunit, Bool.true_and]
          · next hunit =>
              have hscalar : c.toNat < 0x110000 := by
                have hvalid := c.valid
                simp only [UInt32.isValidChar, Nat.isValidChar] at hvalid
                change c.val.toNat < _
                omega
              have hhigh : accepts (UInt16.ofNat (0xd800 + (c.toNat - 0x10000) / 0x400)) = false := by
                apply plain accepts List.mem_cons_self
                rw [UInt16.toNat_ofNat_of_lt' (by change _ < 65536; omega)]
                omega
              rw [List.cons_append, test, hhigh, decide_eq_false hunit]
              rfl

/-- A literal of characters that are one unit each matches itself. -/
theorem test_onChar_literal {expected : List Char} (units : ∀ c ∈ expected, c.toNat < 0x10000)
    {text : List Char} :
    test ((literal (expected.flatMap utf16Units)).map onChar) text = true ↔ text = expected := by
  induction expected generalizing text with
  | nil => cases text <;> simp [literal, test]
  | cons first others ih =>
      have hfirst := units first List.mem_cons_self
      have hunits : ∀ c ∈ others, c.toNat < 0x10000 := fun c hc =>
        units c (List.mem_cons_of_mem _ hc)
      cases text with
      | nil =>
          rw [List.flatMap_cons, utf16Units, if_pos hfirst]
          simp [literal, test]
      | cons c rest =>
          have hsame : onChar (fun place => decide (place = UInt16.ofNat first.toNat)) c = true ↔
              c = first := by
            unfold onChar
            rw [Bool.and_eq_true, decide_eq_true_eq, decide_eq_true_eq]
            constructor
            · rintro ⟨hunit, hcode⟩
              have hnat := congrArg UInt16.toNat hcode
              rw [UInt16.toNat_ofNat_of_lt' hunit, UInt16.toNat_ofNat_of_lt' hfirst] at hnat
              exact Char.toNat_inj.mp hnat
            · rintro rfl
              exact ⟨hfirst, rfl⟩
          have hmap : (literal ((first :: others).flatMap utf16Units)).map onChar =
              onChar (fun place => decide (place = UInt16.ofNat first.toNat)) ::
                (literal (others.flatMap utf16Units)).map onChar := by
            rw [List.flatMap_cons, utf16Units, if_pos hfirst]
            rfl
          rw [hmap, test, Bool.and_eq_true, hsame, ih hunits, List.cons.injEq]

end Pattern

end OpsUp.Js
