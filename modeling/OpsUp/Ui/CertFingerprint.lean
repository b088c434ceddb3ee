import OpsUp.Api.RdpPins
import OpsUp.Js.Pattern

/-!
# The certificate fingerprint field of the server form

The form takes 64 hexadecimal digits, or 32 pairs of them with colons between.  What it
takes spells a digest for the server, and what the server stores the form takes again.
-/

namespace OpsUp.Ui

open OpsUp.Api OpsUp.Go OpsUp.Js

/-- `[a-fA-F0-9]` -/
def hexClass (unit : UInt16) : Bool :=
  let n := unit.toNat
  ('a'.toNat ≤ n && n ≤ 'f'.toNat) || ('A'.toNat ≤ n && n ≤ 'F'.toNat) ||
    ('0'.toNat ≤ n && n ≤ '9'.toNat)

/-- `[a-fA-F0-9]{64}` -/
def plainCertPattern : Pattern UInt16 := .repeated hexClass 64

/-- `(?:[a-fA-F0-9]{2}:){count}[a-fA-F0-9]{2}` -/
def colonCertPattern : Nat → Pattern UInt16
  | 0 => .repeated hexClass 2
  | count + 1 => .repeated hexClass 2 ++ (.literal (jsString ":") ++ colonCertPattern count)

/-- `/^(?:[a-fA-F0-9]{64}|(?:[a-fA-F0-9]{2}:){31}[a-fA-F0-9]{2})$/.test` -/
def certPatternTest (fingerprint : String) : Bool :=
  plainCertPattern.test (jsString fingerprint) || (colonCertPattern 31).test (jsString fingerprint)

/-- A hexadecimal digit. -/
def IsHex (c : Char) : Prop := (fromHexChar c).isSome = true

theorem onChar_hexClass (c : Char) : Pattern.onChar hexClass c = true ↔ IsHex c := by
  unfold IsHex fromHexChar
  rw [Pattern.onChar, Bool.and_eq_true, decide_eq_true_eq]
  constructor
  · rintro ⟨hunit, hclass⟩
    rw [hexClass, UInt16.toNat_ofNat_of_lt' hunit] at hclass
    simp only [Bool.or_eq_true, Bool.and_eq_true, decide_eq_true_eq] at hclass
    split
    · rfl
    · split
      · rfl
      · split
        · rfl
        · omega
  · intro hdigit
    have hcases : ('0'.toNat ≤ c.toNat ∧ c.toNat ≤ '9'.toNat) ∨
        ('a'.toNat ≤ c.toNat ∧ c.toNat ≤ 'f'.toNat) ∨
          ('A'.toNat ≤ c.toNat ∧ c.toNat ≤ 'F'.toNat) := by
      split at hdigit
      · next h => exact .inl h
      · split at hdigit
        · next h => exact .inr (.inl h)
        · split at hdigit
          · next h => exact .inr (.inr h)
          · cases hdigit
    have hunit : c.toNat < 0x10000 := by
      simp only [Char.reduceToNat] at hcases
      omega
    refine ⟨hunit, ?_⟩
    rw [hexClass, UInt16.toNat_ofNat_of_lt' hunit]
    simp only [Bool.or_eq_true, Bool.and_eq_true, decide_eq_true_eq]
    tauto

theorem hexClass_plain {unit : UInt16} (surrogate : 0xd800 ≤ unit.toNat) : hexClass unit = false := by
  rw [hexClass]
  simp only [Char.reduceToNat, Bool.or_eq_false_iff, Bool.and_eq_false_iff, decide_eq_false_iff_not]
  omega

theorem withoutSurrogates_hex (count : Nat) :
    (Pattern.repeated hexClass count).WithoutSurrogates := by
  intro accepts haccepts unit hsurrogate
  rw [List.eq_of_mem_replicate haccepts]
  exact hexClass_plain hsurrogate

theorem withoutSurrogates_colon : (Pattern.literal (jsString ":")).WithoutSurrogates := by
  intro accepts haccepts unit hsurrogate
  obtain rfl := List.mem_singleton.mp haccepts
  apply decide_eq_false
  rintro rfl
  exact absurd hsurrogate (by decide)

theorem withoutSurrogates_colonCertPattern (count : Nat) :
    (colonCertPattern count).WithoutSurrogates := by
  induction count with
  | zero => exact withoutSurrogates_hex 2
  | succ count ih =>
      intro accepts haccepts
      rcases List.mem_append.mp haccepts with hdigits | hrest
      · exact withoutSurrogates_hex 2 accepts hdigits
      · rcases List.mem_append.mp hrest with hcolon | hrest
        · exact withoutSurrogates_colon accepts hcolon
        · exact ih accepts hrest

theorem map_onChar_repeated (count : Nat) :
    (Pattern.repeated hexClass count).map Pattern.onChar =
      Pattern.repeated (Pattern.onChar hexClass) count := List.map_replicate

theorem plainCertPattern_iff {fingerprint : String} :
    plainCertPattern.test (jsString fingerprint) = true ↔
      fingerprint.toList.length = 64 ∧ ∀ c ∈ fingerprint.toList, IsHex c := by
  rw [jsString, plainCertPattern, Pattern.test_jsString (withoutSurrogates_hex 64),
    map_onChar_repeated, Pattern.test_repeated]
  simp only [onChar_hexClass]

/-- The text between the colons. -/
def withoutColons (chars : List Char) : List Char := chars.filter fun c => c ≠ ':'

theorem IsHex.ne_colon {c : Char} (digit : IsHex c) : c ≠ ':' := by
  rintro rfl
  exact absurd digit (by unfold IsHex; decide)

theorem withoutColons_of_hex {chars : List Char} (digits : ∀ c ∈ chars, IsHex c) :
    withoutColons chars = chars :=
  List.filter_eq_self.mpr fun c hc => decide_eq_true (digits c hc).ne_colon

/-- Pairs of digits with colons between. -/
structure Pairs (count : Nat) (chars : List Char) : Prop where
  digits : ∀ c ∈ chars, IsHex c ∨ c = ':'
  length : (withoutColons chars).length = 2 * (count + 1)

theorem pairs_of_length {count : Nat} {chars : List Char} (digits : ∀ c ∈ chars, IsHex c)
    (length : chars.length = 2 * (count + 1)) : Pairs count chars where
  digits := fun c hc => .inl (digits c hc)
  length := by rw [withoutColons_of_hex digits, length]

theorem Pairs.cons {count : Nat} {first rest : List Char} (pairs : Pairs count rest)
    (digits : ∀ c ∈ first, IsHex c) (length : first.length = 2) :
    Pairs (count + 1) (first ++ ([':'] ++ rest)) where
  digits := by
    intro c hc
    rcases List.mem_append.mp hc with hfirst | hrest
    · exact .inl (digits c hfirst)
    · rcases List.mem_append.mp hrest with hcolon | hrest
      · exact .inr (List.mem_singleton.mp hcolon)
      · exact pairs.digits c hrest
  length := by
    have hfirst : first.filter (fun c => c ≠ ':') = first := withoutColons_of_hex digits
    have hcolon : [':'].filter (fun c => c ≠ ':') = [] := by decide
    have hrest : (rest.filter fun c => c ≠ ':').length = 2 * (count + 1) := pairs.length
    rw [withoutColons, List.filter_append, List.filter_append, hfirst, hcolon, List.nil_append,
      List.length_append, length, hrest]
    omega

theorem pairs_of_colonCertPattern {count : Nat} {chars : List Char}
    (matched : Pattern.test ((colonCertPattern count).map Pattern.onChar) chars = true) :
    Pairs count chars := by
  induction count generalizing chars with
  | zero =>
      rw [colonCertPattern, map_onChar_repeated] at matched
      obtain ⟨hlength, hdigits⟩ := Pattern.test_repeated.mp matched
      exact pairs_of_length (fun c hc => (onChar_hexClass c).mp (hdigits c hc)) hlength
  | succ count ih =>
      rw [colonCertPattern, List.map_append, List.map_append, map_onChar_repeated] at matched
      obtain ⟨first, back, rfl, hfirst, hback⟩ := Pattern.test_append.mp matched
      obtain ⟨colon, rest, rfl, hcolon, hrest⟩ := Pattern.test_append.mp hback
      have hunits : ∀ c ∈ [':'], c.toNat < 0x10000 := by
        intro c hc
        obtain rfl := List.mem_singleton.mp hc
        decide
      obtain rfl := (Pattern.test_onChar_literal hunits).mp hcolon
      obtain ⟨hlength, hdigits⟩ := Pattern.test_repeated.mp hfirst
      exact (ih hrest).cons (fun c hc => (onChar_hexClass c).mp (hdigits c hc)) hlength

/-! ## What the server makes of it -/

theorem IsHex.not_space {c : Char} (digit : IsHex c ∨ c = ':') : isSpace c = false := by
  rcases digit with hdigit | rfl
  · have hclass := (onChar_hexClass c).mpr hdigit
    rw [Pattern.onChar, Bool.and_eq_true, decide_eq_true_eq] at hclass
    obtain ⟨hunit, hclass⟩ := hclass
    rw [hexClass, UInt16.toNat_ofNat_of_lt' hunit] at hclass
    simp only [Char.reduceToNat, Bool.or_eq_true, Bool.and_eq_true, decide_eq_true_eq] at hclass
    unfold isSpace
    simp only [Bool.or_eq_false_iff, Bool.and_eq_false_iff, decide_eq_false_iff_not]
    omega
  · decide

theorem pinDigits_of_pairs {count : Nat} {fingerprint : String}
    (pairs : Pairs count fingerprint.toList) :
    (pinDigits fingerprint).toList = withoutColons fingerprint.toList := by
  have htrimmed : trimSpace fingerprint = fingerprint :=
    trimSpace_of_visible fun c hc => IsHex.not_space (pairs.digits c hc)
  rw [pinDigits, htrimmed, removeAll, String.toList_ofList]
  rfl

theorem spellsDigest_of_pairs {fingerprint : String} (pairs : Pairs 31 fingerprint.toList) :
    ∃ digest, SpellsDigest fingerprint digest := by
  have hdigits : ∀ c ∈ withoutColons fingerprint.toList, IsHex c := by
    intro c hc
    obtain ⟨hmem, hcolon⟩ := List.mem_filter.mp hc
    exact (pairs.digits c hmem).resolve_right (of_decide_eq_true hcolon)
  obtain ⟨digest, hdecoded, hlength⟩ := hexDecodeChars_digits pairs.length hdigits
  refine ⟨digest, ?_, hlength⟩
  rw [hexDecodeString, pinDigits_of_pairs pairs]
  exact hdecoded

/-- What the form takes the server takes. -/
theorem spellsDigest_of_certPatternTest {fingerprint : String}
    (matched : certPatternTest fingerprint = true) : ∃ digest, SpellsDigest fingerprint digest := by
  apply spellsDigest_of_pairs
  rcases (Bool.or_eq_true _ _).mp matched with hplain | hcolon
  · obtain ⟨hlength, hdigits⟩ := plainCertPattern_iff.mp hplain
    exact pairs_of_length hdigits hlength
  · rw [jsString, Pattern.test_jsString (withoutSurrogates_colonCertPattern 31)] at hcolon
    exact pairs_of_colonCertPattern hcolon

end OpsUp.Ui
