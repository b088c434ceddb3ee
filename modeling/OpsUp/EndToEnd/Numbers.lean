import OpsUp.Api.TerminalFrames

/-!
# Numbers on the way to the server

The browser writes numbers as decimal digits, in the path of a request or in a message, and
the server reads them back where they fit into 64 bits.
-/

namespace OpsUp.EndToEnd

open OpsUp.Api OpsUp.Go OpsUp.Js

theorem isDigit_toDigits {n : Nat} : ∀ c ∈ Nat.toDigits 10 n, c.isDigit = true := fun _ hc =>
  Nat.isDigit_of_mem_toDigits (by omega) (by omega) hc

theorem parseDigits_toDigits (n : Nat) : parseDigits (Nat.toDigits 10 n) = some n := by
  have hspelled := decimalValue_of_isDigit (@isDigit_toDigits n) 0
  rw [Nat.ofDigitChars_ten_toDigits] at hspelled
  cases hdigits : Nat.toDigits 10 n with
  | nil => exact absurd hdigits Nat.toDigits_ne_nil
  | cons c rest =>
      rw [hdigits] at hspelled
      exact hspelled

theorem parseInt_toDigits (n : Nat) : parseInt (String.ofList (Nat.toDigits 10 n)) =
    if n < int64Cutoff then some (n : Int) else none := by
  have hunsigned : ∀ sign : Char, sign.isDigit = false → ∀ rest, Nat.toDigits 10 n ≠ sign :: rest := by
    intro sign hnone rest hhead
    have hfirst := isDigit_toDigits sign (hhead ▸ List.mem_cons_self)
    rw [hnone] at hfirst
    cases hfirst
  rw [parseInt, String.toList_ofList]
  split
  · next hhead => exact absurd hhead (hunsigned '-' rfl _)
  · next hhead => exact absurd hhead (hunsigned '+' rfl _)
  · rw [parseDigits_toDigits]
    rfl

/-- The bytes of a JSON number. -/
theorem parseInt_decimalBytes (n : Nat) :
    parseInt (String.ofList ((decimalBytes n).map fun b => Char.ofNat b.toNat)) =
      if n < int64Cutoff then some (n : Int) else none := by
  have hchars : (decimalBytes n).map (fun b => Char.ofNat b.toNat) = Nat.toDigits 10 n := by
    rw [decimalBytes, List.map_map]
    conv_rhs => rw [← List.map_id (Nat.toDigits 10 n)]
    exact List.map_congr_left fun c hc => (digitByte_of_isDigit (isDigit_toDigits c hc)).2
  rw [hchars, parseInt_toDigits]

/-- No other number is read from its digits. -/
theorem eq_of_parseInt_toString {n read : Int} (parsed : parseInt (toString n) = some read) :
    read = n := by
  cases n with
  | ofNat value =>
      have htext : toString (Int.ofNat value) = String.ofList (Nat.toDigits 10 value) := rfl
      rw [htext, parseInt_toDigits] at parsed
      exact (Option.ite_some_none_eq_some.mp parsed).2.symm
  | negSucc value =>
      have htext : (toString (Int.negSucc value)).toList = '-' :: Nat.toDigits 10 (value + 1) := by
        change ("-" ++ Nat.repr (value + 1)).toList = _
        rw [String.toList_append, Nat.toList_repr]
        rfl
      rw [parseInt, htext] at parsed
      simp only [parseDigits_toDigits] at parsed
      exact (Option.ite_some_none_eq_some.mp parsed).2.symm

end OpsUp.EndToEnd
