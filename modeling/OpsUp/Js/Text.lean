import OpsUp.Go.Strings

/-!
# Texts of the browser

A text is a sequence of UTF-16 code units, and not every sequence is well formed.
-/

namespace OpsUp.Js

open OpsUp.Go

abbrev JsString := List UInt16

def isHighSurrogate (u : UInt16) : Bool := 0xd800 ≤ u && u < 0xdc00

def isLowSurrogate (u : UInt16) : Bool := 0xdc00 ≤ u && u < 0xe000

/-- A character of a literal. -/
def utf16Units (c : Char) : List UInt16 :=
  if c.toNat < 0x10000 then [UInt16.ofNat c.toNat]
  else
    [UInt16.ofNat (0xd800 + (c.toNat - 0x10000) / 0x400),
      UInt16.ofNat (0xdc00 + (c.toNat - 0x10000) % 0x400)]

/-- A string literal. -/
def jsString (text : String) : JsString := text.toList.flatMap utf16Units

/-- `new TextEncoder().encode`: a surrogate without its partner becomes U+FFFD. -/
def textEncode : JsString → Bytes
  | [] => []
  | [u] => scalarBytes u.toNat
  | u :: v :: rest =>
      if isHighSurrogate u && isLowSurrogate v then
        scalarBytes (0x10000 + (u.toNat - 0xd800) * 0x400 + (v.toNat - 0xdc00)) ++ textEncode rest
      else scalarBytes u.toNat ++ textEncode (v :: rest)

/-- The decimal digits of a natural number below `1e21`, as `JSON.stringify` writes it. -/
def decimalBytes (n : Nat) : Bytes := (Nat.toDigits 10 n).map fun c => UInt8.ofNat c.toNat

/-! ## White space -/

/-- A white space or a line terminator. -/
def isWhiteSpace (c : Char) : Bool :=
  let n := c.toNat
  (9 ≤ n && n ≤ 13) || n = 32 || n = 0xa0 || n = 0x1680 || (0x2000 ≤ n && n ≤ 0x200a) ||
    n = 0x2028 || n = 0x2029 || n = 0x202f || n = 0x205f || n = 0x3000 || n = 0xfeff

/-- `String.prototype.trim`, of a text without lone surrogates. -/
def trim (text : String) : String :=
  String.ofList
    (((text.toList.dropWhile isWhiteSpace).reverse.dropWhile isWhiteSpace).reverse)

theorem trim_of_visible {text : String} (visible : ∀ c ∈ text.toList, isWhiteSpace c = false) :
    trim text = text := by
  have hkept : ∀ chars : List Char, (∀ c ∈ chars, isWhiteSpace c = false) →
      chars.dropWhile isWhiteSpace = chars := by
    intro chars hchars
    cases chars with
    | nil => rfl
    | cons c rest => rw [List.dropWhile_cons_of_neg (by simp [hchars c List.mem_cons_self])]
  rw [trim, hkept _ visible, hkept _ (by simpa using visible), List.reverse_reverse,
    String.ofList_toList]

example : textEncode [0xd83d, 0xde00, 0xde00, 0x41] =
    [0xf0, 0x9f, 0x98, 0x80, 0xef, 0xbf, 0xbd, 0x41] := by decide

end OpsUp.Js
