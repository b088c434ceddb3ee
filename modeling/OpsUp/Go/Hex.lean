import OpsUp.Go.Strings

/-!
# Hexadecimal text

`encoding/hex`: encoding writes lower-case digits, decoding accepts both cases.
-/

namespace OpsUp.Go

/-- `reverseHexTable`: the value of a hexadecimal digit of either case. -/
def fromHexChar (c : Char) : Option Nat :=
  if '0'.toNat ≤ c.toNat ∧ c.toNat ≤ '9'.toNat then some (c.toNat - '0'.toNat)
  else if 'a'.toNat ≤ c.toNat ∧ c.toNat ≤ 'f'.toNat then some (c.toNat - 'a'.toNat + 10)
  else if 'A'.toNat ≤ c.toNat ∧ c.toNat ≤ 'F'.toNat then some (c.toNat - 'A'.toNat + 10)
  else none

/-- One digit of `"0123456789abcdef"`. -/
def hexDigit (value : Nat) : Char :=
  if value < 10 then Char.ofNat ('0'.toNat + value) else Char.ofNat ('a'.toNat + (value - 10))

def IsLowerHex (c : Char) : Prop :=
  ('0'.toNat ≤ c.toNat ∧ c.toNat ≤ '9'.toNat) ∨ ('a'.toNat ≤ c.toNat ∧ c.toNat ≤ 'f'.toNat)

instance (c : Char) : Decidable (IsLowerHex c) := by
  unfold IsLowerHex
  infer_instance

def hexChars (bytes : Bytes) : List Char :=
  bytes.flatMap fun byte => [hexDigit (byte.toNat / 16), hexDigit (byte.toNat % 16)]

/-- `hex.EncodeToString`. -/
def hexEncodeToString (bytes : Bytes) : String := String.ofList (hexChars bytes)

def errInvalidByte : String := "encoding/hex: invalid byte"

def errLength : String := "encoding/hex: odd length hex string"

def hexDecodeChars : List Char → Except String Bytes
  | [] => .ok []
  | [last] =>
      match fromHexChar last with
      | none => .error errInvalidByte
      | some _ => .error errLength
  | high :: low :: rest =>
      match fromHexChar high, fromHexChar low with
      | some first, some second =>
          match hexDecodeChars rest with
          | .error err => .error err
          | .ok bytes => .ok (UInt8.ofNat (16 * first + second) :: bytes)
      | _, _ => .error errInvalidByte

/-- `hex.DecodeString`. -/
def hexDecodeString (text : String) : Except String Bytes := hexDecodeChars text.toList

theorem hexDigit_toNat {value : Nat} (small : value < 16) :
    (hexDigit value).toNat = if value < 10 then 48 + value else 87 + value := by
  unfold hexDigit
  simp only [Char.reduceToNat]
  split
  · exact toNat_ofNat_of_lt (by omega)
  · rw [toNat_ofNat_of_lt (by omega)]
    omega

@[simp]
theorem fromHexChar_hexDigit {value : Nat} (small : value < 16) :
    fromHexChar (hexDigit value) = some value := by
  unfold fromHexChar
  simp only [Char.reduceToNat, hexDigit_toNat small]
  split
  · rw [if_pos (by omega)]
    congr 1
    omega
  · rw [if_neg (by omega), if_pos (by omega)]
    congr 1
    omega

theorem hexDecodeChars_hexChars (bytes : Bytes) : hexDecodeChars (hexChars bytes) = .ok bytes := by
  induction bytes with
  | nil => rfl
  | cons byte rest ih =>
      have hbyte := byte.toNat_lt
      have hvalue : 16 * (byte.toNat / 16) + byte.toNat % 16 = byte.toNat := by omega
      change hexDecodeChars (_ :: _ :: hexChars rest) = _
      rw [hexDecodeChars, fromHexChar_hexDigit (by omega), fromHexChar_hexDigit (by omega)]
      simp only [ih, hvalue, UInt8.ofNat_toNat]

@[simp]
theorem hexDecodeString_hexEncodeToString (bytes : Bytes) :
    hexDecodeString (hexEncodeToString bytes) = .ok bytes := by
  rw [hexDecodeString, hexEncodeToString, String.toList_ofList, hexDecodeChars_hexChars]

theorem hexEncodeToString_injective {first second : Bytes}
    (same : hexEncodeToString first = hexEncodeToString second) : first = second := by
  have hdecoded := congrArg hexDecodeString same
  simpa using hdecoded

theorem hexEncodeToString_ne_empty {bytes : Bytes} (nonempty : bytes ≠ []) :
    hexEncodeToString bytes ≠ "" := by
  intro hempty
  exact nonempty (hexEncodeToString_injective hempty)

/-- Decoding succeeds on hexadecimal digits only, two for each byte. -/
theorem hexDecodeChars_ok {chars : List Char} {bytes : Bytes}
    (decoded : hexDecodeChars chars = .ok bytes) :
    chars.length = 2 * bytes.length ∧ ∀ c ∈ chars, (fromHexChar c).isSome := by
  induction chars using hexDecodeChars.induct generalizing bytes with
  | case1 =>
      cases decoded
      simp
  | case2 last hlast => simp [hexDecodeChars, hlast] at decoded
  | case3 last value hlast => simp [hexDecodeChars, hlast] at decoded
  | case4 high low rest first second hsecond hfirst err herr ih =>
      simp [hexDecodeChars, hfirst, hsecond, herr] at decoded
  | case5 high low rest first second hsecond hfirst tail htail ih =>
      simp only [hexDecodeChars, hfirst, hsecond, htail, Except.ok.injEq] at decoded
      subst decoded
      obtain ⟨hlength, hdigits⟩ := ih htail
      constructor
      · simp only [List.length_cons, hlength]
        omega
      · intro c hc
        rcases List.mem_cons.mp hc with rfl | hc
        · simp [hfirst]
        · rcases List.mem_cons.mp hc with rfl | hc
          · simp [hsecond]
          · exact hdigits c hc
  | case6 high low rest hnone => simp [hexDecodeChars] at decoded

/-- An even number of digits decodes. -/
theorem hexDecodeChars_digits {chars : List Char} {count : Nat} (length : chars.length = 2 * count)
    (digits : ∀ c ∈ chars, (fromHexChar c).isSome) :
    ∃ bytes, hexDecodeChars chars = .ok bytes ∧ bytes.length = count := by
  induction count generalizing chars with
  | zero =>
      obtain rfl := List.eq_nil_of_length_eq_zero length
      exact ⟨[], rfl, rfl⟩
  | succ count ih =>
      obtain ⟨high, low, rest, rfl⟩ : ∃ high low rest, chars = high :: low :: rest := by
        rcases chars with _ | ⟨high, _ | ⟨low, rest⟩⟩
        · simp at length
        · simp only [List.length_singleton] at length
          omega
        · exact ⟨high, low, rest, rfl⟩
      simp only [List.length_cons] at length
      obtain ⟨first, hfirst⟩ := Option.isSome_iff_exists.mp (digits high (by simp))
      obtain ⟨second, hsecond⟩ := Option.isSome_iff_exists.mp (digits low (by simp))
      obtain ⟨bytes, hrest, hcount⟩ := ih (by omega) fun c (hc : c ∈ rest) =>
        digits c (by simp [hc])
      refine ⟨UInt8.ofNat (16 * first + second) :: bytes, ?_, by rw [List.length_cons, hcount]⟩
      simp only [hexDecodeChars, hfirst, hsecond, hrest]

/-- A hexadecimal digit that is no upper-case letter is a lower-case digit. -/
theorem isLowerHex_of_fromHexChar {c : Char} (digit : (fromHexChar c).isSome)
    (notUpper : ¬ ('A'.toNat ≤ c.toNat ∧ c.toNat ≤ 'Z'.toNat)) : IsLowerHex c := by
  unfold fromHexChar at digit
  unfold IsLowerHex
  simp only [Char.reduceToNat] at *
  split at digit
  · omega
  · split at digit
    · omega
    · split at digit
      · omega
      · simp at digit

theorem isLowerHex_iff {c : Char} :
    IsLowerHex c ↔ (48 ≤ c.toNat ∧ c.toNat ≤ 57) ∨ (97 ≤ c.toNat ∧ c.toNat ≤ 102) := Iff.rfl

theorem isLowerHex_hexDigit {value : Nat} (small : value < 16) : IsLowerHex (hexDigit value) := by
  rw [isLowerHex_iff, hexDigit_toNat small]
  split <;> omega

/-- Encoded text has lower-case digits only. -/
theorem isLowerHex_of_mem_hexChars {bytes : Bytes} {c : Char} (hc : c ∈ hexChars bytes) :
    IsLowerHex c := by
  obtain ⟨byte, -, hdigit⟩ := List.mem_flatMap.mp hc
  have hbyte := byte.toNat_lt
  rcases List.mem_cons.mp hdigit with rfl | hdigit
  · exact isLowerHex_hexDigit (by omega)
  · rcases List.mem_singleton.mp hdigit with rfl
    exact isLowerHex_hexDigit (by omega)

theorem length_hexChars (bytes : Bytes) : (hexChars bytes).length = 2 * bytes.length :=
  (hexDecodeChars_ok (hexDecodeChars_hexChars bytes)).1

theorem hexEncodeToString_ascii (bytes : Bytes) :
    ∀ c ∈ (hexEncodeToString bytes).toList, c.toNat < 128 := by
  intro c hc
  rw [hexEncodeToString, String.toList_ofList] at hc
  have hlower := isLowerHex_iff.mp (isLowerHex_of_mem_hexChars hc)
  omega

/-- A lower-case digit is the digit of its value. -/
theorem hexDigit_of_fromHexChar {c : Char} {value : Nat} (lower : IsLowerHex c)
    (decoded : fromHexChar c = some value) : hexDigit value = c ∧ value < 16 := by
  rw [isLowerHex_iff] at lower
  unfold fromHexChar at decoded
  simp only [Char.reduceToNat] at decoded
  split at decoded
  · next hdecimal =>
      obtain rfl := Option.some.inj decoded
      refine ⟨Char.toNat_inj.mp ?_, by omega⟩
      rw [hexDigit_toNat (by omega), if_pos (by omega)]
      omega
  · rw [if_pos (by omega)] at decoded
    obtain rfl := Option.some.inj decoded
    refine ⟨Char.toNat_inj.mp ?_, by omega⟩
    rw [hexDigit_toNat (by omega), if_neg (by omega)]
    omega

/-- Lower-case text is the encoding of what it decodes to. -/
theorem hexChars_of_hexDecodeChars {chars : List Char} {bytes : Bytes}
    (lower : ∀ c ∈ chars, IsLowerHex c) (decoded : hexDecodeChars chars = .ok bytes) :
    hexChars bytes = chars := by
  induction chars using hexDecodeChars.induct generalizing bytes with
  | case1 =>
      cases decoded
      rfl
  | case2 last hlast => simp [hexDecodeChars, hlast] at decoded
  | case3 last value hlast => simp [hexDecodeChars, hlast] at decoded
  | case4 high low rest first second hsecond hfirst err herr ih =>
      simp [hexDecodeChars, hfirst, hsecond, herr] at decoded
  | case5 high low rest first second hsecond hfirst tail htail ih =>
      simp only [hexDecodeChars, hfirst, hsecond, htail, Except.ok.injEq] at decoded
      subst decoded
      obtain ⟨hhigh, hfirstLt⟩ := hexDigit_of_fromHexChar (lower high (by simp)) hfirst
      obtain ⟨hlow, hsecondLt⟩ := hexDigit_of_fromHexChar (lower low (by simp)) hsecond
      have hrest := ih (fun c hc => lower c (by simp [hc])) htail
      have hbyte : (UInt8.ofNat (16 * first + second)).toNat = 16 * first + second := by
        rw [UInt8.toNat_ofNat']
        omega
      have hdiv : (16 * first + second) / 16 = first := by omega
      have hmod : (16 * first + second) % 16 = second := by omega
      change hexDigit _ :: hexDigit _ :: hexChars tail = _
      rw [hbyte, hdiv, hmod, hhigh, hlow, hrest]
  | case6 high low rest hnone => simp [hexDecodeChars] at decoded

/-! ## Letter case -/

/-- The lower case of a letter has the value of the letter. -/
theorem fromHexChar_toLowerRune (c : Char) : fromHexChar (toLowerRune c) = fromHexChar c := by
  unfold toLowerRune
  split
  · next hupper =>
      simp only [Char.reduceToNat] at hupper
      unfold fromHexChar
      simp only [Char.reduceToNat]
      rw [toNat_ofNat_of_lt (by omega), if_neg (by omega)]
      by_cases hdigit : c.toNat ≤ 70
      · rw [if_pos (by omega), if_neg (by omega), if_neg (by omega), if_pos (by omega)]
        congr 1
      · rw [if_neg (by omega), if_neg (by omega), if_neg (by omega), if_neg (by omega),
          if_neg (by omega)]
  · split
    · next hdotted =>
        unfold fromHexChar
        simp [hdotted]
    · split
      · next hkelvin =>
          unfold fromHexChar
          simp [hkelvin]
      · rfl

theorem hexDecodeChars_map_toLowerRune (chars : List Char) :
    hexDecodeChars (chars.map toLowerRune) = hexDecodeChars chars := by
  induction chars using hexDecodeChars.induct with
  | case1 => rfl
  | case2 last hlast =>
      simp only [List.map_cons, List.map_nil, hexDecodeChars, fromHexChar_toLowerRune]
  | case3 last value hlast =>
      simp only [List.map_cons, List.map_nil, hexDecodeChars, fromHexChar_toLowerRune]
  | case4 high low rest first second hsecond hfirst err herr ih =>
      simp only [List.map_cons, hexDecodeChars, fromHexChar_toLowerRune, ih]
  | case5 high low rest first second hsecond hfirst tail htail ih =>
      simp only [List.map_cons, hexDecodeChars, fromHexChar_toLowerRune, ih]
  | case6 high low rest hnone =>
      simp only [List.map_cons, hexDecodeChars, fromHexChar_toLowerRune]

/-- Decoding ignores the case of letters. -/
theorem hexDecodeString_toLower (text : String) :
    hexDecodeString (toLower text) = hexDecodeString text := by
  rw [hexDecodeString, toLower, String.toList_ofList, hexDecodeChars_map_toLowerRune]
  rfl

/-- Lower-case hexadecimal text is what lower-casing makes of any spelling of its bytes. -/
theorem toLower_of_hexDecodeString {text : String} {bytes : Bytes}
    (decoded : hexDecodeString text = .ok bytes) : toLower text = hexEncodeToString bytes := by
  have hlower : hexDecodeChars (text.toList.map toLowerRune) = .ok bytes := by
    rw [hexDecodeChars_map_toLowerRune]
    exact decoded
  have hdigits := (hexDecodeChars_ok hlower).2
  have hchars := hexChars_of_hexDecodeChars (fun c hc => by
    obtain ⟨original, -, rfl⟩ := List.mem_map.mp hc
    exact isLowerHex_of_fromHexChar (hdigits _ hc) (toLowerRune_not_upper original)) hlower
  rw [toLower, hexEncodeToString, hchars]

end OpsUp.Go
