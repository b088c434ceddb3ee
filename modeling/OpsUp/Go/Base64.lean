import OpsUp.Go.Strings

/-!
# Unpadded standard base64

`base64.RawStdEncoding.DecodeString`: carriage returns and line feeds are
skipped wherever they stand, and the bits left over in the last group are
ignored.
-/

namespace OpsUp.Go

/-- The value of a character of the standard alphabet. -/
def base64Value (c : Char) : Option Nat :=
  let n := c.toNat
  if 'A'.toNat ≤ n ∧ n ≤ 'Z'.toNat then some (n - 'A'.toNat)
  else if 'a'.toNat ≤ n ∧ n ≤ 'z'.toNat then some (n - 'a'.toNat + 26)
  else if '0'.toNat ≤ n ∧ n ≤ '9'.toNat then some (n - '0'.toNat + 52)
  else if c = '+' then some 62
  else if c = '/' then some 63
  else none

/-- The six-bit values of the text, without the skipped line breaks. -/
def base64Values : List Char → Option (List Nat)
  | [] => some []
  | c :: rest =>
      if c = '\r' ∨ c = '\n' then base64Values rest
      else
        match base64Value c, base64Values rest with
        | some value, some values => some (value :: values)
        | _, _ => none

/-- Four values make three bytes; a last group of two or three makes one or two. -/
def decodeQuanta : List Nat → Option Bytes
  | [] => some []
  | [_] => none
  | [a, b] => some [UInt8.ofNat (4 * a + b / 16)]
  | [a, b, c] => some [UInt8.ofNat (4 * a + b / 16), UInt8.ofNat (16 * (b % 16) + c / 4)]
  | a :: b :: c :: d :: rest =>
      match decodeQuanta rest with
      | none => none
      | some bytes =>
          some (UInt8.ofNat (4 * a + b / 16) :: UInt8.ofNat (16 * (b % 16) + c / 4) ::
            UInt8.ofNat (64 * (c % 4) + d) :: bytes)

/-- `base64.RawStdEncoding.DecodeString`. -/
def rawStdDecodeString (text : String) : Option Bytes :=
  match base64Values text.toList with
  | none => none
  | some values => decodeQuanta values

example : rawStdDecodeString "aG9\nzdA" = some [104, 111, 115, 116] := by decide

/-! ## Encoding -/

/-- The character of a six-bit value. -/
def base64Char (value : Nat) : Char :=
  if value < 26 then Char.ofNat ('A'.toNat + value)
  else if value < 52 then Char.ofNat ('a'.toNat + (value - 26))
  else if value < 62 then Char.ofNat ('0'.toNat + (value - 52))
  else if value = 62 then '+'
  else '/'

/-- Three bytes make four values; one or two bytes at the end make two or three. -/
def encodeQuanta : Bytes → List Nat
  | [] => []
  | [a] => [a.toNat / 4, 16 * (a.toNat % 4)]
  | [a, b] => [a.toNat / 4, 16 * (a.toNat % 4) + b.toNat / 16, 4 * (b.toNat % 16)]
  | a :: b :: c :: rest =>
      a.toNat / 4 :: (16 * (a.toNat % 4) + b.toNat / 16) ::
        (4 * (b.toNat % 16) + c.toNat / 64) :: c.toNat % 64 :: encodeQuanta rest

/-- `base64.RawStdEncoding.EncodeToString`. -/
def rawStdEncodeToString (bytes : Bytes) : String :=
  String.ofList ((encodeQuanta bytes).map base64Char)

/-- The bits of the last value that stand for nothing. -/
def spareBits : List Nat → Nat
  | [] => 0
  | [_] => 0
  | [_, b] => b % 16
  | [_, _, c] => c % 4
  | _ :: _ :: _ :: _ :: rest => spareBits rest

theorem base64Value_base64Char {value : Nat} (small : value < 64) :
    base64Value (base64Char value) = some value := by
  have hall : ∀ n < 64, base64Value (base64Char n) = some n := by decide
  exact hall value small

theorem base64Char_of_base64Value {c : Char} {value : Nat} (hvalue : base64Value c = some value) :
    value < 64 ∧ base64Char value = c := by
  have hchar : ∀ n, c.toNat = n → Char.ofNat n = c := by
    rintro _ rfl
    exact Char.ofNat_toNat c
  unfold base64Value at hvalue
  simp only [Char.reduceToNat] at hvalue
  unfold base64Char
  simp only [Char.reduceToNat]
  split at hvalue
  · obtain rfl := Option.some.inj hvalue
    rw [if_pos (by omega)]
    exact ⟨by omega, hchar _ (by omega)⟩
  · split at hvalue
    · obtain rfl := Option.some.inj hvalue
      rw [if_neg (by omega), if_pos (by omega)]
      exact ⟨by omega, hchar _ (by omega)⟩
    · split at hvalue
      · obtain rfl := Option.some.inj hvalue
        rw [if_neg (by omega), if_neg (by omega), if_pos (by omega)]
        exact ⟨by omega, hchar _ (by omega)⟩
      · split at hvalue
        · next hplus =>
            obtain rfl := Option.some.inj hvalue
            exact ⟨by decide, hplus.symm⟩
        · split at hvalue
          · next hslash =>
              obtain rfl := Option.some.inj hvalue
              exact ⟨by decide, hslash.symm⟩
          · cases hvalue

theorem decodeQuanta_encodeQuanta (bytes : Bytes) :
    decodeQuanta (encodeQuanta bytes) = some bytes := by
  have hbyte : ∀ (byte : UInt8) (n : Nat), n = byte.toNat → UInt8.ofNat n = byte := by
    rintro byte _ rfl
    exact UInt8.ofNat_toNat
  induction bytes using encodeQuanta.induct with
  | case1 => rfl
  | case2 a =>
      have ha := a.toNat_lt
      simp only [encodeQuanta, decodeQuanta]
      rw [hbyte a _ (by omega)]
  | case3 a b =>
      have ha := a.toNat_lt
      have hb := b.toNat_lt
      simp only [encodeQuanta, decodeQuanta]
      rw [hbyte a _ (by omega), hbyte b _ (by omega)]
  | case4 a b c rest ih =>
      have ha := a.toNat_lt
      have hb := b.toNat_lt
      have hc := c.toNat_lt
      simp only [encodeQuanta, decodeQuanta, ih]
      rw [hbyte a _ (by omega), hbyte b _ (by omega), hbyte c _ (by omega)]

theorem encodeQuanta_lt (bytes : Bytes) : ∀ value ∈ encodeQuanta bytes, value < 64 := by
  induction bytes using encodeQuanta.induct with
  | case1 => nofun
  | case2 a =>
      have ha := a.toNat_lt
      simp only [encodeQuanta, List.mem_cons, List.not_mem_nil, or_false]
      omega
  | case3 a b =>
      have ha := a.toNat_lt
      have hb := b.toNat_lt
      simp only [encodeQuanta, List.mem_cons, List.not_mem_nil, or_false]
      omega
  | case4 a b c rest ih =>
      have ha := a.toNat_lt
      have hb := b.toNat_lt
      have hc := c.toNat_lt
      intro value hvalue
      simp only [encodeQuanta, List.mem_cons] at hvalue
      rcases hvalue with rfl | rfl | rfl | rfl | hrest
      · omega
      · omega
      · omega
      · omega
      · exact ih value hrest

theorem spareBits_encodeQuanta (bytes : Bytes) : spareBits (encodeQuanta bytes) = 0 := by
  induction bytes using encodeQuanta.induct with
  | case1 => rfl
  | case2 a =>
      simp only [encodeQuanta, spareBits]
      omega
  | case3 a b =>
      simp only [encodeQuanta, spareBits]
      omega
  | case4 a b c rest ih => exact ih

/-- Values without spare bits are the encoding of what they decode to. -/
theorem encodeQuanta_decodeQuanta {values : List Nat} {bytes : Bytes}
    (small : ∀ value ∈ values, value < 64) (decoded : decodeQuanta values = some bytes)
    (spare : spareBits values = 0) : encodeQuanta bytes = values := by
  have htoNat : ∀ n : Nat, n < 256 → (UInt8.ofNat n).toNat = n := fun n hn =>
    UInt8.toNat_ofNat_of_lt' hn
  induction values using decodeQuanta.induct generalizing bytes with
  | case1 =>
      cases decoded
      rfl
  | case2 a => cases decoded
  | case3 a b =>
      cases decoded
      have ha := small a (by simp)
      have hb := small b (by simp)
      simp only [spareBits] at spare
      simp only [encodeQuanta]
      rw [htoNat _ (by omega)]
      congr 1
      · omega
      · congr 1
        omega
  | case4 a b c =>
      cases decoded
      have ha := small a (by simp)
      have hb := small b (by simp)
      have hc := small c (by simp)
      simp only [spareBits] at spare
      simp only [encodeQuanta]
      rw [htoNat _ (by omega), htoNat _ (by omega)]
      congr 1
      · omega
      · congr 1
        · omega
        · congr 1
          omega
  | case5 a b c d rest hnone => simp [decodeQuanta, hnone] at decoded
  | case6 a b c d rest tail htail ih =>
      simp only [decodeQuanta, htail, Option.some.injEq] at decoded
      subst decoded
      have ha := small a (by simp)
      have hb := small b (by simp)
      have hc := small c (by simp)
      have hd := small d (by simp)
      have hrest := ih (fun value hvalue => small value (by simp [hvalue])) htail spare
      simp only [encodeQuanta, hrest]
      rw [htoNat _ (by omega), htoNat _ (by omega), htoNat _ (by omega)]
      congr 1
      · omega
      · congr 1
        · omega
        · congr 1
          · omega
          · congr 1
            omega

/-! ## Texts that decode -/

/-- A character that decoding passes over. -/
def isLineBreak (c : Char) : Bool := c = '\r' ∨ c = '\n'

theorem length_of_decodeQuanta {values : List Nat} {bytes : Bytes}
    (decoded : decodeQuanta values = some bytes) :
    values.length = bytes.length + (bytes.length + 2) / 3 := by
  induction values using decodeQuanta.induct generalizing bytes with
  | case1 =>
      cases decoded
      rfl
  | case2 a => cases decoded
  | case3 a b =>
      cases decoded
      simp
  | case4 a b c =>
      cases decoded
      simp
  | case5 a b c d rest hnone => simp [decodeQuanta, hnone] at decoded
  | case6 a b c d rest tail htail ih =>
      simp only [decodeQuanta, htail, Option.some.injEq] at decoded
      subst decoded
      have hlength := ih htail
      simp only [List.length_cons]
      omega

/-- Only a single value at the end cannot be decoded. -/
theorem decodeQuanta_isSome {values : List Nat} (complete : values.length % 4 ≠ 1) :
    ∃ bytes, decodeQuanta values = some bytes := by
  induction values using decodeQuanta.induct with
  | case1 => exact ⟨_, rfl⟩
  | case2 a => exact absurd rfl complete
  | case3 a b => exact ⟨_, rfl⟩
  | case4 a b c => exact ⟨_, rfl⟩
  | case5 a b c d rest hnone ih =>
      obtain ⟨bytes, hbytes⟩ := ih (by simp only [List.length_cons] at complete; omega)
      rw [hnone] at hbytes
      cases hbytes
  | case6 a b c d rest tail htail => exact ⟨_, by simp only [decodeQuanta, htail]; rfl⟩

/-- The values are those of the characters that are no line breaks. -/
theorem base64Values_eq_some_iff {chars : List Char} {values : List Nat} :
    base64Values chars = some values ↔
      (∀ value ∈ values, value < 64) ∧
        chars.filter (fun c => !isLineBreak c) = values.map base64Char := by
  induction chars generalizing values with
  | nil =>
      rw [base64Values, List.filter_nil, Option.some.injEq]
      constructor
      · rintro rfl
        exact ⟨nofun, rfl⟩
      · rintro ⟨-, hmap⟩
        exact (List.map_eq_nil_iff.mp hmap.symm).symm
  | cons c rest ih =>
      by_cases hbreak : c = '\r' ∨ c = '\n'
      · have hskip : isLineBreak c = true := decide_eq_true hbreak
        rw [base64Values, if_pos hbreak, ih, List.filter_cons_of_neg (by simp [hskip])]
      · have hkeep : isLineBreak c = false := decide_eq_false hbreak
        rw [base64Values, if_neg hbreak, List.filter_cons_of_pos (by simp [hkeep])]
        constructor
        · intro hvalues
          cases hvalue : base64Value c with
          | none => simp [hvalue] at hvalues
          | some value =>
              cases htail : base64Values rest with
              | none => simp [hvalue, htail] at hvalues
              | some tail =>
                  simp only [hvalue, htail, Option.some.injEq] at hvalues
                  subst hvalues
                  obtain ⟨hsmall, hfilter⟩ := ih.mp htail
                  obtain ⟨hless, hchar⟩ := base64Char_of_base64Value hvalue
                  constructor
                  · intro other hother
                    rcases List.mem_cons.mp hother with rfl | hother
                    · exact hless
                    · exact hsmall other hother
                  · rw [List.map_cons, hchar, hfilter]
        · rintro ⟨hsmall, hmap⟩
          cases values with
          | nil => cases hmap
          | cons value tail =>
              rw [List.map_cons, List.cons.injEq] at hmap
              have htail : base64Values rest = some tail :=
                ih.mpr ⟨fun other hother => hsmall other (by simp [hother]), hmap.2⟩
              rw [hmap.1, base64Value_base64Char (hsmall value (by simp)), htail]

theorem not_isLineBreak_base64Char {value : Nat} (small : value < 64) :
    isLineBreak (base64Char value) = false := by
  have hall : ∀ n < 64, isLineBreak (base64Char n) = false := by decide
  exact hall value small

/-- The text has no line break, and its last character no bits that stand for nothing. -/
def isCanonicalBase64 (text : String) : Bool :=
  text.toList.all (fun c => !isLineBreak c) && (base64Values text.toList).map spareBits == some 0

theorem filter_encoded (bytes : Bytes) :
    ((encodeQuanta bytes).map base64Char).filter (fun c => !isLineBreak c) =
      (encodeQuanta bytes).map base64Char := by
  apply List.filter_eq_self.mpr
  intro c hc
  obtain ⟨value, hvalue, rfl⟩ := List.mem_map.mp hc
  rw [not_isLineBreak_base64Char (encodeQuanta_lt bytes value hvalue)]
  rfl

theorem base64Values_encoded (bytes : Bytes) :
    base64Values ((encodeQuanta bytes).map base64Char) = some (encodeQuanta bytes) :=
  base64Values_eq_some_iff.mpr ⟨encodeQuanta_lt bytes, filter_encoded bytes⟩

@[simp]
theorem rawStdDecodeString_rawStdEncodeToString (bytes : Bytes) :
    rawStdDecodeString (rawStdEncodeToString bytes) = some bytes := by
  rw [rawStdDecodeString, rawStdEncodeToString, String.toList_ofList, base64Values_encoded]
  exact decodeQuanta_encodeQuanta bytes

/-- The canonical texts are those that encoding writes. -/
theorem isCanonicalBase64_iff {text : String} {bytes : Bytes}
    (decoded : rawStdDecodeString text = some bytes) :
    isCanonicalBase64 text = true ↔ text = rawStdEncodeToString bytes := by
  unfold isCanonicalBase64
  rw [Bool.and_eq_true, beq_iff_eq, List.all_eq_true]
  constructor
  · rintro ⟨hbreaks, hspare⟩
    unfold rawStdDecodeString at decoded
    cases hvalues : base64Values text.toList with
    | none => simp [hvalues] at decoded
    | some values =>
        simp only [hvalues] at decoded
        obtain ⟨hsmall, hfilter⟩ := base64Values_eq_some_iff.mp hvalues
        have hzero : spareBits values = 0 := by simpa [hvalues] using hspare
        rw [List.filter_eq_self.mpr hbreaks] at hfilter
        rw [rawStdEncodeToString, encodeQuanta_decodeQuanta hsmall decoded hzero, ← hfilter,
          String.ofList_toList]
  · rintro rfl
    rw [rawStdEncodeToString, String.toList_ofList, base64Values_encoded]
    exact ⟨List.filter_eq_self.mp (filter_encoded bytes),
      congrArg some (spareBits_encodeQuanta bytes)⟩

end OpsUp.Go
