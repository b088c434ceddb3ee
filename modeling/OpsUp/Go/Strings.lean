import Mathlib.Tactic.Common

/-!
# Text functions of the Go standard library

The handlers read texts that have been decoded from JSON, so they are sequences
of Unicode characters.  The functions below are the ones of `strings` and
`strconv` that the handlers apply to them.
-/

namespace OpsUp.Go

abbrev Bytes := List UInt8

/-- The UTF-8 bytes of a text: `[]byte(s)`. -/
def bytesOf (text : String) : Bytes :=
  text.toList.flatMap String.utf8EncodeChar

/-- The bytes of a scalar value, with U+FFFD for a surrogate. -/
def scalarBytes (n : Nat) : Bytes :=
  if n.isValidChar then String.utf8EncodeChar (Char.ofNat n) else [0xef, 0xbf, 0xbd]

/-- The text whose characters are the bytes. -/
def byteText (bytes : Bytes) : String := String.ofList (bytes.map fun b => Char.ofNat b.toNat)

/-- The bytes of such a text. -/
def textBytes (text : String) : Bytes := text.toList.map fun c => UInt8.ofNat c.toNat

/-- `unicode.IsSpace`. -/
def isSpace (c : Char) : Bool :=
  let n := c.toNat
  (9 ≤ n && n ≤ 13) || n = 32 || n = 0x85 || n = 0xa0 || n = 0x1680 ||
    (0x2000 ≤ n && n ≤ 0x200a) || n = 0x2028 || n = 0x2029 || n = 0x202f ||
    n = 0x205f || n = 0x3000

/-- `strings.TrimSpace`. -/
def trimSpace (text : String) : String :=
  String.ofList
    (((text.toList.dropWhile isSpace).reverse.dropWhile isSpace).reverse)

/-- `strings.HasPrefix`. -/
def hasPrefix (text start : String) : Bool :=
  start.toList.isPrefixOf text.toList

/-- `strings.TrimPrefix`. -/
def trimPrefix (text start : String) : String :=
  if hasPrefix text start then String.ofList (text.toList.drop start.toList.length) else text

/-- `strings.SplitN(text, c, 2)` for a one-character text `c`. -/
def splitTwo (text : String) (c : Char) : List String :=
  match text.toList.span fun other => other ≠ c with
  | (_, []) => [text]
  | (before, _ :: after) => [String.ofList before, String.ofList after]

/-- `strings.ReplaceAll(text, c, "")` for a one-character text `c`. -/
def removeAll (text : String) (c : Char) : String :=
  String.ofList (text.toList.filter fun other => other ≠ c)

/-- `strings.ReplaceAll(text, c, other)` for one-character texts. -/
def replaceAll (text : String) (c other : Char) : String :=
  String.ofList (text.toList.map fun found => if found = c then other else found)

theorem hasPrefix_iff {text start : String} :
    hasPrefix text start = true ↔ ∃ rest, text = start ++ rest := by
  unfold hasPrefix
  rw [List.isPrefixOf_iff_prefix]
  constructor
  · rintro ⟨rest, hrest⟩
    refine ⟨String.ofList rest, ?_⟩
    apply String.toList_inj.mp
    rw [String.toList_append, String.toList_ofList, hrest]
  · rintro ⟨rest, rfl⟩
    exact ⟨rest.toList, String.toList_append.symm⟩

@[simp]
theorem trimPrefix_append (start rest : String) : trimPrefix (start ++ rest) start = rest := by
  unfold trimPrefix
  rw [if_pos (hasPrefix_iff.mpr ⟨rest, rfl⟩), String.toList_append, List.drop_left,
    String.ofList_toList]

theorem dropWhile_isSpace_append {before text : List Char}
    (spaces : ∀ c ∈ before, isSpace c = true) (visible : ∀ c ∈ text, isSpace c = false)
    (after : List Char) : (before ++ (text ++ after)).dropWhile isSpace =
      if text = [] then after.dropWhile isSpace else text ++ after := by
  rw [List.dropWhile_append_of_pos spaces]
  cases text with
  | nil => rfl
  | cons c rest =>
      rw [if_neg (List.cons_ne_nil c rest), List.cons_append]
      exact List.dropWhile_cons_of_neg (by simp [visible c (by simp)])

/-- White space on both sides of a text without any is what is trimmed. -/
theorem trimSpace_padded {before text after : String}
    (leading : ∀ c ∈ before.toList, isSpace c = true)
    (visible : ∀ c ∈ text.toList, isSpace c = false)
    (trailing : ∀ c ∈ after.toList, isSpace c = true) :
    trimSpace (before ++ text ++ after) = text := by
  have hvisible : ∀ c ∈ text.toList.reverse, isSpace c = false := fun c hc =>
    visible c (List.mem_reverse.mp hc)
  have htrailing : ∀ c ∈ after.toList.reverse, isSpace c = true := fun c hc =>
    trailing c (List.mem_reverse.mp hc)
  unfold trimSpace
  rw [String.toList_append, String.toList_append, List.append_assoc,
    dropWhile_isSpace_append leading visible]
  by_cases hempty : text.toList = []
  · have hspaces : (after.toList ++ []).dropWhile isSpace = [] :=
      List.dropWhile_append_of_pos trailing
    rw [List.append_nil] at hspaces
    rw [if_pos hempty, hspaces, String.toList_eq_nil_iff.mp hempty]
    rfl
  · have hback := dropWhile_isSpace_append htrailing hvisible []
    rw [List.append_nil, if_neg (by simpa using hempty)] at hback
    rw [if_neg hempty, List.reverse_append, hback, List.reverse_reverse, String.ofList_toList]

theorem trimSpace_of_visible {text : String} (visible : ∀ c ∈ text.toList, isSpace c = false) :
    trimSpace text = text := by
  have hnone : ∀ c ∈ "".toList, isSpace c = true := by simp
  simpa only [String.empty_append, String.append_empty] using
    trimSpace_padded hnone visible hnone

/--
`unicode.ToLower`.  Besides the ASCII letters only U+0130 and U+212A have an ASCII
lower case; the remaining letters go to letters outside ASCII, which every caller
treats like the letter itself, so they are left as they are.
-/
def toLowerRune (c : Char) : Char :=
  if 'A'.toNat ≤ c.toNat ∧ c.toNat ≤ 'Z'.toNat then Char.ofNat (c.toNat + 32)
  else if c.toNat = 0x130 then 'i'
  else if c.toNat = 0x212a then 'k'
  else c

/-- `strings.ToLower`. -/
def toLower (text : String) : String :=
  String.ofList (text.toList.map toLowerRune)

theorem toNat_ofNat_of_lt {n : Nat} (small : n < 0xd800) : (Char.ofNat n).toNat = n := by
  have hvalid : n.isValidChar := Or.inl small
  unfold Char.ofNat
  rw [dif_pos hvalid]
  rfl

/-- An ASCII text has one byte for each character. -/
theorem bytesOf_ascii {text : String} (ascii : ∀ c ∈ text.toList, c.toNat < 128) :
    bytesOf text = textBytes text := by
  have hchar (c : Char) (hc : c.toNat < 128) :
      String.utf8EncodeChar c = [UInt8.ofNat c.toNat] := by
    have hsize : c.utf8Size = 1 := Char.utf8Size_eq_one_iff.mpr (by
      rw [UInt32.le_iff_toNat_le]
      change c.toNat ≤ 127
      omega)
    rw [String.utf8EncodeChar_eq_singleton hsize]
    rfl
  have hchars (chars : List Char) (h : ∀ c ∈ chars, c.toNat < 128) :
      chars.flatMap String.utf8EncodeChar = chars.map fun c => UInt8.ofNat c.toNat := by
    induction chars with
    | nil => rfl
    | cons c rest ih =>
        rw [List.flatMap_cons, hchar c (h c List.mem_cons_self),
          ih fun other hother => h other (List.mem_cons_of_mem c hother)]
        rfl
  exact hchars text.toList ascii

theorem byteText_bytesOf {text : String} (ascii : ∀ c ∈ text.toList, c.toNat < 128) :
    byteText (bytesOf text) = text := by
  have hsame : (text.toList.map fun c => UInt8.ofNat c.toNat).map (fun b => Char.ofNat b.toNat) =
      text.toList := by
    rw [List.map_map]
    refine (List.map_congr_left fun c hc => ?_).trans (List.map_id _)
    have hc := ascii c hc
    have hbyte : (UInt8.ofNat c.toNat).toNat = c.toNat := by
      rw [UInt8.toNat_ofNat']
      omega
    rw [Function.comp_apply, hbyte, Char.ofNat_toNat]
    rfl
  rw [bytesOf_ascii ascii, byteText, textBytes, hsame, String.ofList_toList]

/-- No upper-case ASCII letter is left. -/
theorem toLowerRune_not_upper (c : Char) :
    ¬ ('A'.toNat ≤ (toLowerRune c).toNat ∧ (toLowerRune c).toNat ≤ 'Z'.toNat) := by
  unfold toLowerRune
  split
  · next hupper =>
      simp only [Char.reduceToNat] at hupper ⊢
      rw [toNat_ofNat_of_lt (by omega)]
      omega
  · next hupper =>
      split
      · simp
      · split
        · simp
        · exact hupper

/-- The value of a decimal digit. -/
def decimalDigit (c : Char) : Option Nat :=
  if '0'.toNat ≤ c.toNat ∧ c.toNat ≤ '9'.toNat then some (c.toNat - '0'.toNat) else none

/-- The number a sequence of decimal digits spells, after `accumulated`. -/
def decimalValue : Nat → List Char → Option Nat
  | accumulated, [] => some accumulated
  | accumulated, c :: rest =>
      match decimalDigit c with
      | none => none
      | some digit => decimalValue (10 * accumulated + digit) rest

/-- `strconv.ParseUint(s, 10, 64)` before its range check. -/
def parseDigits : List Char → Option Nat
  | [] => none
  | digits => decimalValue 0 digits

/-- `1 << 63`, the first number above the range of an `int64`. -/
def int64Cutoff : Nat := 9223372036854775808

/-- `strconv.ParseInt(s, 10, 64)`. -/
def parseInt (text : String) : Option Int :=
  match text.toList with
  | '-' :: digits =>
      match parseDigits digits with
      | none => none
      | some n => if n ≤ int64Cutoff then some (-Int.ofNat n) else none
  | '+' :: digits =>
      match parseDigits digits with
      | none => none
      | some n => if n < int64Cutoff then some (Int.ofNat n) else none
  | digits =>
      match parseDigits digits with
      | none => none
      | some n => if n < int64Cutoff then some (Int.ofNat n) else none

/-- `strconv.Itoa`. -/
def itoa (n : Int) : String := toString n

/-- `net.JoinHostPort`: a literal IPv6 address is put in brackets. -/
def joinHostPort (host port : String) : String :=
  if ':' ∈ host.toList then "[" ++ host ++ "]:" ++ port else host ++ ":" ++ port

/-- `net.SplitHostPort`: the port comes after the last colon, and brackets stand only around
a host. -/
def splitHostPort (hostport : String) : Option (String × String) :=
  let reversed := hostport.toList.reverse
  let port := (reversed.takeWhile fun c => c ≠ ':').reverse
  match reversed.dropWhile fun c => c ≠ ':' with
  | [] => none
  | _ :: front =>
      match front.reverse with
      | '[' :: inner =>
          if inner.getLast? = some ']' ∧ ']' ∉ inner.dropLast ∧ '[' ∉ inner ++ port ∧ ']' ∉ port then
            some (String.ofList inner.dropLast, String.ofList port)
          else none
      | host =>
          if ':' ∈ host ∨ '[' ∈ host ++ port ∨ ']' ∈ host ++ port then none
          else some (String.ofList host, String.ofList port)

example : splitHostPort (joinHostPort "::1" "3389") = some ("::1", "3389") := by decide

example : parseInt "-12" = some (-12) := by decide

example : parseInt "9223372036854775808" = none := by decide

end OpsUp.Go
