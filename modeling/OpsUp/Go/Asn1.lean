import OpsUp.Go.Strings

/-!
# The DER encoding of `encoding/asn1`

An element is a tag, the length of its content and the content.  Lengths and integers
are written in as few octets as hold them.  Each writer comes with a reader that finds
what was written, whatever follows it.
-/

namespace OpsUp.Go

/-! ## Numbers in big-endian order -/

/-- The least number that does not fit in `count + 1` octets. -/
def octetSpan : Nat → Nat
  | 0 => 256
  | count + 1 => 256 * octetSpan count

/-- The octets of a number, at most `count + 1` of them. -/
def bigEndianBytes : Nat → Nat → Bytes
  | 0, n => [UInt8.ofNat n]
  | count + 1, n =>
      if n < 256 then [UInt8.ofNat n] else bigEndianBytes count (n / 256) ++ [UInt8.ofNat n]

def bigEndianValue (bytes : Bytes) : Nat :=
  bytes.foldl (fun value b => 256 * value + b.toNat) 0

theorem toNat_ofNat_mod (n : Nat) : (UInt8.ofNat n).toNat = n % 256 := by
  simp

theorem bigEndianValue_concat (bytes : Bytes) (b : UInt8) :
    bigEndianValue (bytes ++ [b]) = 256 * bigEndianValue bytes + b.toNat := by
  simp [bigEndianValue]

theorem bigEndianValue_bigEndianBytes {count n : Nat} (fits : n < octetSpan count) :
    bigEndianValue (bigEndianBytes count n) = n := by
  induction count generalizing n with
  | zero =>
      rw [octetSpan] at fits
      simp [bigEndianBytes, bigEndianValue, Nat.mod_eq_of_lt fits]
  | succ count ih =>
      unfold bigEndianBytes
      split
      · next hsmall => simp [bigEndianValue, Nat.mod_eq_of_lt hsmall]
      · have hrest : n / 256 < octetSpan count := by
          apply Nat.div_lt_of_lt_mul
          rwa [octetSpan] at fits
        rw [bigEndianValue_concat, ih hrest, toNat_ofNat_mod]
        exact Nat.div_add_mod n 256

theorem length_bigEndianBytes_le (count n : Nat) : (bigEndianBytes count n).length ≤ count + 1 := by
  induction count generalizing n with
  | zero => exact Nat.le_refl 1
  | succ count ih =>
      unfold bigEndianBytes
      split
      · exact Nat.succ_le_succ (Nat.zero_le _)
      · rw [List.length_append]
        exact Nat.succ_le_succ (ih (n / 256))

/-! ## Lengths -/

/-- The length octets of a content of `n` bytes. -/
def derLength (n : Nat) : Bytes :=
  if n < 128 then [UInt8.ofNat n]
  else UInt8.ofNat (0x80 + (bigEndianBytes 7 n).length) :: bigEndianBytes 7 n

def readLength : Bytes → Option (Nat × Bytes)
  | [] => none
  | first :: rest =>
      if first < 0x80 then some (first.toNat, rest)
      else if first.toNat - 0x80 ≤ rest.length then
        some (bigEndianValue (rest.take (first.toNat - 0x80)), rest.drop (first.toNat - 0x80))
      else none

theorem readLength_derLength {n : Nat} (fits : n < int64Cutoff) (tail : Bytes) :
    readLength (derLength n ++ tail) = some (n, tail) := by
  unfold derLength
  split
  · next hsmall =>
      have hvalue : (UInt8.ofNat n).toNat = n := by
        rw [toNat_ofNat_mod]
        omega
      have hshort : UInt8.ofNat n < 0x80 := by
        rw [UInt8.lt_iff_toNat_lt, hvalue]
        exact hsmall
      rw [List.cons_append, List.nil_append, readLength, if_pos hshort, hvalue]
  · have hlength := length_bigEndianBytes_le 7 n
    have hspan : n < octetSpan 7 := by
      rw [int64Cutoff] at fits
      have hseven : octetSpan 7 = 18446744073709551616 := by decide
      omega
    have hfirst : (UInt8.ofNat (0x80 + (bigEndianBytes 7 n).length)).toNat - 0x80 =
        (bigEndianBytes 7 n).length := by
      rw [toNat_ofNat_mod]
      omega
    have hlong : ¬ UInt8.ofNat (0x80 + (bigEndianBytes 7 n).length) < 0x80 := by
      rw [UInt8.lt_iff_toNat_lt, toNat_ofNat_mod]
      simp only [UInt8.reduceToNat]
      omega
    have hpresent : (bigEndianBytes 7 n).length ≤ (bigEndianBytes 7 n ++ tail).length := by
      rw [List.length_append]
      omega
    rw [List.cons_append, readLength, if_neg hlong, hfirst, if_pos hpresent, List.take_left,
      List.drop_left, bigEndianValue_bigEndianBytes hspan]

/-! ## Elements -/

def derElement (tag : UInt8) (content : Bytes) : Bytes :=
  tag :: (derLength content.length ++ content)

/-- The content of an element with this tag, and what follows it. -/
def readElement (tag : UInt8) : Bytes → Option (Bytes × Bytes)
  | [] => none
  | first :: rest =>
      if first ≠ tag then none
      else
        match readLength rest with
        | none => none
        | some (n, content) =>
            if n ≤ content.length then some (content.take n, content.drop n) else none

theorem readElement_derElement {content : Bytes} (fits : content.length < int64Cutoff)
    (tag : UInt8) (tail : Bytes) :
    readElement tag (derElement tag content ++ tail) = some (content, tail) := by
  have hpresent : content.length ≤ (content ++ tail).length := by
    rw [List.length_append]
    exact Nat.le_add_right _ _
  rw [derElement, List.cons_append, List.append_assoc, readElement, if_neg (not_not.mpr rfl),
    readLength_derLength fits]
  dsimp only
  rw [if_pos hpresent, List.take_left, List.drop_left]

theorem length_lt_derElement (tag : UInt8) (content : Bytes) :
    content.length < (derElement tag content).length := by
  rw [derElement, List.length_cons, List.length_append]
  omega

/-- `explicit,tag:n` -/
def explicitTag (n : UInt8) : UInt8 := 0xa0 + n

def sequenceTag : UInt8 := 0x30

def integerTag : UInt8 := 0x02

def octetStringTag : UInt8 := 0x04

def utf8StringTag : UInt8 := 0x0c

/-! ## Integers -/

/-- The least number that needs more than `count + 1` octets. -/
def signedSpan : Nat → Int
  | 0 => 128
  | count + 1 => 256 * signedSpan count

def lowOctet (v : Int) : UInt8 := UInt8.ofNat (v % 256).toNat

/-- The octets of an integer in two's complement, at most `count + 1` of them. -/
def twosComplement : Nat → Int → Bytes
  | 0, v => [lowOctet v]
  | count + 1, v =>
      if -128 ≤ v ∧ v < 128 then [lowOctet v]
      else twosComplement count (v / 256) ++ [lowOctet v]

def twosComplementValue : Bytes → Int
  | [] => 0
  | first :: rest =>
      rest.foldl (fun value b => 256 * value + b.toNat)
        (if first.toNat < 128 then first.toNat else first.toNat - 256)

theorem lowOctet_toNat (v : Int) : ((lowOctet v).toNat : Int) = v % 256 := by
  rw [lowOctet, toNat_ofNat_mod]
  omega

theorem twosComplementValue_singleton {v : Int} (low : -128 ≤ v) (high : v < 128) :
    twosComplementValue [lowOctet v] = v := by
  have hoctet := lowOctet_toNat v
  dsimp only [twosComplementValue, List.foldl_nil]
  split
  · omega
  · omega

theorem twosComplementValue_concat {bytes : Bytes} (content : bytes ≠ []) (b : UInt8) :
    twosComplementValue (bytes ++ [b]) = 256 * twosComplementValue bytes + b.toNat := by
  cases bytes with
  | nil => exact absurd rfl content
  | cons first rest => simp [twosComplementValue]

theorem twosComplement_ne_nil (count : Nat) (v : Int) : twosComplement count v ≠ [] := by
  cases count with
  | zero => exact List.cons_ne_nil _ _
  | succ count =>
      unfold twosComplement
      split
      · exact List.cons_ne_nil _ _
      · exact List.append_ne_nil_of_right_ne_nil _ (List.cons_ne_nil _ _)

theorem twosComplementValue_twosComplement {count : Nat} {v : Int} (low : -signedSpan count ≤ v)
    (high : v < signedSpan count) : twosComplementValue (twosComplement count v) = v := by
  induction count generalizing v with
  | zero => exact twosComplementValue_singleton low high
  | succ count ih =>
      unfold twosComplement
      split
      · next hsmall => exact twosComplementValue_singleton hsmall.1 hsmall.2
      · rw [signedSpan] at low high
        rw [twosComplementValue_concat (twosComplement_ne_nil count _), ih (by omega) (by omega),
          lowOctet_toNat]
        omega

/-! ## Texts -/

/-- The text that UTF-8 bytes spell, when they are valid. -/
def textOf (bytes : Bytes) : Option String :=
  bytes.toByteArray.utf8Decode?.map fun chars => String.ofList chars.toList

theorem textOf_bytesOf (text : String) : textOf (bytesOf text) = some text := by
  have hencoded : (bytesOf text).toByteArray = text.toList.utf8Encode := rfl
  rw [textOf, hencoded, List.utf8Decode?_utf8Encode]
  simp

example : derElement integerTag (twosComplement 7 3390) = [0x02, 0x02, 0x0d, 0x3e] := by decide

end OpsUp.Go
