import OpsUp.Go.Strings

/-!
# JSON texts

What `encoding/json` accepts, as a value.  A number keeps its text, because only the
type it is decoded into says whether it fits.  An invalid UTF-8 sequence within a
string is kept as it stands; no name that a decoder looks for contains one.
-/

namespace OpsUp.Go

inductive Json where
  | null
  | bool (value : Bool)
  | number (text : Bytes)
  | string (content : Bytes)
  | array (elements : List Json)
  | object (members : List (Bytes × Json))

def isJsonSpace (b : UInt8) : Bool := b = 0x20 || b = 0x09 || b = 0x0a || b = 0x0d

def skipSpace (bytes : Bytes) : Bytes := bytes.dropWhile isJsonSpace

/-- What follows a literal such as `null`. -/
def afterWord : Bytes → Bytes → Option Bytes
  | [], bytes => some bytes
  | _ :: _, [] => none
  | w :: word, b :: bytes => if w = b then afterWord word bytes else none

/-! ## Numbers -/

def isDigitByte (b : UInt8) : Bool := 0x30 ≤ b && b ≤ 0x39

def takeDigits (bytes : Bytes) : Bytes × Bytes :=
  (bytes.takeWhile isDigitByte, bytes.dropWhile isDigitByte)

/-- No digit follows a leading zero. -/
def integerPart : Bytes → Option (Bytes × Bytes)
  | [] => none
  | b :: rest =>
      if b = 0x30 then some ([b], rest)
      else if isDigitByte b then some (takeDigits (b :: rest))
      else none

def fractionPart : Bytes → Option (Bytes × Bytes)
  | [] => some ([], [])
  | b :: rest =>
      if b = 0x2e then
        let (digits, after) := takeDigits rest
        if digits = [] then none else some (b :: digits, after)
      else some ([], b :: rest)

def exponentPart : Bytes → Option (Bytes × Bytes)
  | [] => some ([], [])
  | b :: rest =>
      if b = 0x65 || b = 0x45 then
        let (sign, unsigned) :=
          match rest with
          | [] => ([], [])
          | s :: tail => if s = 0x2b || s = 0x2d then ([s], tail) else ([], s :: tail)
        let (digits, after) := takeDigits unsigned
        if digits = [] then none else some (b :: sign ++ digits, after)
      else some ([], b :: rest)

def unsignedNumber (bytes : Bytes) : Option (Bytes × Bytes) :=
  match integerPart bytes with
  | none => none
  | some (integer, rest) =>
      match fractionPart rest with
      | none => none
      | some (fraction, rest) =>
          match exponentPart rest with
          | none => none
          | some (exponent, rest) => some (integer ++ fraction ++ exponent, rest)

def parseNumber : Bytes → Option (Bytes × Bytes)
  | [] => none
  | b :: rest =>
      if b = 0x2d then
        match unsignedNumber rest with
        | none => none
        | some (text, rest) => some (b :: text, rest)
      else unsignedNumber (b :: rest)

/-! ## Strings -/

/-- A byte of a string, or a code unit that an escape gives. -/
inductive Piece where
  | byte (b : UInt8)
  | unit (u : Nat)

def hexValue (b : UInt8) : Option Nat :=
  if 0x30 ≤ b ∧ b ≤ 0x39 then some (b.toNat - 0x30)
  else if 0x61 ≤ b ∧ b ≤ 0x66 then some (b.toNat - 0x61 + 10)
  else if 0x41 ≤ b ∧ b ≤ 0x46 then some (b.toNat - 0x41 + 10)
  else none

def hexUnit (a b c d : UInt8) : Option Nat :=
  match hexValue a, hexValue b, hexValue c, hexValue d with
  | some w, some x, some y, some z => some (((w * 16 + x) * 16 + y) * 16 + z)
  | _, _, _, _ => none

/-- What an escaped character other than `u` stands for. -/
def unescape (b : UInt8) : Option UInt8 :=
  if b = 0x22 || b = 0x5c || b = 0x2f then some b
  else if b = 0x62 then some 0x08
  else if b = 0x66 then some 0x0c
  else if b = 0x6e then some 0x0a
  else if b = 0x72 then some 0x0d
  else if b = 0x74 then some 0x09
  else none

/-- What stands between an opening quote and its closing one, and what follows. -/
def parsePieces : Bytes → Option (List Piece × Bytes)
  | [] => none
  | [b] => if b = 0x22 then some ([], []) else none
  | b :: e :: rest =>
      if b = 0x22 then some ([], e :: rest)
      else if b = 0x5c then
        if e = 0x75 then
          match rest with
          | w :: x :: y :: z :: after =>
              match hexUnit w x y z, parsePieces after with
              | some u, some (pieces, last) => some (.unit u :: pieces, last)
              | _, _ => none
          | _ => none
        else
          match unescape e, parsePieces rest with
          | some c, some (pieces, last) => some (.byte c :: pieces, last)
          | _, _ => none
      else if b < 0x20 then none
      else
        match parsePieces (e :: rest) with
        | some (pieces, last) => some (.byte b :: pieces, last)
        | none => none

def joinPieces : List Piece → Bytes
  | [] => []
  | .byte b :: rest => b :: joinPieces rest
  | .unit high :: .unit low :: rest =>
      if 0xd800 ≤ high ∧ high < 0xdc00 ∧ 0xdc00 ≤ low ∧ low < 0xe000 then
        scalarBytes (0x10000 + (high - 0xd800) * 0x400 + (low - 0xdc00)) ++ joinPieces rest
      else scalarBytes high ++ joinPieces (.unit low :: rest)
  | .unit u :: rest => scalarBytes u ++ joinPieces rest

def parseString (bytes : Bytes) : Option (Bytes × Bytes) :=
  match parsePieces bytes with
  | none => none
  | some (pieces, rest) => some (joinPieces pieces, rest)

/-- A quoted name and the colon after it. -/
def parseName : Bytes → Option (Bytes × Bytes)
  | [] => none
  | b :: rest =>
      if b = 0x22 then
        match parseString rest with
        | none => none
        | some (name, rest) =>
            match skipSpace rest with
            | [] => none
            | c :: tail => if c = 0x3a then some (name, tail) else none
      else none

/-! ## Values -/

def maxNestingDepth : Nat := 10000

mutual

/-- One value, at most `depth` levels deep; `fuel` bounds the number of values. -/
def parseValue : Nat → Nat → Bytes → Option (Json × Bytes)
  | 0, _, _ => none
  | fuel + 1, depth, bytes =>
      match skipSpace bytes with
      | [] => none
      | b :: rest =>
          if b = 0x22 then
            match parseString rest with
            | none => none
            | some (content, rest) => some (.string content, rest)
          else if b = 0x7b then
            match depth, skipSpace rest with
            | 0, _ => none
            | _, [] => none
            | below + 1, c :: tail =>
                if c = 0x7d then some (.object [], tail)
                else
                  match parseMembers fuel below (c :: tail) with
                  | none => none
                  | some (members, rest) => some (.object members, rest)
          else if b = 0x5b then
            match depth, skipSpace rest with
            | 0, _ => none
            | _, [] => none
            | below + 1, c :: tail =>
                if c = 0x5d then some (.array [], tail)
                else
                  match parseElements fuel below (c :: tail) with
                  | none => none
                  | some (elements, rest) => some (.array elements, rest)
          else if b = 0x6e then (afterWord [0x75, 0x6c, 0x6c] rest).map fun rest => (.null, rest)
          else if b = 0x74 then
            (afterWord [0x72, 0x75, 0x65] rest).map fun rest => (.bool true, rest)
          else if b = 0x66 then
            (afterWord [0x61, 0x6c, 0x73, 0x65] rest).map fun rest => (.bool false, rest)
          else
            match parseNumber (b :: rest) with
            | none => none
            | some (text, rest) => some (.number text, rest)

def parseElements : Nat → Nat → Bytes → Option (List Json × Bytes)
  | 0, _, _ => none
  | fuel + 1, depth, bytes =>
      match parseValue fuel depth bytes with
      | none => none
      | some (element, rest) =>
          match skipSpace rest with
          | [] => none
          | b :: tail =>
              if b = 0x5d then some ([element], tail)
              else if b = 0x2c then
                match parseElements fuel depth tail with
                | none => none
                | some (elements, rest) => some (element :: elements, rest)
              else none

/-- A name and a value, and the members after it. -/
def parseMembers : Nat → Nat → Bytes → Option (List (Bytes × Json) × Bytes)
  | 0, _, _ => none
  | fuel + 1, depth, bytes =>
      match parseName (skipSpace bytes) with
      | none => none
      | some (name, rest) =>
          match parseValue fuel depth rest with
          | none => none
          | some (value, rest) =>
              match skipSpace rest with
              | [] => none
              | b :: tail =>
                  if b = 0x7d then some ([(name, value)], tail)
                  else if b = 0x2c then
                    match parseMembers fuel depth tail with
                    | none => none
                    | some (members, rest) => some ((name, value) :: members, rest)
                  else none

end

/-- A whole text is one value with space around it. -/
def parseJson (bytes : Bytes) : Option Json :=
  match parseValue (2 * bytes.length + 2) maxNestingDepth bytes with
  | none => none
  | some (value, rest) => if skipSpace rest = [] then some value else none

/-! ## Decoding into fields -/

/-- A name without regard to case, as the decoder compares it; besides the ASCII letters
only U+017F and U+212A fold to one. -/
def foldName : Bytes → Bytes
  | [] => []
  | [b] => [if 0x61 ≤ b ∧ b ≤ 0x7a then b - 0x20 else b]
  | b :: c :: rest =>
      if b = 0xc5 ∧ c = 0xbf then 0x53 :: foldName rest
      else if b = 0xe2 ∧ c = 0x84 then
        match rest with
        | d :: after =>
            if d = 0xaa then 0x4b :: foldName after else b :: c :: foldName (d :: after)
        | [] => [b, c]
      else (if 0x61 ≤ b ∧ b ≤ 0x7a then b - 0x20 else b) :: foldName (c :: rest)

/-- Into an `int` field: `null` leaves it, anything but an integer that fits is an error. -/
def decodeInt (current : Int) : Json → Option Int
  | .null => some current
  | .number text => parseInt (String.ofList (text.map fun b => Char.ofNat b.toNat))
  | _ => none

/-- How many bytes of a valid UTF-8 sequence stand first, `0` when none does. -/
def utf8Width : Bytes → Nat
  | [] => 0
  | b :: rest =>
      if b < 0x80 then 1
      else
        match rest with
        | [] => 0
        | c :: rest =>
            if 0xc2 ≤ b ∧ b ≤ 0xdf ∧ 0x80 ≤ c ∧ c ≤ 0xbf then 2
            else
              match rest with
              | [] => 0
              | d :: rest =>
                  if 0xe0 ≤ b ∧ b ≤ 0xef ∧ (if b = 0xe0 then 0xa0 else 0x80) ≤ c ∧
                      c ≤ (if b = 0xed then 0x9f else 0xbf) ∧ 0x80 ≤ d ∧ d ≤ 0xbf then 3
                  else
                    match rest with
                    | [] => 0
                    | e :: _ =>
                        if 0xf0 ≤ b ∧ b ≤ 0xf4 ∧ (if b = 0xf0 then 0x90 else 0x80) ≤ c ∧
                            c ≤ (if b = 0xf4 then 0x8f else 0xbf) ∧ 0x80 ≤ d ∧ d ≤ 0xbf ∧
                            0x80 ≤ e ∧ e ≤ 0xbf then 4
                        else 0

/-- Each byte that is part of no valid sequence becomes U+FFFD; `kept` bytes of a sequence
are still to be kept. -/
def replaceInvalid (kept : Nat) : Bytes → Bytes
  | [] => []
  | b :: rest =>
      match kept with
      | kept + 1 => b :: replaceInvalid kept rest
      | 0 =>
          match utf8Width (b :: rest) with
          | 0 => [0xef, 0xbf, 0xbd] ++ replaceInvalid 0 rest
          | width + 1 => b :: replaceInvalid width rest

/-- Into a `string` field: `null` leaves it, anything but a string is an error. -/
def decodeString (current : Bytes) : Json → Option Bytes
  | .null => some current
  | .string content => some (replaceInvalid 0 content)
  | _ => none

theorem replaceInvalid_ascii {bytes : Bytes} (ascii : ∀ b ∈ bytes, b < 0x80) :
    replaceInvalid 0 bytes = bytes := by
  induction bytes with
  | nil => rfl
  | cons b rest ih =>
      have hwidth : utf8Width (b :: rest) = 1 := by
        rw [utf8Width.eq_def]
        exact if_pos (ascii b List.mem_cons_self)
      rw [replaceInvalid, hwidth]
      dsimp only
      rw [ih fun other hother => ascii other (List.mem_cons_of_mem b hother)]

/-! ## Plain strings -/

/-- Bytes that a string holds as they stand. -/
def PlainByte (b : UInt8) : Prop := b ≠ 0x22 ∧ b ≠ 0x5c ∧ ¬ b < 0x20

instance (b : UInt8) : Decidable (PlainByte b) := by
  unfold PlainByte
  infer_instance

variable {word : Bytes}

/-- A plain byte that is not the last byte is read by itself. -/
theorem parsePieces_cons {b e : UInt8} (plain : PlainByte b) (rest : Bytes) :
    parsePieces (b :: e :: rest) =
      match parsePieces (e :: rest) with
      | some (pieces, last) => some (.byte b :: pieces, last)
      | none => none := by
  obtain ⟨hquote, hescape, hcontrol⟩ := plain
  rw [parsePieces.eq_def]
  dsimp only
  rw [if_neg hquote, if_neg hescape, if_neg hcontrol]

theorem parsePieces_plain (plain : ∀ b ∈ word, PlainByte b) (tail : Bytes) :
    parsePieces (word ++ 0x22 :: tail) = some (word.map .byte, tail) := by
  induction word with
  | nil =>
      rw [List.nil_append, parsePieces.eq_def]
      cases tail <;> rfl
  | cons b rest ih =>
      have hrest := ih fun other hother => plain other (List.mem_cons_of_mem _ hother)
      obtain ⟨e, after, hafter⟩ : ∃ e after, rest ++ 0x22 :: tail = e :: after := by
        cases rest with
        | nil => exact ⟨_, _, rfl⟩
        | cons e after => exact ⟨_, _, rfl⟩
      rw [List.cons_append, hafter, parsePieces_cons (plain b List.mem_cons_self), ← hafter, hrest]
      rfl

/-- Without a closing quote there is no string. -/
theorem parsePieces_open (plain : ∀ b ∈ word, PlainByte b) : parsePieces word = none := by
  induction word with
  | nil => rfl
  | cons b rest ih =>
      have hb := plain b List.mem_cons_self
      cases rest with
      | nil => exact if_neg hb.1
      | cons e after =>
          rw [parsePieces_cons hb, ih fun other hother => plain other (List.mem_cons_of_mem b hother)]

theorem joinPieces_bytes (word : Bytes) : joinPieces (word.map .byte) = word := by
  induction word with
  | nil => rfl
  | cons b rest ih =>
      rw [List.map_cons, joinPieces, ih]

theorem parseString_plain (plain : ∀ b ∈ word, PlainByte b) (tail : Bytes) :
    parseString (word ++ 0x22 :: tail) = some (word, tail) := by
  rw [parseString, parsePieces_plain plain]
  dsimp only
  rw [joinPieces_bytes]

theorem parseName_plain (plain : ∀ b ∈ word, PlainByte b) (tail : Bytes) :
    parseName (0x22 :: (word ++ 0x22 :: 0x3a :: tail)) = some (word, tail) := by
  rw [parseName, if_pos rfl, parseString_plain plain]
  rfl

/-- An object that has members is read member by member. -/
theorem parseValue_object (fuel depth : Nat) (tail : Bytes) :
    parseValue (fuel + 1) (depth + 1) (0x7b :: 0x22 :: tail) =
      match parseMembers fuel depth (0x22 :: tail) with
      | none => none
      | some (members, rest) => some (.object members, rest) := by
  rw [parseValue]
  rfl

end OpsUp.Go
