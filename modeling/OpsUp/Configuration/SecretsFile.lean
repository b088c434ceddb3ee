import OpsUp.Go.Json
import Mathlib.Data.List.DropRight
import Mathlib.Data.List.Infix

/-!
# The secrets file

Two secrets as indented JSON.  The file that `Load` writes is read back, and no proper
beginning of its object is a JSON text.
-/

namespace OpsUp.Configuration

open OpsUp.Go

structure Secrets where
  jwtSecret : Bytes
  encryptionKey : Bytes
  deriving DecidableEq, Repr

def setSecret (stored : Secrets) (name : Bytes) (value : Json) : Option Secrets :=
  if foldName name = bytesOf "JWT_SECRET" then
    (decodeString stored.jwtSecret value).map fun secret => { stored with jwtSecret := secret }
  else if foldName name = bytesOf "ENCRYPTION_KEY" then
    (decodeString stored.encryptionKey value).map fun key => { stored with encryptionKey := key }
  else some stored

/-- `json.Unmarshal` into secrets that are empty at first. -/
def unmarshalSecrets (data : Bytes) : Option Secrets :=
  match parseJson data with
  | some .null => some ⟨[], []⟩
  | some (.object members) =>
      members.foldlM (fun stored member => setSecret stored member.1 member.2) ⟨[], []⟩
  | _ => none

/-- An indented member with a string that needs no escape, and what follows it. -/
def memberText (name word tail : Bytes) : Bytes :=
  0x0a :: 0x20 :: 0x20 :: 0x22 ::
    (name ++ 0x22 :: 0x3a :: 0x20 :: 0x22 :: (word ++ 0x22 :: tail))

def jwtSecretName : Bytes := bytesOf "jwt_secret"

def encryptionKeyName : Bytes := bytesOf "encryption_key"

/-- `json.MarshalIndent` with two spaces, for secrets that need no escape. -/
def marshalSecrets (stored : Secrets) : Bytes :=
  0x7b :: memberText jwtSecretName stored.jwtSecret
    (0x2c :: memberText encryptionKeyName stored.encryptionKey [0x0a, 0x7d])

example : marshalSecrets ⟨bytesOf "a", bytesOf "b"⟩ =
    bytesOf "\x7b\n  \"jwt_secret\": \"a\",\n  \"encryption_key\": \"b\"\n\x7d" := by decide

/-! ## Beginnings of a text -/

theorem prefix_append_cases {α : Type} {part front back : List α} (h : part <+: front ++ back) :
    part <+: front ∨ ∃ rest, part = front ++ rest ∧ rest <+: back := by
  induction front generalizing part with
  | nil => exact Or.inr ⟨part, rfl, h⟩
  | cons a front ih =>
      cases part with
      | nil => exact Or.inl List.nil_prefix
      | cons b part =>
          obtain ⟨rfl, hrest⟩ := List.cons_prefix_cons.mp h
          rcases ih hrest with hfront | ⟨rest, rfl, hback⟩
          · exact Or.inl (List.cons_prefix_cons.mpr ⟨rfl, hfront⟩)
          · exact Or.inr ⟨rest, rfl, hback⟩

variable {name word tail part : Bytes} {fuel depth : Nat}

/-- A quoted plain word that is cut off is no string. -/
theorem parseString_part (plain : ∀ b ∈ word, PlainByte b) (h : part <+: word ++ 0x22 :: tail) :
    parseString part = none ∨ ∃ rest, part = word ++ 0x22 :: rest ∧ rest <+: tail := by
  rcases prefix_append_cases h with hword | ⟨quoted, rfl, hquoted⟩
  · left
    rw [parseString, parsePieces_open fun b hb => plain b (hword.subset hb)]
  · cases quoted with
    | nil =>
        left
        rw [List.append_nil, parseString, parsePieces_open plain]
    | cons b rest =>
        obtain ⟨rfl, hrest⟩ := List.cons_prefix_cons.mp hquoted
        exact Or.inr ⟨rest, rfl, hrest⟩

/-- A value that starts with a quote is the string after it. -/
theorem parseValue_quote (spelled : Bytes) :
    parseValue (fuel + 1) depth (0x20 :: 0x22 :: spelled) =
      match parseString spelled with
      | none => none
      | some (content, rest) => some (.string content, rest) := by
  rw [parseValue]
  rfl

theorem parseValue_part (plain : ∀ b ∈ word, PlainByte b)
    (h : part <+: 0x20 :: 0x22 :: (word ++ 0x22 :: tail)) :
    parseValue (fuel + 1) depth part = none ∨
      ∃ rest, part = 0x20 :: 0x22 :: (word ++ 0x22 :: rest) ∧ rest <+: tail := by
  cases part with
  | nil => exact Or.inl rfl
  | cons b quoted =>
      obtain ⟨rfl, hquoted⟩ := List.cons_prefix_cons.mp h
      cases quoted with
      | nil => exact Or.inl rfl
      | cons c spelled =>
          obtain ⟨rfl, hspelled⟩ := List.cons_prefix_cons.mp hquoted
          rcases parseString_part plain hspelled with hnone | ⟨rest, rfl, hrest⟩
          · left
            rw [parseValue_quote, hnone]
          · exact Or.inr ⟨rest, rfl, hrest⟩

theorem parseName_part (plain : ∀ b ∈ name, PlainByte b)
    (h : part <+: 0x0a :: 0x20 :: 0x20 :: 0x22 :: (name ++ 0x22 :: 0x3a :: tail)) :
    parseName (skipSpace part) = none ∨
      ∃ rest, part = 0x0a :: 0x20 :: 0x20 :: 0x22 :: (name ++ 0x22 :: 0x3a :: rest) ∧
        rest <+: tail := by
  have hindent : ∀ front ∈ List.inits ([0x0a, 0x20, 0x20, 0x22] : Bytes),
      parseName (skipSpace front) = none := by decide
  rcases prefix_append_cases (show part <+: [0x0a, 0x20, 0x20, 0x22] ++ _ from h) with
    hfront | ⟨quoted, rfl, hquoted⟩
  · exact Or.inl (hindent part ((List.mem_inits part _).mpr hfront))
  · rcases parseString_part plain hquoted with hnone | ⟨after, rfl, hafter⟩
    · left
      have hspace : skipSpace ([0x0a, 0x20, 0x20, 0x22] ++ quoted) = 0x22 :: quoted := rfl
      rw [hspace, parseName, if_pos rfl, hnone]
    · cases after with
      | nil =>
          left
          have hspace : skipSpace ([0x0a, 0x20, 0x20, 0x22] ++ (name ++ [0x22])) =
            0x22 :: (name ++ [0x22]) := rfl
          rw [hspace, parseName, if_pos rfl, parseString_plain plain]
          rfl
      | cons c rest =>
          obtain ⟨rfl, hrest⟩ := List.cons_prefix_cons.mp hafter
          exact Or.inr ⟨rest, rfl, hrest⟩

/-! ## Members -/

/-- What becomes of the text after a member. -/
def afterMember (fuel depth : Nat) (member : Bytes × Json) (rest : Bytes) :
    Option (List (Bytes × Json) × Bytes) :=
  match skipSpace rest with
  | [] => none
  | b :: tail =>
      if b = 0x7d then some ([member], tail)
      else if b = 0x2c then
        match parseMembers fuel depth tail with
        | none => none
        | some (members, rest) => some (member :: members, rest)
      else none

theorem parseMembers_member (plainName : ∀ b ∈ name, PlainByte b)
    (plainWord : ∀ b ∈ word, PlainByte b) (rest : Bytes) :
    parseMembers (fuel + 2) depth (memberText name word rest) =
      afterMember (fuel + 1) depth (name, .string word) rest := by
  have hspace : skipSpace (memberText name word rest) =
    0x22 :: (name ++ 0x22 :: 0x3a :: 0x20 :: 0x22 :: (word ++ 0x22 :: rest)) := rfl
  rw [parseMembers, hspace, parseName_plain plainName]
  dsimp only
  rw [parseValue_quote, parseString_plain plainWord]
  rfl

/-- A member that is cut off is none. -/
theorem parseMembers_part (plainName : ∀ b ∈ name, PlainByte b)
    (plainWord : ∀ b ∈ word, PlainByte b) (h : part <+: memberText name word tail) :
    parseMembers (fuel + 2) depth part = none ∨
      ∃ rest, part = memberText name word rest ∧ rest <+: tail := by
  rcases parseName_part plainName h with hnone | ⟨valued, rfl, hvalued⟩
  · left
    rw [parseMembers, hnone]
  · rcases parseValue_part plainWord hvalued with hnone | ⟨rest, rfl, hrest⟩
    · left
      have hspace :
          skipSpace (0x0a :: 0x20 :: 0x20 :: 0x22 :: (name ++ 0x22 :: 0x3a :: valued)) =
            0x22 :: (name ++ 0x22 :: 0x3a :: valued) := rfl
      rw [parseMembers, hspace, parseName_plain plainName]
      dsimp only
      rw [hnone]
    · exact Or.inr ⟨rest, rfl, hrest⟩

theorem parseMembers_skipSpace (fuel depth : Nat) (text : Bytes) :
    parseMembers fuel depth (skipSpace text) = parseMembers fuel depth text := by
  cases fuel with
  | zero => rfl
  | succ fuel =>
      have hspace : skipSpace (skipSpace text) = skipSpace text :=
        List.dropWhile_idempotent _ _
      rw [parseMembers, parseMembers, hspace]

/-- An object that has members is read member by member. -/
theorem parseValue_brace {text : Bytes} (h : skipSpace text = 0x22 :: tail) :
    parseValue (fuel + 1) (depth + 1) (0x7b :: text) =
      match parseMembers fuel depth text with
      | none => none
      | some (members, rest) => some (.object members, rest) := by
  have hspace : skipSpace (0x7b :: text) = 0x7b :: text := rfl
  rw [parseValue, hspace, ← parseMembers_skipSpace fuel depth text]
  dsimp only
  rw [h]
  rfl

theorem parseValue_brace_open {text : Bytes} (h : skipSpace text = []) :
    parseValue (fuel + 1) (depth + 1) (0x7b :: text) = none := by
  have hspace : skipSpace (0x7b :: text) = 0x7b :: text := rfl
  rw [parseValue, hspace]
  dsimp only
  rw [h]
  rfl

/-! ## The whole file -/

theorem memberText_append (name word tail more : Bytes) :
    memberText name word tail ++ more = memberText name word (tail ++ more) := by
  simp [memberText]

theorem plain_jwtSecretName : ∀ b ∈ jwtSecretName, PlainByte b := by decide +kernel

theorem plain_encryptionKeyName : ∀ b ∈ encryptionKeyName, PlainByte b := by decide +kernel

variable {stored : Secrets}

/-- Secrets whose text needs no escape. -/
structure Secrets.Plain (stored : Secrets) : Prop where
  jwtSecret : ∀ b ∈ stored.jwtSecret, PlainByte b ∧ b < 0x80
  encryptionKey : ∀ b ∈ stored.encryptionKey, PlainByte b ∧ b < 0x80

theorem Secrets.Plain.quoted (plain : stored.Plain) :
    (∀ b ∈ stored.jwtSecret, PlainByte b) ∧ ∀ b ∈ stored.encryptionKey, PlainByte b :=
  ⟨fun b hb => (plain.jwtSecret b hb).1, fun b hb => (plain.encryptionKey b hb).1⟩

theorem parseJson_brace {text : Bytes} (h : skipSpace text = 0x22 :: tail) :
    parseJson (0x7b :: text) =
      match parseMembers (2 * text.length + 3) 9999 text with
      | none => none
      | some (members, rest) => if skipSpace rest = [] then some (.object members) else none := by
  have hfuel : 2 * (0x7b :: text).length + 2 = 2 * text.length + 3 + 1 := by
    rw [List.length_cons]
    omega
  rw [parseJson, hfuel, maxNestingDepth, parseValue_brace h]
  cases parseMembers (2 * text.length + 3) 9999 text <;> rfl

/-- What is written is read back as its two members. -/
theorem parseJson_marshalSecrets (plain : stored.Plain) {trailing : Bytes}
    (space : skipSpace trailing = []) :
    parseJson (marshalSecrets stored ++ trailing) =
      some (.object [(jwtSecretName, .string stored.jwtSecret),
        (encryptionKeyName, .string stored.encryptionKey)]) := by
  have htext : marshalSecrets stored ++ trailing =
      0x7b :: memberText jwtSecretName stored.jwtSecret
        (0x2c :: memberText encryptionKeyName stored.encryptionKey
          (0x0a :: 0x7d :: trailing)) := by
    rw [marshalSecrets, List.cons_append, memberText_append, List.cons_append, memberText_append]
    rfl
  rw [htext, parseJson_brace rfl, parseMembers_member plain_jwtSecretName plain.quoted.1,
    afterMember]
  have hlast (fuel : Nat) : parseMembers (fuel + 2) 9999 (memberText encryptionKeyName
      stored.encryptionKey (0x0a :: 0x7d :: trailing)) =
        some ([(encryptionKeyName, .string stored.encryptionKey)], trailing) := by
    rw [parseMembers_member plain_encryptionKeyName plain.quoted.2]
    rfl
  have hcomma (text : Bytes) : skipSpace (0x2c :: text) = 0x2c :: text := rfl
  rw [hcomma]
  dsimp only
  rw [if_neg (by decide), if_pos rfl, hlast]
  dsimp only
  rw [if_pos space]

theorem memberText_part_start (h : part <+: memberText name word tail) :
    skipSpace part = [] ∨ ∃ quoted, skipSpace part = 0x22 :: quoted := by
  have hspaces : ∀ front ∈ List.inits ([0x0a, 0x20, 0x20] : Bytes), skipSpace front = [] := by
    decide
  rcases prefix_append_cases (show part <+: [0x0a, 0x20, 0x20] ++ _ from h) with
    hfront | ⟨rest, rfl, hrest⟩
  · exact Or.inl (hspaces part ((List.mem_inits part _).mpr hfront))
  · cases rest with
    | nil => exact Or.inl rfl
    | cons b quoted =>
        obtain ⟨rfl, -⟩ := List.cons_prefix_cons.mp hrest
        exact Or.inr ⟨quoted, rfl⟩

/-- The members that are written, cut off anywhere, are no members. -/
theorem parseMembers_secrets_part (plain : stored.Plain)
    (h : part <+: memberText jwtSecretName stored.jwtSecret
      (0x2c :: memberText encryptionKeyName stored.encryptionKey [0x0a, 0x7d])) :
    parseMembers (fuel + 3) depth part = none ∨
      part = memberText jwtSecretName stored.jwtSecret
        (0x2c :: memberText encryptionKeyName stored.encryptionKey [0x0a, 0x7d]) := by
  rcases parseMembers_part plain_jwtSecretName plain.quoted.1 h with hnone | ⟨rest, rfl, hrest⟩
  · exact Or.inl hnone
  rw [parseMembers_member plain_jwtSecretName plain.quoted.1]
  cases rest with
  | nil => exact Or.inl rfl
  | cons b second =>
    obtain ⟨rfl, hsecond⟩ := List.cons_prefix_cons.mp hrest
    have hafter : afterMember (fuel + 2) depth (jwtSecretName, .string stored.jwtSecret)
        (0x2c :: second) =
          match parseMembers (fuel + 2) depth second with
          | none => none
          | some (members, rest) =>
              some ((jwtSecretName, .string stored.jwtSecret) :: members, rest) := rfl
    rw [hafter]
    rcases parseMembers_part plain_encryptionKeyName plain.quoted.2 hsecond with
      hnone | ⟨last, rfl, hlast⟩
    · left
      rw [hnone]
    · rw [parseMembers_member plain_encryptionKeyName plain.quoted.2]
      have hends : ∀ last ∈ List.inits ([0x0a, 0x7d] : Bytes),
          skipSpace last = [] ∨ last = [0x0a, 0x7d] := by decide
      rcases hends last ((List.mem_inits last _).mpr hlast) with hopen | rfl
      · left
        rw [afterMember, hopen]
      · exact Or.inr rfl

/-- What is written, cut off anywhere, is no JSON text. -/
theorem parseJson_part (plain : stored.Plain) (h : part <+: marshalSecrets stored) :
    parseJson part = none ∨ part = marshalSecrets stored := by
  cases part with
  | nil => exact Or.inl rfl
  | cons b text =>
    obtain ⟨rfl, htext⟩ := List.cons_prefix_cons.mp h
    rcases memberText_part_start htext with hspace | ⟨quoted, hquoted⟩
    · left
      have hfuel : 2 * (0x7b :: text).length + 2 = 2 * text.length + 3 + 1 := by
        rw [List.length_cons]
        omega
      rw [parseJson, hfuel, maxNestingDepth, parseValue_brace_open hspace]
    · rw [parseJson_brace hquoted]
      rcases parseMembers_secrets_part plain htext with hnone | rfl
      · left
        rw [hnone]
      · exact Or.inr rfl

/-! ## The secrets -/

theorem setSecret_jwtSecret (stored : Secrets) (secret : Bytes) (ascii : ∀ b ∈ secret, b < 0x80) :
    setSecret stored jwtSecretName (.string secret) = some { stored with jwtSecret := secret } := by
  have hname : foldName jwtSecretName = bytesOf "JWT_SECRET" := by decide +kernel
  rw [setSecret, if_pos hname, decodeString, replaceInvalid_ascii ascii]
  rfl

theorem setSecret_encryptionKey (stored : Secrets) (key : Bytes) (ascii : ∀ b ∈ key, b < 0x80) :
    setSecret stored encryptionKeyName (.string key) =
      some { stored with encryptionKey := key } := by
  have hname : foldName encryptionKeyName = bytesOf "ENCRYPTION_KEY" := by decide +kernel
  have hother : foldName encryptionKeyName ≠ bytesOf "JWT_SECRET" := by decide +kernel
  rw [setSecret, if_neg hother, if_pos hname, decodeString, replaceInvalid_ascii ascii]
  rfl

theorem unmarshal_marshal (plain : stored.Plain) {trailing : Bytes}
    (space : skipSpace trailing = []) :
    unmarshalSecrets (marshalSecrets stored ++ trailing) = some stored := by
  rw [unmarshalSecrets, parseJson_marshalSecrets plain space]
  have hjwt := setSecret_jwtSecret ⟨[], []⟩ stored.jwtSecret fun b hb => (plain.jwtSecret b hb).2
  have hkey := setSecret_encryptionKey ⟨stored.jwtSecret, []⟩ stored.encryptionKey fun b hb =>
    (plain.encryptionKey b hb).2
  simp only [List.foldlM_cons, List.foldlM_nil, hjwt, hkey, Option.bind_eq_bind,
    Option.bind_some]
  rfl

theorem unmarshal_part (plain : stored.Plain) (h : part <+: marshalSecrets stored) :
    unmarshalSecrets part = none ∨ part = marshalSecrets stored := by
  rcases parseJson_part plain h with hnone | hwhole
  · left
    rw [unmarshalSecrets, hnone]
  · exact Or.inr hwhole

end OpsUp.Configuration
