import OpsUp.Go.Hex

/-!
# Credential encryption

Credentials are stored as the hexadecimal text of a random nonce followed by the
AES-256-GCM output.  The cipher itself is a parameter: `Lawful` is the round trip
of authenticated encryption and `Authentic` adds that a sealed text does not open
under another key.
-/

namespace OpsUp.Crypto

open OpsUp.Go

/-- `cipher.NewGCM(aes.NewCipher(key))`: key, nonce and text. -/
structure GCM where
  sealBytes : Bytes → Bytes → Bytes → Bytes
  openBytes : Bytes → Bytes → Bytes → Option Bytes

def nonceSize : Nat := 12

/-- What `rand.Reader` delivers for one nonce. -/
abbrev Nonce := { bytes : Bytes // bytes.length = nonceSize }

/-- Accepted only by the one-way storage migration. -/
def legacyEncryptionKey : String :=
  "0123456789abcdef0123456789abcdef0123456789abcdef0123456789abcdef"

/-- `aes.NewCipher`: AES-128, AES-192 or AES-256. -/
def newCipher (key : Bytes) : Except String Unit :=
  if key.length = 16 ∨ key.length = 24 ∨ key.length = 32 then .ok ()
  else .error ("crypto/aes: invalid key size " ++ toString key.length)

structure GCM.Lawful (gcm : GCM) : Prop where
  open_seal : ∀ (key : Bytes) (nonce : Nonce) (plaintext : Bytes),
    gcm.openBytes key nonce (gcm.sealBytes key nonce plaintext) = some plaintext

structure GCM.Authentic (gcm : GCM) : Prop extends gcm.Lawful where
  open_other : ∀ (key other : Bytes) (nonce : Nonce) (plaintext : Bytes),
    newCipher key = .ok () → newCipher other = .ok () → key ≠ other →
    gcm.openBytes other nonce (gcm.sealBytes key nonce plaintext) = none

/-- The text spells 32 bytes in hexadecimal. -/
def ValidKey (hexKey : String) : Prop :=
  ∃ key, hexDecodeString hexKey = .ok key ∧ key.length = 32

theorem validKey_legacy : ValidKey legacyEncryptionKey := ⟨_, rfl, rfl⟩

/-- `rand` is what the random reader delivers, `none` when reading it fails. -/
def encrypt (gcm : GCM) (rand : Option Nonce) (plaintext : Bytes) (hexKey : String) :
    Except String String :=
  match hexDecodeString hexKey with
  | .error err => .error ("decode hex key: " ++ err)
  | .ok key =>
      match newCipher key with
      | .error err => .error ("create cipher: " ++ err)
      | .ok () =>
          match rand with
          | none => .error "generate nonce: read failed"
          | some nonce => .ok (hexEncodeToString (nonce ++ gcm.sealBytes key nonce plaintext))

def decrypt (gcm : GCM) (ciphertext hexKey : String) : Except String Bytes :=
  match hexDecodeString hexKey with
  | .error err => .error ("decode hex key: " ++ err)
  | .ok key =>
      match hexDecodeString ciphertext with
      | .error err => .error ("decode ciphertext: " ++ err)
      | .ok data =>
          match newCipher key with
          | .error err => .error ("create cipher: " ++ err)
          | .ok () =>
              if data.length < nonceSize then .error "ciphertext too short"
              else
                match gcm.openBytes key (data.take nonceSize) (data.drop nonceSize) with
                | none => .error "cipher: message authentication failed"
                | some plaintext => .ok plaintext

/-- Whether a stored value opens under a key: `crypto.Decrypt` returned no error. -/
def Opens (gcm : GCM) (hexKey ciphertext : String) : Prop :=
  ∃ plaintext, decrypt gcm ciphertext hexKey = .ok plaintext

instance (gcm : GCM) (hexKey ciphertext : String) : Decidable (Opens gcm hexKey ciphertext) :=
  match h : decrypt gcm ciphertext hexKey with
  | .ok plaintext => isTrue ⟨plaintext, h⟩
  | .error _ => isFalse fun ⟨_, hopen⟩ => by rw [h] at hopen; cases hopen

variable {gcm : GCM} {rand : Option Nonce} {plaintext : Bytes} {hexKey ciphertext : String}

/-- What a successful encryption has drawn and produced. -/
theorem encrypt_eq_ok_iff : encrypt gcm rand plaintext hexKey = .ok ciphertext ↔
    ∃ key nonce, hexDecodeString hexKey = .ok key ∧ newCipher key = .ok () ∧
      rand = some nonce ∧
      ciphertext = hexEncodeToString (nonce ++ gcm.sealBytes key nonce plaintext) := by
  unfold encrypt
  cases hkey : hexDecodeString hexKey with
  | error err => simp
  | ok key =>
      cases hcipher : newCipher key with
      | error err => simp [hcipher]
      | ok passed =>
          cases rand with
          | none => simp [hcipher]
          | some nonce =>
              simp only [hcipher, Except.ok.injEq, Option.some.injEq]
              constructor
              · rintro rfl
                exact ⟨key, nonce, rfl, hcipher, rfl, rfl⟩
              · rintro ⟨_, _, rfl, -, rfl, rfl⟩
                rfl

/-- What a successful decryption has read and opened. -/
theorem decrypt_eq_ok_iff : decrypt gcm ciphertext hexKey = .ok plaintext ↔
    ∃ key data, hexDecodeString hexKey = .ok key ∧ hexDecodeString ciphertext = .ok data ∧
      newCipher key = .ok () ∧ nonceSize ≤ data.length ∧
      gcm.openBytes key (data.take nonceSize) (data.drop nonceSize) = some plaintext := by
  unfold decrypt
  cases hkey : hexDecodeString hexKey with
  | error err => simp
  | ok key =>
      cases hdata : hexDecodeString ciphertext with
      | error err => simp
      | ok data =>
          cases hcipher : newCipher key with
          | error err => simp [hcipher]
          | ok passed =>
              by_cases hshort : data.length < nonceSize
              · simp [hcipher, hshort, Nat.not_le.mpr hshort]
              · cases hopen : gcm.openBytes key (data.take nonceSize) (data.drop nonceSize) with
                | none => simp [hcipher, hshort, hopen]
                | some opened => simp [hcipher, hshort, hopen, Nat.not_lt.mp hshort]

/-- A valid key and a delivered nonce are all that encryption needs. -/
theorem encrypt_ok_of_validKey (gcm : GCM) (plaintext : Bytes) (valid : ValidKey hexKey)
    (nonce : Nonce) :
    ∃ text, encrypt gcm (some nonce) plaintext hexKey = .ok text := by
  obtain ⟨key, hkey, hlength⟩ := valid
  refine ⟨_, encrypt_eq_ok_iff.mpr ⟨key, nonce, hkey, ?_, rfl, rfl⟩⟩
  simp [newCipher, hlength]

/-- The nonce alone makes the stored text non-empty. -/
theorem hexEncode_nonce_ne_empty (nonce : Nonce) (body : Bytes) :
    hexEncodeToString (nonce ++ body) ≠ "" := by
  apply hexEncodeToString_ne_empty
  intro hempty
  have hlength := nonce.property
  rw [(List.append_eq_nil_iff.mp hempty).1] at hlength
  cases hlength

theorem encrypt_ne_empty (encrypted : encrypt gcm rand plaintext hexKey = .ok ciphertext) :
    ciphertext ≠ "" := by
  obtain ⟨key, nonce, -, -, -, rfl⟩ := encrypt_eq_ok_iff.mp encrypted
  exact hexEncode_nonce_ne_empty nonce _

/-- Decryption of an encryption opens the sealed text with the given key. -/
theorem decrypt_hexEncode (key : Bytes) (nonce : Nonce) (body : Bytes)
    (hkey : hexDecodeString hexKey = .ok key) (hcipher : newCipher key = .ok ()) :
    decrypt gcm (hexEncodeToString (nonce ++ body)) hexKey =
      match gcm.openBytes key nonce body with
      | none => .error "cipher: message authentication failed"
      | some plaintext => .ok plaintext := by
  have hlength := nonce.property
  unfold decrypt
  rw [hkey, hexDecodeString_hexEncodeToString]
  simp only [hcipher]
  rw [if_neg (by simp [hlength]), List.take_left' hlength, List.drop_left' hlength]

/-- Decryption undoes encryption under every spelling of the key. -/
theorem decrypt_encrypt (lawful : gcm.Lawful) {otherKey : String}
    (encrypted : encrypt gcm rand plaintext hexKey = .ok ciphertext)
    (same : hexDecodeString otherKey = hexDecodeString hexKey) :
    decrypt gcm ciphertext otherKey = .ok plaintext := by
  obtain ⟨key, nonce, hkey, hcipher, -, rfl⟩ := encrypt_eq_ok_iff.mp encrypted
  rw [decrypt_hexEncode key nonce _ (same.trans hkey) hcipher, lawful.open_seal]

/-- Only the key that encrypted a value decrypts it. -/
theorem decrypt_encrypt_ok_iff (authentic : gcm.Authentic) {otherKey : String} {opened : Bytes}
    (encrypted : encrypt gcm rand plaintext hexKey = .ok ciphertext) :
    decrypt gcm ciphertext otherKey = .ok opened ↔
      hexDecodeString otherKey = hexDecodeString hexKey ∧ opened = plaintext := by
  constructor
  · intro hopened
    obtain ⟨key, nonce, hkey, hcipher, -, rfl⟩ := encrypt_eq_ok_iff.mp encrypted
    cases hother : hexDecodeString otherKey with
    | error err => simp [decrypt, hother] at hopened
    | ok other =>
        cases hsize : newCipher other with
        | error err => simp [decrypt, hother, hsize] at hopened
        | ok passed =>
            rw [decrypt_hexEncode other nonce _ hother hsize] at hopened
            by_cases hsame : key = other
            · subst hsame
              rw [authentic.open_seal] at hopened
              exact ⟨hkey.symm, (Except.ok.inj hopened).symm⟩
            · rw [authentic.open_other key other nonce plaintext hcipher hsize hsame] at hopened
              cases hopened
  · rintro ⟨same, rfl⟩
    exact decrypt_encrypt authentic.toLawful encrypted same

/-! ## A cipher to evaluate on -/

/-- The tag is the key and its length; nothing is hidden, but every law holds. -/
def tagGCM : GCM where
  sealBytes := fun key _ plaintext => plaintext ++ (key ++ [UInt8.ofNat key.length])
  openBytes := fun key _ body =>
    let size := body.length - (key.length + 1)
    if key.length + 1 ≤ body.length ∧ body.drop size = key ++ [UInt8.ofNat key.length] then
      some (body.take size)
    else none

theorem newCipher_length {key : Bytes} (accepted : newCipher key = .ok ()) :
    key.length = 16 ∨ key.length = 24 ∨ key.length = 32 := by
  unfold newCipher at accepted
  split at accepted
  · assumption
  · cases accepted

theorem tagGCM_authentic : tagGCM.Authentic where
  open_seal := by
    intro key nonce plaintext
    have hlength : (plaintext ++ (key ++ [UInt8.ofNat key.length])).length =
        plaintext.length + (key.length + 1) := by
      rw [List.length_append, List.length_append, List.length_singleton]
    simp only [tagGCM, hlength, Nat.add_sub_cancel, List.drop_left, List.take_left]
    rw [if_pos ⟨by omega, trivial⟩]
  open_other := by
    intro key other nonce plaintext hkey hother hne
    have hkeyLength := newCipher_length hkey
    have hotherLength := newCipher_length hother
    simp only [tagGCM]
    rw [if_neg]
    rintro ⟨-, htag⟩
    have hlast := congrArg List.getLast? htag
    rw [List.getLast?_drop] at hlast
    simp only [List.getLast?_append, List.getLast?_singleton, Option.some_or] at hlast
    split at hlast
    · cases hlast
    · have hlength : key.length = other.length := by
        have hbyte := congrArg UInt8.toNat (Option.some.inj hlast)
        simp only [UInt8.toNat_ofNat'] at hbyte
        omega
      apply hne
      simpa [hlength] using htag

def zeroNonce : Nonce := ⟨List.replicate nonceSize 0, List.length_replicate⟩

/-- What is stored for `secret` under a key. -/
def sealedSecret (key : String) : String :=
  match encrypt tagGCM (some zeroNonce) (bytesOf "secret") key with
  | .ok ciphertext => ciphertext
  | .error _ => ""

end OpsUp.Crypto
