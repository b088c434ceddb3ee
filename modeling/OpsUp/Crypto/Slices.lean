import OpsUp.Crypto.Encryption

/-!
# Decryption of arbitrary text

`Decrypt` takes its data apart by slices, and a slice that is out of range ends the program,
as does a nonce of another length in `gcm.Open`.  The checks before it leave neither.
-/

namespace OpsUp.Crypto

open OpsUp.Go

/-- `data[:n]` -/
def sliceTo (data : Bytes) (n : Nat) : Option Bytes :=
  if n ≤ data.length then some (data.take n) else none

/-- `data[n:]` -/
def sliceFrom (data : Bytes) (n : Nat) : Option Bytes :=
  if n ≤ data.length then some (data.drop n) else none

/-- How a call of `Decrypt` ends. -/
inductive Decrypted where
  | returns (result : Except String Bytes)
  | panics
  deriving DecidableEq

/-- `gcm.Open(nil, nonce, body, nil)` -/
def gcmOpen (gcm : GCM) (key nonce body : Bytes) : Decrypted :=
  if nonce.length ≠ nonceSize then .panics
  else
    match gcm.openBytes key nonce body with
    | none => .returns (.error "cipher: message authentication failed")
    | some plaintext => .returns (.ok plaintext)

/-- `decrypt`, with the slices as the source writes them. -/
def decryptSlices (gcm : GCM) (ciphertext hexKey : String) : Decrypted :=
  match hexDecodeString hexKey with
  | .error err => .returns (.error ("decode hex key: " ++ err))
  | .ok key =>
      match hexDecodeString ciphertext with
      | .error err => .returns (.error ("decode ciphertext: " ++ err))
      | .ok data =>
          match newCipher key with
          | .error err => .returns (.error ("create cipher: " ++ err))
          | .ok () =>
              if data.length < nonceSize then .returns (.error "ciphertext too short")
              else
                match sliceTo data nonceSize, sliceFrom data nonceSize with
                | some nonce, some body => gcmOpen gcm key nonce body
                | _, _ => .panics

def tagSize : Nat := 16

/-- A body without room for a tag does not open. -/
structure GCM.Tagged (gcm : GCM) : Prop where
  open_short : ∀ key nonce body : Bytes, newCipher key = .ok () → body.length < tagSize →
    gcm.openBytes key nonce body = none

variable {gcm : GCM}

/-- Every slice is in range. -/
theorem decryptSlices_eq (gcm : GCM) (ciphertext hexKey : String) :
    decryptSlices gcm ciphertext hexKey = .returns (decrypt gcm ciphertext hexKey) := by
  unfold decryptSlices decrypt
  cases hexDecodeString hexKey with
  | error err => rfl
  | ok key =>
      cases hexDecodeString ciphertext with
      | error err => rfl
      | ok data =>
          dsimp only
          cases newCipher key with
          | error err => rfl
          | ok passed =>
              dsimp only
              split
              · rfl
              · next hlong =>
                  have hsize : nonceSize ≤ data.length := Nat.not_lt.mp hlong
                  have hnonce : (data.take nonceSize).length = nonceSize :=
                    List.length_take_of_le hsize
                  rw [sliceTo, if_pos hsize, sliceFrom, if_pos hsize]
                  dsimp only
                  rw [gcmOpen, if_neg (not_not.mpr hnonce)]
                  cases gcm.openBytes key (data.take nonceSize) (data.drop nonceSize) with
                  | none => rfl
                  | some plaintext => rfl

/-- Text that has no room for a nonce is refused, as is what is no hexadecimal text. -/
theorem decrypt_malformed {ciphertext hexKey : String}
    (malformed : ∀ data, hexDecodeString ciphertext = .ok data → data.length < nonceSize) :
    ∃ err, decrypt gcm ciphertext hexKey = .error err := by
  cases hopened : decrypt gcm ciphertext hexKey with
  | error err => exact ⟨err, rfl⟩
  | ok plaintext =>
      obtain ⟨key, data, -, hdata, -, hlong, -⟩ := decrypt_eq_ok_iff.mp hopened
      exact absurd (malformed data hdata) (Nat.not_lt.mpr hlong)

/-- Text that has no room for a nonce and a tag is refused. -/
theorem decrypt_untagged (tagged : gcm.Tagged) {ciphertext hexKey : String}
    (short : ∀ data, hexDecodeString ciphertext = .ok data → data.length < nonceSize + tagSize) :
    ∃ err, decrypt gcm ciphertext hexKey = .error err := by
  cases hopened : decrypt gcm ciphertext hexKey with
  | error err => exact ⟨err, rfl⟩
  | ok plaintext =>
      obtain ⟨key, data, -, hdata, hcipher, hlong, hopen⟩ := decrypt_eq_ok_iff.mp hopened
      have hbody : (data.drop nonceSize).length < tagSize := by
        have hshort := short data hdata
        rw [List.length_drop]
        omega
      rw [tagged.open_short key _ _ hcipher hbody] at hopen
      cases hopen

/-- A stored text determines its nonce and what was sealed with it. -/
theorem sealed_of_encrypt {nonce other : Nonce} {plaintext replaced key otherKey : Bytes}
    {hexKey otherHexKey text : String} (hkey : hexDecodeString hexKey = .ok key)
    (hother : hexDecodeString otherHexKey = .ok otherKey)
    (encrypted : encrypt gcm (some nonce) plaintext hexKey = .ok text)
    (again : encrypt gcm (some other) replaced otherHexKey = .ok text) :
    nonce = other ∧
      gcm.sealBytes key nonce plaintext = gcm.sealBytes otherKey other replaced := by
  obtain ⟨first, drawn, hfirst, -, hdrawn, htext⟩ := encrypt_eq_ok_iff.mp encrypted
  obtain ⟨second, redrawn, hsecond, -, hredrawn, htextAgain⟩ := encrypt_eq_ok_iff.mp again
  obtain rfl := Option.some.inj hdrawn
  obtain rfl := Option.some.inj hredrawn
  obtain rfl := Except.ok.inj (hkey.symm.trans hfirst)
  obtain rfl := Except.ok.inj (hother.symm.trans hsecond)
  have hbytes := hexEncodeToString_injective (htext.symm.trans htextAgain)
  have hlength := nonce.property.trans other.property.symm
  obtain ⟨hnonce, hsealed⟩ := List.append_inj hbytes hlength
  exact ⟨Subtype.ext hnonce, hsealed⟩

/--
What is encrypted under a key of 32 bytes is decrypted under any spelling of that key; a stored
text determines nonce and sealed text; and whatever the texts, `Decrypt` returns, with an error
when there is no room for the nonce or, with a tagging cipher, for the tag.
-/
theorem decrypt_undoes_encrypt (lawful : gcm.Lawful) :
    (∀ plaintext hexKey (nonce : Nonce), ValidKey hexKey →
      ∃ text, encrypt gcm (some nonce) plaintext hexKey = .ok text ∧
        ∀ otherKey, hexDecodeString otherKey = hexDecodeString hexKey →
          decryptSlices gcm text otherKey = .returns (.ok plaintext)) ∧
    (∀ (nonce other : Nonce) (plaintext replaced key otherKey : Bytes)
      (hexKey otherHexKey text : String), hexDecodeString hexKey = .ok key →
      hexDecodeString otherHexKey = .ok otherKey →
      encrypt gcm (some nonce) plaintext hexKey = .ok text →
      encrypt gcm (some other) replaced otherHexKey = .ok text →
        nonce = other ∧
          gcm.sealBytes key nonce plaintext = gcm.sealBytes otherKey other replaced) ∧
    (∀ ciphertext hexKey, ∃ result, decryptSlices gcm ciphertext hexKey = .returns result ∧
      ((∀ data, hexDecodeString ciphertext = .ok data → data.length < nonceSize) →
        ∃ err, result = .error err) ∧
      (gcm.Tagged →
        (∀ data, hexDecodeString ciphertext = .ok data → data.length < nonceSize + tagSize) →
        ∃ err, result = .error err)) := by
  refine ⟨?_, ?_, ?_⟩
  · intro plaintext hexKey nonce valid
    obtain ⟨text, hencrypted⟩ := encrypt_ok_of_validKey gcm plaintext valid nonce
    refine ⟨text, hencrypted, fun otherKey hsame => ?_⟩
    rw [decryptSlices_eq, decrypt_encrypt lawful hencrypted hsame]
  · intro nonce other plaintext replaced key otherKey hexKey otherHexKey text hkey hother
      hencrypted hagain
    exact sealed_of_encrypt hkey hother hencrypted hagain
  · intro ciphertext hexKey
    exact ⟨_, decryptSlices_eq gcm ciphertext hexKey, decrypt_malformed,
      fun tagged short => decrypt_untagged tagged short⟩

theorem tagGCM_tagged : tagGCM.Tagged where
  open_short := by
    intro key nonce body hcipher hshort
    have hlength := newCipher_length hcipher
    have hsize : ¬ key.length + 1 ≤ body.length := by
      rw [tagSize] at hshort
      omega
    exact if_neg fun hopen => hsize hopen.1

/-- A letter sealed under the legacy key opens in upper case; a nonce alone does not. -/
theorem decrypt_undoes_encrypt_legacy :
    (∃ text, encrypt tagGCM (some zeroNonce) [0x41] legacyEncryptionKey = .ok text ∧
      decryptSlices tagGCM text
        "0123456789ABCDEF0123456789ABCDEF0123456789ABCDEF0123456789ABCDEF" = .returns (.ok [0x41])) ∧
      ∃ err, decryptSlices tagGCM (hexEncodeToString zeroNonce) legacyEncryptionKey =
        .returns (.error err) := by
  obtain ⟨hroundTrip, -, hreturns⟩ := decrypt_undoes_encrypt tagGCM_authentic.toLawful
  constructor
  · obtain ⟨text, hencrypted, hdecrypted⟩ :=
      hroundTrip [0x41] legacyEncryptionKey zeroNonce validKey_legacy
    exact ⟨text, hencrypted, hdecrypted _ (by decide +kernel)⟩
  · obtain ⟨result, hresult, -, huntagged⟩ :=
      hreturns (hexEncodeToString zeroNonce) legacyEncryptionKey
    obtain ⟨err, rfl⟩ := huntagged tagGCM_tagged fun data hdata => by
      rw [hexDecodeString_hexEncodeToString] at hdata
      rw [← Except.ok.inj hdata, zeroNonce.property]
      decide
    exact ⟨err, hresult⟩

end OpsUp.Crypto
