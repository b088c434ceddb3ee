import OpsUp.Api.Validation
import OpsUp.SshClient.Client

/-!
# Host key pins

A pin is accepted when its base64 decodes to 32 bytes, and used by comparing texts.
Decoding passes over line breaks and over the two bits that the last of 43
characters has too many, so that there are accepted pins that are the fingerprint of
no key.
-/

namespace OpsUp.Api

open OpsUp.Go OpsUp.SshClient

/-- `ssh.FingerprintSHA256` of a key with this digest. -/
def fingerprintOf (digest : Bytes) : String := hostKeyPrefix ++ rawStdEncodeToString digest

/-- The text is the fingerprint of a digest, letter for letter. -/
def IsFingerprint (hostKey : String) : Prop :=
  ∃ digest : Bytes, digest.length = 32 ∧ hostKey = fingerprintOf digest

/-- What follows the prefix has no line break and no spare bits. -/
def isExactPin (hostKey : String) : Bool :=
  hostKey = "" || isCanonicalBase64 (trimPrefix hostKey hostKeyPrefix)

theorem isHostFingerprint_iff {hostKey : String} : isHostFingerprint hostKey = true ↔
    ∃ text digest, hostKey = hostKeyPrefix ++ text ∧ rawStdDecodeString text = some digest ∧
      digest.length = 32 := by
  unfold isHostFingerprint
  constructor
  · intro hchecked
    cases hdecoded : rawStdDecodeString (trimPrefix hostKey hostKeyPrefix) with
    | none => simp [hdecoded] at hchecked
    | some digest =>
        simp only [hdecoded, Bool.and_eq_true, beq_iff_eq] at hchecked
        obtain ⟨text, rfl⟩ := hasPrefix_iff.mp hchecked.1
        rw [trimPrefix_append] at hdecoded
        exact ⟨text, digest, rfl, hdecoded, hchecked.2⟩
  · rintro ⟨text, digest, rfl, hdecoded, hlength⟩
    rw [trimPrefix_append, hdecoded]
    simp [hasPrefix_iff.mpr ⟨text, rfl⟩, hlength]

/-- An accepted pin is a fingerprint exactly when it is spelled like one. -/
theorem isFingerprint_iff {hostKey : String} (checked : isHostFingerprint hostKey = true) :
    IsFingerprint hostKey ↔ isExactPin hostKey = true := by
  obtain ⟨text, digest, rfl, hdecoded, hlength⟩ := isHostFingerprint_iff.mp checked
  have hnonempty : hostKeyPrefix ++ text ≠ "" := by
    intro hempty
    have hlist := congrArg String.toList hempty
    rw [String.toList_append] at hlist
    cases hlist
  unfold isExactPin
  rw [trimPrefix_append, decide_eq_false hnonempty, Bool.false_or, isCanonicalBase64_iff hdecoded]
  constructor
  · rintro ⟨other, hother, hsame⟩
    have htext : text = rawStdEncodeToString other := by
      have htrimmed := congrArg (fun pin => trimPrefix pin hostKeyPrefix) hsame
      simpa only [fingerprintOf, trimPrefix_append] using htrimmed
    rw [htext, rawStdDecodeString_rawStdEncodeToString] at hdecoded
    rw [htext, Option.some.inj hdecoded]
  · rintro rfl
    exact ⟨digest, hlength, rfl⟩

/-- No key is ever accepted for a pin that is not spelled exactly. -/
theorem hostKeyCallback_refuses {ssh : SSH}
    (fingerprints : ∀ key, IsFingerprint (ssh.fingerprintSHA256 key)) {pin : String}
    (checked : isHostFingerprint pin = true) (stray : isExactPin pin = false) (hostname : String)
    (key : ssh.PublicKey) : hostKeyCallback ssh pin hostname key ≠ none := by
  intro haccepted
  obtain ⟨hsame, -⟩ := (hostKeyCallback_eq_none_iff ssh).mp haccepted
  have hexact := (isFingerprint_iff checked).mp (hsame ▸ fingerprints key)
  rw [stray] at hexact
  cases hexact

theorem fingerprintOf_checked {digest : Bytes} (long : digest.length = 32) :
    isHostFingerprint (fingerprintOf digest) = true :=
  isHostFingerprint_iff.mpr
    ⟨_, digest, rfl, rawStdDecodeString_rawStdEncodeToString digest, long⟩

theorem not_isSpace_base64Char {value : Nat} (small : value < 64) :
    isSpace (base64Char value) = false := by
  have hall : ∀ n < 64, isSpace (base64Char n) = false := by decide
  exact hall value small

theorem fingerprintOf_visible (digest : Bytes) :
    ∀ c ∈ (fingerprintOf digest).toList, isSpace c = false := by
  intro c hc
  rw [fingerprintOf, String.toList_append, List.mem_append] at hc
  rcases hc with hc | hc
  · have hall : hostKeyPrefix.toList.all (fun c => !isSpace c) = true := by decide
    simpa using List.all_eq_true.mp hall c hc
  · rw [rawStdEncodeToString, String.toList_ofList] at hc
    obtain ⟨value, hvalue, rfl⟩ := List.mem_map.mp hc
    exact not_isSpace_base64Char (encodeQuanta_lt digest value hvalue)

/-- A request that is valid with another host key is valid with this one. -/
theorem validate_withHostKey {r v : ServerCreateReq} {hostKey : String} (key : String)
    (valid : validate { r with hostKey := hostKey } = .ok v) (ssh : v.protocol = "ssh")
    (checked : trimSpace key = "" ∨ isHostFingerprint (trimSpace key) = true) :
    validate { r with hostKey := key } = .ok { v with hostKey := trimSpace key } := by
  have hvalid := validate_ssh_iff.mp ⟨valid, ssh⟩
  apply And.left
  apply validate_ssh_iff.mpr
  exact ⟨hvalid.protocol, hvalid.port_pos, hvalid.port_le, hvalid.authType, checked,
    hvalid.jumpServerId, by rw [hvalid.result]⟩

/--
For every request, what is stored is empty or a fingerprint exactly when the request is
refused or its trimmed host key is spelled exactly; and every fingerprint, within any
white space, is accepted and stored without the white space.
-/
theorem saved_pin_matches_iff (r : ServerCreateReq) :
    ((∀ (v : ServerCreateReq) (id : Int) (credentials : String × String),
        validate r = .ok v → v.protocol = "ssh" →
          (savedServer v id credentials).hostKey = "" ∨
            IsFingerprint (savedServer v id credentials).hostKey) ↔
      ((∃ v, validate r = .ok v ∧ v.protocol = "ssh") →
        isExactPin (trimSpace r.hostKey) = true)) ∧
    ∀ (v : ServerCreateReq) (digest : Bytes) (before after : String),
      validate { r with hostKey := "" } = .ok v → v.protocol = "ssh" → digest.length = 32 →
      (∀ c ∈ before.toList, isSpace c = true) → (∀ c ∈ after.toList, isSpace c = true) →
        validate { r with hostKey := before ++ fingerprintOf digest ++ after } =
          .ok { v with hostKey := fingerprintOf digest } := by
  constructor
  · constructor
    · rintro hmatches ⟨v, hok, hssh⟩
      have hvalid := validate_ssh_iff.mp ⟨hok, hssh⟩
      have hstored := hmatches v 0 ("", "") hok hssh
      have hpin : (savedServer v 0 ("", "")).hostKey = trimSpace r.hostKey := by
        rw [savedServer, hvalid.result]
      rw [hpin] at hstored
      rcases hstored with hempty | hfingerprint
      · rw [hempty]
        rfl
      · rcases hvalid.hostKey with hempty | hchecked
        · rw [hempty]
          rfl
        · exact (isFingerprint_iff hchecked).mp hfingerprint
    · intro hexact v id credentials hok hssh
      have hvalid := validate_ssh_iff.mp ⟨hok, hssh⟩
      have hpin : (savedServer v id credentials).hostKey = trimSpace r.hostKey := by
        rw [savedServer, hvalid.result]
      rw [hpin]
      exact hvalid.hostKey.imp_right fun hchecked =>
        (isFingerprint_iff hchecked).mpr (hexact ⟨v, hok, hssh⟩)
  · intro v digest before after hok hssh hlength hbefore hafter
    have htrimmed := trimSpace_padded hbefore (fingerprintOf_visible digest) hafter
    have hchecked : isHostFingerprint (trimSpace (before ++ fingerprintOf digest ++ after)) = true := by
      rw [htrimmed]
      exact fingerprintOf_checked hlength
    rw [validate_withHostKey _ hok hssh (Or.inr hchecked), htrimmed]

/-- A request whose pin decodes, but leaves bits over. -/
def strayRequest : ServerCreateReq where
  protocol := "ssh"
  rdpDomain := ""
  rdpCertFingerprint := ""
  name := "server"
  host := "localhost"
  port := 22
  username := "user"
  authType := "password"
  hostKey := "SHA256:AAAAAAAAAAAAAAAAAAAAAAAAAAAAAAAAAAAAAAAAAAB"
  privateKey := ""
  password := "remote-secret"
  copyKeyFrom := 0
  jumpServerId := none
  group := ""
  description := ""

theorem saved_pin_stray : validate strayRequest = .ok strayRequest ∧
    strayRequest.protocol = "ssh" ∧ (savedServer strayRequest 0 ("", "")).hostKey ≠ "" ∧
      ¬ IsFingerprint (savedServer strayRequest 0 ("", "")).hostKey := by
  have hchecked : isHostFingerprint strayRequest.hostKey = true := by decide
  refine ⟨by decide, rfl, by decide, ?_⟩
  intro hfingerprint
  have hexact := (isFingerprint_iff hchecked).mp hfingerprint
  exact absurd hexact (by decide)

end OpsUp.Api
