import OpsUp.Api.Validation

/-!
# Certificate pins of RDP servers

A pin is normalised when the server is saved and decoded when the target is dialled.
SHA-256 and the verification of certificate chains for a host name are parameters.
-/

namespace OpsUp.Api

open OpsUp.Go OpsUp.Models OpsUp.Database

/-- The fields of `tls.Config` that the gateway sets; certificates are their raw bytes. -/
structure TLSConfig where
  minVersion : Nat
  serverName : String
  insecureSkipVerify : Bool
  verifyConnection : Option (List Bytes → Except String Unit)

def versionTLS12 : Nat := 0x0303

def errInvalidPin : String := "invalid certificate pin"
def errMissingCertificate : String := "missing RDP certificate"
def errFingerprintMismatch : String := "RDP certificate fingerprint mismatch"

/-- The function that `rdpTLSConfig` installs for the digest `expected`. -/
def verifyPin (sha256 : Bytes → Bytes) (expected : Bytes) : List Bytes → Except String Unit
  | [] => .error errMissingCertificate
  | first :: _ => if expected = sha256 first then .ok () else .error errFingerprintMismatch

def rdpTLSConfig (sha256 : Bytes → Bytes) (server : Server) : Except String TLSConfig :=
  let cfg : TLSConfig :=
    { minVersion := versionTLS12
      serverName := server.host
      insecureSkipVerify := false
      verifyConnection := none }
  if server.rdpCertFingerprint = "" then .ok cfg
  else
    match hexDecodeString server.rdpCertFingerprint with
    | .error _ => .error errInvalidPin
    | .ok expected =>
        if expected.length ≠ 32 then .error errInvalidPin
        else .ok { cfg with
          insecureSkipVerify := true
          verifyConnection := some (verifyPin sha256 expected) }

/--
What `crypto/tls` makes of the chain that the peer presents: `trusted` is the verification
of a chain for a host name, and `VerifyConnection` has the last word.
-/
def TLSConfig.accepts (cfg : TLSConfig) (trusted : String → List Bytes → Bool)
    (chain : List Bytes) : Bool :=
  (cfg.insecureSkipVerify || trusted cfg.serverName chain) &&
    match cfg.verifyConnection with
    | none => true
    | some verify => (verify chain).isOk

/-- What is left of a submitted pin without the white space around it and without colons. -/
def pinDigits (text : String) : String := removeAll (trimSpace text) ':'

/-- The text spells the digest, in letters of either case. -/
def SpellsDigest (text : String) (digest : Bytes) : Prop :=
  hexDecodeString (pinDigits text) = .ok digest ∧ digest.length = 32

/-! ## Normalisation -/

theorem normalizeCertFingerprint_eq (text : String) :
    normalizeCertFingerprint text = toLower (pinDigits text) := rfl

theorem toLower_eq_empty_iff {text : String} : toLower text = "" ↔ text = "" := by
  rw [toLower, String.ofList_eq_empty_iff, List.map_eq_nil_iff, String.toList_eq_nil_iff]

/-- The check of validation is that the text spells a digest. -/
theorem isCertFingerprint_iff {text : String} :
    isCertFingerprint (normalizeCertFingerprint text) = true ↔
      ∃ digest, SpellsDigest text digest := by
  rw [isCertFingerprint, normalizeCertFingerprint_eq, hexDecodeString_toLower]
  unfold SpellsDigest
  cases hdecoded : hexDecodeString (pinDigits text) with
  | error err => simp
  | ok bytes =>
      rw [beq_iff_eq]
      constructor
      · intro hlength
        exact ⟨bytes, rfl, hlength⟩
      · rintro ⟨digest, hsame, hlength⟩
        rwa [Except.ok.inj hsame]

theorem SpellsDigest.normalize {text : String} {digest : Bytes}
    (spells : SpellsDigest text digest) :
    normalizeCertFingerprint text = hexEncodeToString digest :=
  toLower_of_hexDecodeString spells.1

theorem SpellsDigest.nonempty {text : String} {digest : Bytes}
    (spells : SpellsDigest text digest) : hexEncodeToString digest ≠ "" := by
  apply hexEncodeToString_ne_empty
  rintro rfl
  exact absurd spells.2 (by decide)

/-- A stored pin has nothing to trim or to remove. -/
theorem pinDigits_hexEncodeToString (digest : Bytes) :
    pinDigits (hexEncodeToString digest) = hexEncodeToString digest := by
  have hlower : ∀ c ∈ (hexEncodeToString digest).toList, IsLowerHex c := by
    intro c hc
    rw [hexEncodeToString, String.toList_ofList] at hc
    exact isLowerHex_of_mem_hexChars hc
  have hvisible : ∀ c ∈ (hexEncodeToString digest).toList, isSpace c = false := by
    intro c hc
    have hdigit := isLowerHex_iff.mp (hlower c hc)
    unfold isSpace
    simp only [Bool.or_eq_false_iff, Bool.and_eq_false_iff, decide_eq_false_iff_not]
    omega
  have hnone : ∀ c ∈ "".toList, isSpace c = true := by simp
  have htrimmed : trimSpace ("" ++ hexEncodeToString digest ++ "") = hexEncodeToString digest :=
    trimSpace_padded hnone hvisible hnone
  rw [String.empty_append, String.append_empty] at htrimmed
  have hfilter : (hexEncodeToString digest).toList.filter (fun c => c ≠ ':') =
      (hexEncodeToString digest).toList := by
    apply List.filter_eq_self.mpr
    intro c hc
    have hdigit := isLowerHex_iff.mp (hlower c hc)
    apply decide_eq_true
    rintro rfl
    simp only [Char.reduceToNat] at hdigit
    omega
  rw [pinDigits, htrimmed, removeAll, hfilter, String.ofList_toList]

theorem spellsDigest_hexEncodeToString {digest : Bytes} (length : digest.length = 32) :
    SpellsDigest (hexEncodeToString digest) digest := by
  constructor
  · rw [pinDigits_hexEncodeToString, hexDecodeString_hexEncodeToString]
  · exact length

theorem normalizeCertFingerprint_idem {text : String}
    (checked : normalizeCertFingerprint text = "" ∨
      isCertFingerprint (normalizeCertFingerprint text) = true) :
    normalizeCertFingerprint (normalizeCertFingerprint text) = normalizeCertFingerprint text := by
  rcases checked with hempty | hchecked
  · rw [hempty]
    rfl
  · obtain ⟨digest, hspells⟩ := isCertFingerprint_iff.mp hchecked
    rw [hspells.normalize]
    exact (spellsDigest_hexEncodeToString hspells.2).normalize

/-- What an accepted request stores. -/
theorem ValidRDP.pin {r v : ServerCreateReq} (valid : ValidRDP r v) :
    (v.rdpCertFingerprint = "" ∧ pinDigits r.rdpCertFingerprint = "") ∨
      ∃ digest, SpellsDigest r.rdpCertFingerprint digest ∧
        v.rdpCertFingerprint = hexEncodeToString digest := by
  have hstored : v.rdpCertFingerprint = normalizeCertFingerprint r.rdpCertFingerprint := by
    rw [valid.result]
  rw [hstored]
  rcases valid.fingerprint with hempty | hchecked
  · exact Or.inl ⟨hempty, toLower_eq_empty_iff.mp hempty⟩
  · obtain ⟨digest, hspells⟩ := isCertFingerprint_iff.mp hchecked
    exact Or.inr ⟨digest, hspells, hspells.normalize⟩

/-- An accepted request is its own normal form. -/
theorem ValidRDP.again {r v : ServerCreateReq} (valid : ValidRDP r v) : ValidRDP v v := by
  have hport : portOr 3389 (portOr 3389 r.port) = portOr 3389 r.port := by
    have hpositive := valid.port_pos
    rw [portOr, if_neg (by omega)]
  have hidem := normalizeCertFingerprint_idem valid.fingerprint
  have hpos := valid.port_pos
  have hle := valid.port_le
  have hpin := valid.fingerprint
  obtain ⟨hprotocol, -, -, hpassword, hprivateKey, hcopy, hhostKey, hjump, -, rfl⟩ := valid
  constructor
  · exact hprotocol
  · simpa only [hport] using hpos
  · simpa only [hport] using hle
  · exact hpassword
  · exact hprivateKey
  · exact hcopy
  · exact hhostKey
  · exact hjump
  · simpa only [hidem] using hpin
  · simp only [hport, hidem]

/-! ## Verification -/

theorem verifyPin_isOk_iff {sha256 : Bytes → Bytes} {expected : Bytes} {chain : List Bytes} :
    (verifyPin sha256 expected chain).isOk = true ↔
      ∃ first rest, chain = first :: rest ∧ sha256 first = expected := by
  cases chain with
  | nil => simp [verifyPin, Except.isOk, Except.toBool]
  | cons first rest =>
      rw [verifyPin]
      by_cases hsame : expected = sha256 first
      · rw [if_pos hsame]
        constructor
        · intro _
          exact ⟨first, rest, rfl, hsame.symm⟩
        · intro _
          rfl
      · rw [if_neg hsame]
        constructor
        · nofun
        · rintro ⟨_, _, ⟨⟩, hequal⟩
          exact absurd hequal.symm hsame

variable {sha256 : Bytes → Bytes} {server : Server}

theorem rdpTLSConfig_unpinned (unpinned : server.rdpCertFingerprint = "") :
    rdpTLSConfig sha256 server = .ok
      { minVersion := versionTLS12
        serverName := server.host
        insecureSkipVerify := false
        verifyConnection := none } := by
  unfold rdpTLSConfig
  dsimp only
  rw [if_pos unpinned]

theorem rdpTLSConfig_pinned {digest : Bytes} (length : digest.length = 32)
    (pinned : server.rdpCertFingerprint = hexEncodeToString digest) :
    rdpTLSConfig sha256 server = .ok
      { minVersion := versionTLS12
        serverName := server.host
        insecureSkipVerify := true
        verifyConnection := some (verifyPin sha256 digest) } := by
  have hnonempty : server.rdpCertFingerprint ≠ "" := by
    rw [pinned]
    exact (spellsDigest_hexEncodeToString length).nonempty
  unfold rdpTLSConfig
  dsimp only
  rw [if_neg hnonempty, pinned, hexDecodeString_hexEncodeToString]
  dsimp only
  rw [if_neg (by simp [length])]

/-! ## From the request to the handshake -/

/-- The record that is read back from the row that a save has written. -/
theorem scanRow_saved (row : Row) {v : ServerCreateReq} (named : v.protocol ≠ "") (id : Int)
    (credentials : String × String) :
    ∃ server, scanRow (overwrite row (savedServer v id credentials).withProtocol) = .ok server ∧
      server.host = v.host ∧ server.rdpCertFingerprint = v.rdpCertFingerprint := by
  have hnamed : (savedServer v id credentials).protocol ≠ "" := named
  rw [withProtocol_of_ne hnamed]
  exact ⟨_, rfl, rfl, rfl⟩

/-- Two accepted spellings of one digest are stored alike. -/
theorem ValidRDP.pin_unique {r v other stored : ServerCreateReq} (valid : ValidRDP r v)
    (otherValid : ValidRDP other stored) {digest : Bytes}
    (spells : SpellsDigest r.rdpCertFingerprint digest)
    (otherSpells : SpellsDigest other.rdpCertFingerprint digest) :
    stored.rdpCertFingerprint = v.rdpCertFingerprint := by
  rw [valid.result, otherValid.result]
  dsimp only
  rw [spells.normalize, otherSpells.normalize]

/-- The policy for a record with the pin of an accepted request. -/
theorem ValidRDP.policy {r v : ServerCreateReq} (valid : ValidRDP r v)
    (sameHost : server.host = v.host)
    (samePin : server.rdpCertFingerprint = v.rdpCertFingerprint) :
    ∃ cfg, rdpTLSConfig sha256 server = .ok cfg ∧
      (∀ digest, SpellsDigest r.rdpCertFingerprint digest → ∀ trusted chain,
        cfg.accepts trusted chain = true ↔
          ∃ first rest, chain = first :: rest ∧ sha256 first = digest) ∧
      (v.rdpCertFingerprint = "" → ∀ trusted chain,
        cfg.accepts trusted chain = trusted v.host chain) := by
  rcases valid.pin with ⟨hempty, hdigits⟩ | ⟨digest, hspells, hstored⟩
  · refine ⟨_, rdpTLSConfig_unpinned (samePin.trans hempty), ?_, ?_⟩
    · intro digest hspells
      exact absurd (hspells.normalize.symm.trans (toLower_eq_empty_iff.mpr hdigits))
        hspells.nonempty
    · intro _ trusted chain
      rw [TLSConfig.accepts, Bool.false_or, Bool.and_true, sameHost]
  · refine ⟨_, rdpTLSConfig_pinned hspells.2 (samePin.trans hstored), ?_, ?_⟩
    · intro other hother trusted chain
      obtain rfl : digest = other := Except.ok.inj (hspells.1.symm.trans hother.1)
      rw [TLSConfig.accepts, Bool.true_or, Bool.true_and]
      exact verifyPin_isOk_iff
    · intro hempty
      exact absurd (hstored.symm.trans hempty) hspells.nonempty

/--
An accepted request for RDP stores no pin or the lower-case form of the digest that its
text spells; spellings of one digest are stored alike and validation settles at once; and
whatever row the save has written, the gateway accepts exactly the pinned certificate, or
without a pin what is trusted for the host.
-/
theorem rdp_pins_faithful (sha256 : Bytes → Bytes) {r v : ServerCreateReq}
    (ok : validate r = .ok v) (rdp : v.protocol = "rdp") :
    ((v.rdpCertFingerprint = "" ∧ pinDigits r.rdpCertFingerprint = "") ∨
      ∃ digest, SpellsDigest r.rdpCertFingerprint digest ∧
        v.rdpCertFingerprint = hexEncodeToString digest) ∧
    (∀ other stored digest, validate other = .ok stored → stored.protocol = "rdp" →
      SpellsDigest r.rdpCertFingerprint digest → SpellsDigest other.rdpCertFingerprint digest →
        stored.rdpCertFingerprint = v.rdpCertFingerprint) ∧
    validate v = .ok v ∧
    ∀ (row : Row) (id : Int) (credentials : String × String),
      ∃ server, scanRow (overwrite row (savedServer v id credentials).withProtocol) = .ok server ∧
        ∃ cfg, rdpTLSConfig sha256 server = .ok cfg ∧
          (∀ digest, SpellsDigest r.rdpCertFingerprint digest → ∀ trusted chain,
            cfg.accepts trusted chain = true ↔
              ∃ first rest, chain = first :: rest ∧ sha256 first = digest) ∧
          (v.rdpCertFingerprint = "" → ∀ trusted chain,
            cfg.accepts trusted chain = trusted v.host chain) := by
  have hvalid := validate_rdp_iff.mp ⟨ok, rdp⟩
  refine ⟨hvalid.pin, ?_, (validate_rdp_iff.mpr hvalid.again).1, ?_⟩
  · intro other stored digest hok hrdp hspells hother
    exact hvalid.pin_unique (validate_rdp_iff.mp ⟨hok, hrdp⟩) hspells hother
  · intro row id credentials
    obtain ⟨server, hscanned, hhost, hpin⟩ :=
      scanRow_saved row (by rw [rdp]; decide) id credentials
    exact ⟨server, hscanned, hvalid.policy hhost hpin⟩

/-- A request with a pin in upper case, with colons and white space. -/
def pinnedRequest : ServerCreateReq where
  protocol := "rdp"
  rdpDomain := ""
  rdpCertFingerprint :=
    " AB:CD:EF:01:23:45:67:89:ABCDEF0123456789abcdef0123456789:abcdef0123456789 "
  name := "desktop"
  host := "localhost"
  port := 0
  username := "user"
  authType := ""
  hostKey := ""
  privateKey := ""
  password := ""
  copyKeyFrom := 0
  jumpServerId := none
  group := ""
  description := ""

/-- The bytes that the pin of the request spells. -/
def pinnedDigest : Bytes :=
  (List.replicate 4 [0xab, 0xcd, 0xef, 0x01, 0x23, 0x45, 0x67, 0x89]).flatten

/-- The pin is stored in lower case without colons; a certificate is accepted by its digest,
trusted or not. -/
theorem rdp_pins_faithful_pinned :
    ∃ v, validate pinnedRequest = .ok v ∧ validate v = .ok v ∧
      v.rdpCertFingerprint = "abcdef0123456789abcdef0123456789abcdef0123456789abcdef0123456789" ∧
      ∃ server cfg, scanRow (overwrite (Row.blank "") (savedServer v 1 ("", "")).withProtocol) =
          .ok server ∧ rdpTLSConfig id server = .ok cfg ∧
        cfg.accepts (fun _ _ => false) [pinnedDigest] = true ∧
        cfg.accepts (fun _ _ => true) [[1, 2, 3]] = false := by
  have hok : validate pinnedRequest = .ok { pinnedRequest with
      port := 3389
      authType := "password"
      rdpCertFingerprint :=
        "abcdef0123456789abcdef0123456789abcdef0123456789abcdef0123456789" } := by
    decide +kernel
  obtain ⟨-, -, hagain, hsaved⟩ := rdp_pins_faithful id hok rfl
  obtain ⟨server, hscanned, cfg, hcfg, haccepts, -⟩ := hsaved (Row.blank "") 1 ("", "")
  have hspells : SpellsDigest pinnedRequest.rdpCertFingerprint pinnedDigest := by
    constructor <;> decide +kernel
  refine ⟨_, hok, hagain, rfl, server, cfg, hscanned, hcfg, ?_, ?_⟩
  · exact (haccepts pinnedDigest hspells _ _).mpr ⟨_, _, rfl, rfl⟩
  · rw [Bool.eq_false_iff, ne_eq, haccepts pinnedDigest hspells]
    rintro ⟨first, rest, hchain, hdigest⟩
    obtain ⟨rfl, -⟩ := List.cons.inj hchain
    exact absurd hdigest (by decide)

end OpsUp.Api
