import OpsUp.Api.ServerHandler

/-!
# What validation accepts

`validate` on a request for SSH and on a request for RDP, each as the conditions under
which it accepts and the request that it leaves behind.
-/

namespace OpsUp.Api

open OpsUp.Go

/-- `0` stands for the default port. -/
def portOr (default port : Int) : Int := if port = 0 then default else port

def authTypeOr (authType : String) : String := if authType = "" then "key" else authType

/-- The request `r` is accepted for SSH and becomes `v`. -/
structure ValidSSH (r v : ServerCreateReq) : Prop where
  protocol : r.protocol = "" ∨ r.protocol = "ssh"
  port_pos : 1 ≤ portOr 22 r.port
  port_le : portOr 22 r.port ≤ 65535
  authType : authTypeOr r.authType = "key" ∨ authTypeOr r.authType = "password"
  hostKey : trimSpace r.hostKey = "" ∨ isHostFingerprint (trimSpace r.hostKey) = true
  jumpServerId : ∀ jumpId, r.jumpServerId = some jumpId → 0 < jumpId
  result : v = { r with
    protocol := "ssh"
    port := portOr 22 r.port
    rdpDomain := ""
    rdpCertFingerprint := ""
    authType := authTypeOr r.authType
    hostKey := trimSpace r.hostKey }

/-- The request `r` is accepted for RDP and becomes `v`. -/
structure ValidRDP (r v : ServerCreateReq) : Prop where
  protocol : r.protocol = "rdp"
  port_pos : 1 ≤ portOr 3389 r.port
  port_le : portOr 3389 r.port ≤ 65535
  password : r.password = ""
  privateKey : r.privateKey = ""
  copyKeyFrom : r.copyKeyFrom = 0
  hostKey : r.hostKey = ""
  jumpServerId : r.jumpServerId = none
  fingerprint : normalizeCertFingerprint r.rdpCertFingerprint = "" ∨
    isCertFingerprint (normalizeCertFingerprint r.rdpCertFingerprint) = true
  result : v = { r with
    port := portOr 3389 r.port
    authType := "password"
    rdpCertFingerprint := normalizeCertFingerprint r.rdpCertFingerprint }

variable {r v : ServerCreateReq}

theorem withDefaultAuthType_authTypeOr (r : ServerCreateReq) :
    withDefaultAuthType r = { r with authType := authTypeOr r.authType } := by
  unfold withDefaultAuthType authTypeOr
  split <;> rfl

theorem withDefaultPort_rdp (rdp : r.protocol = "rdp") :
    withDefaultPort r = { r with port := portOr 3389 r.port } := by
  unfold withDefaultPort portOr
  by_cases hport : r.port = 0
  · rw [if_pos ⟨rdp, hport⟩, if_pos hport]
  · rw [if_neg (fun h => hport h.2), if_neg hport, if_neg hport]

theorem withDefaultPort_ssh (ssh : r.protocol ≠ "rdp") :
    withDefaultPort r = { r with port := portOr 22 r.port } := by
  unfold withDefaultPort portOr
  by_cases hport : r.port = 0
  · rw [if_neg (fun h => ssh h.1), if_pos hport, if_pos hport]
  · rw [if_neg (fun h => hport h.2), if_neg hport, if_neg hport]

theorem validateSSH_eq_ok_iff : validateSSH r = .ok v ↔
    (authTypeOr r.authType = "key" ∨ authTypeOr r.authType = "password") ∧
    (trimSpace r.hostKey = "" ∨ isHostFingerprint (trimSpace r.hostKey) = true) ∧
    (∀ jumpId, r.jumpServerId = some jumpId → 0 < jumpId) ∧
    v = { r with
      rdpDomain := ""
      rdpCertFingerprint := ""
      authType := authTypeOr r.authType
      hostKey := trimSpace r.hostKey } := by
  unfold validateSSH
  rw [withDefaultAuthType_authTypeOr]
  dsimp only
  by_cases hauth : authTypeOr r.authType = "key" ∨ authTypeOr r.authType = "password"
  · rw [if_neg (by simpa only [ne_eq, not_and, Decidable.not_not, Decidable.or_iff_not_imp_left]
      using hauth)]
    by_cases hkey : trimSpace r.hostKey = "" ∨ isHostFingerprint (trimSpace r.hostKey) = true
    · rw [if_neg (by simpa only [ne_eq, not_and, Bool.not_eq_false, Decidable.or_iff_not_imp_left]
        using hkey)]
      cases hjump : r.jumpServerId with
      | none =>
          dsimp only
          rw [Except.ok.injEq]
          constructor
          · intro hresult
            exact ⟨hauth, hkey, nofun, hresult.symm⟩
          · rintro ⟨-, -, -, hresult⟩
            exact hresult.symm
      | some jumpId =>
          dsimp only
          by_cases hpositive : jumpId ≤ 0
          · rw [if_pos hpositive]
            constructor
            · nofun
            · rintro ⟨-, -, hjumps, -⟩
              exact absurd (hjumps jumpId rfl) (Int.not_lt.mpr hpositive)
          · rw [if_neg hpositive, Except.ok.injEq]
            constructor
            · intro hresult
              refine ⟨hauth, hkey, ?_, hresult.symm⟩
              rintro _ ⟨⟩
              exact Int.not_le.mp hpositive
            · rintro ⟨-, -, -, hresult⟩
              exact hresult.symm
    · rw [if_pos (by simpa only [not_or, Bool.not_eq_true] using hkey)]
      simp [hkey]
  · rw [if_pos (by simpa only [not_or] using hauth)]
    simp [hauth]

theorem validateRDP_eq_ok_iff : validateRDP r = .ok v ↔
    r.password = "" ∧ r.privateKey = "" ∧ r.copyKeyFrom = 0 ∧ r.hostKey = "" ∧
    r.jumpServerId = none ∧
    (normalizeCertFingerprint r.rdpCertFingerprint = "" ∨
      isCertFingerprint (normalizeCertFingerprint r.rdpCertFingerprint) = true) ∧
    v = { r with
      authType := "password"
      rdpCertFingerprint := normalizeCertFingerprint r.rdpCertFingerprint } := by
  unfold validateRDP
  by_cases hsettings : r.password ≠ "" ∨ r.privateKey ≠ "" ∨ r.copyKeyFrom ≠ 0 ∨ r.hostKey ≠ "" ∨
      r.jumpServerId ≠ none
  · rw [if_pos hsettings]
    constructor
    · nofun
    · rintro ⟨hpassword, hprivateKey, hcopy, hhostKey, hjump, -⟩
      simp [hpassword, hprivateKey, hcopy, hhostKey, hjump] at hsettings
  · rw [if_neg hsettings]
    simp only [not_or, ne_eq, Decidable.not_not] at hsettings
    dsimp only
    by_cases hpin : normalizeCertFingerprint r.rdpCertFingerprint = "" ∨
        isCertFingerprint (normalizeCertFingerprint r.rdpCertFingerprint) = true
    · rw [if_neg (by simpa only [ne_eq, not_and, Bool.not_eq_false, Decidable.or_iff_not_imp_left]
        using hpin)]
      obtain ⟨hpassword, hprivateKey, hcopy, hhostKey, hjump⟩ := hsettings
      rw [Except.ok.injEq]
      constructor
      · intro hresult
        exact ⟨hpassword, hprivateKey, hcopy, hhostKey, hjump, hpin, hresult.symm⟩
      · rintro ⟨-, -, -, -, -, -, hresult⟩
        exact hresult.symm
    · rw [if_pos (by simpa only [not_or, Bool.not_eq_true] using hpin)]
      simp [hpin]

/-- The port is checked between the two settlements of the request. -/
theorem validatePort_ssh (ssh : r.protocol = "ssh") : validatePort r =
    if portOr 22 r.port < 1 ∨ 65535 < portOr 22 r.port then .error errPort
    else validateSSH { r with port := portOr 22 r.port } := by
  have hssh : r.protocol ≠ "rdp" := by
    rw [ssh]
    decide
  unfold validatePort
  rw [withDefaultPort_ssh hssh]
  dsimp only
  rw [if_neg hssh]

theorem validatePort_rdp (rdp : r.protocol = "rdp") : validatePort r =
    if portOr 3389 r.port < 1 ∨ 65535 < portOr 3389 r.port then .error errPort
    else validateRDP { r with port := portOr 3389 r.port } := by
  unfold validatePort
  rw [withDefaultPort_rdp rdp]
  dsimp only
  rw [if_pos rdp]

theorem validate_ssh (ssh : r.protocol = "" ∨ r.protocol = "ssh") :
    validate r = validatePort { r with protocol := "ssh" } := by
  have hnamed : withDefaultProtocol r = { r with protocol := "ssh" } := by
    unfold withDefaultProtocol
    split
    · rfl
    · next hempty => rw [← ssh.resolve_left hempty]
  unfold validate
  rw [hnamed]
  rfl

theorem validate_rdp (rdp : r.protocol = "rdp") : validate r = validatePort r := by
  have hnamed : withDefaultProtocol r = r := by
    unfold withDefaultProtocol
    rw [if_neg (by rw [rdp]; decide)]
  unfold validate
  rw [hnamed]
  dsimp only
  rw [if_neg (by simp [rdp])]

theorem validate_other (ssh : ¬ (r.protocol = "" ∨ r.protocol = "ssh"))
    (rdp : r.protocol ≠ "rdp") : validate r = .error errProtocol := by
  rw [not_or] at ssh
  unfold validate withDefaultProtocol
  rw [if_neg ssh.1]
  dsimp only
  rw [if_pos ⟨ssh.2, rdp⟩]

theorem protocol_of_validate (ssh : r.protocol = "" ∨ r.protocol = "ssh")
    (ok : validate r = .ok v) : v.protocol = "ssh" := by
  rw [validate_ssh ssh, validatePort_ssh rfl] at ok
  split at ok
  · cases ok
  · obtain ⟨-, -, -, rfl⟩ := validateSSH_eq_ok_iff.mp ok
    rfl

/-- What a request for SSH is accepted under, and as. -/
theorem validate_ssh_iff : (validate r = .ok v ∧ v.protocol = "ssh") ↔ ValidSSH r v := by
  by_cases hssh : r.protocol = "" ∨ r.protocol = "ssh"
  · have hport := validatePort_ssh (r := { r with protocol := "ssh" }) rfl
    rw [validate_ssh hssh, hport]
    dsimp only
    by_cases hrange : portOr 22 r.port < 1 ∨ 65535 < portOr 22 r.port
    · rw [if_pos hrange]
      constructor
      · rintro ⟨h, -⟩
        cases h
      · intro valid
        have hpos := valid.port_pos
        have hle := valid.port_le
        omega
    · rw [if_neg hrange, validateSSH_eq_ok_iff]
      constructor
      · rintro ⟨⟨hauth, hkey, hjump, hresult⟩, -⟩
        exact ⟨hssh, by omega, by omega, hauth, hkey, hjump, hresult⟩
      · intro valid
        refine ⟨⟨valid.authType, valid.hostKey, valid.jumpServerId, valid.result⟩, ?_⟩
        rw [valid.result]
  · constructor
    · rintro ⟨h, hv⟩
      by_cases hrdp : r.protocol = "rdp"
      · rw [validate_rdp hrdp, validatePort_rdp hrdp] at h
        split at h
        · cases h
        · obtain ⟨-, -, -, -, -, -, rfl⟩ := validateRDP_eq_ok_iff.mp h
          rw [hrdp] at hv
          exact absurd hv (by decide)
      · rw [validate_other hssh hrdp] at h
        cases h
    · intro valid
      exact absurd valid.protocol hssh

/-- What a request for RDP is accepted under, and as. -/
theorem validate_rdp_iff : (validate r = .ok v ∧ v.protocol = "rdp") ↔ ValidRDP r v := by
  by_cases hrdp : r.protocol = "rdp"
  · rw [validate_rdp hrdp, validatePort_rdp hrdp]
    by_cases hrange : portOr 3389 r.port < 1 ∨ 65535 < portOr 3389 r.port
    · rw [if_pos hrange]
      constructor
      · rintro ⟨h, -⟩
        cases h
      · intro valid
        have hpos := valid.port_pos
        have hle := valid.port_le
        omega
    · rw [if_neg hrange, validateRDP_eq_ok_iff]
      constructor
      · rintro ⟨⟨hpassword, hprivateKey, hcopy, hhostKey, hjump, hpin, hresult⟩, -⟩
        exact ⟨hrdp, by omega, by omega, hpassword, hprivateKey, hcopy, hhostKey, hjump, hpin,
          hresult⟩
      · intro valid
        refine ⟨⟨valid.password, valid.privateKey, valid.copyKeyFrom, valid.hostKey,
          valid.jumpServerId, valid.fingerprint, valid.result⟩, ?_⟩
        rw [valid.result]
        exact hrdp
  · constructor
    · rintro ⟨h, hv⟩
      by_cases hssh : r.protocol = "" ∨ r.protocol = "ssh"
      · rw [protocol_of_validate hssh h] at hv
        exact absurd hv (by decide)
      · rw [validate_other hssh hrdp] at h
        cases h
    · intro valid
      exact absurd valid.protocol hrdp

end OpsUp.Api
