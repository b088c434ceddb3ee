import OpsUp.Configuration.Stability

/-!
# A second start

What a failed attempt to create the secrets file means for the next `Load`.  The attempt
leaves the file behind when the write or the sync fails, and the next `Load` takes it for
the original one.
-/

namespace OpsUp.Configuration

open OpsUp.Go OpsUp.Interaction OpsUp.Posix Program
open OpsUp.Crypto (legacyEncryptionKey)

/-- The secrets that the environment sets pass the checks. -/
structure EnvironmentFits (env : Environment) : Prop where
  jwtSecret : env.getenv "OPSUP_JWT_SECRET" ≠ [] →
    32 ≤ (env.getenv "OPSUP_JWT_SECRET").length ∧ env.getenv "OPSUP_JWT_SECRET" ≠ defaultJWTSecret
  encryptionKey : env.getenv "OPSUP_ENCRYPTION_KEY" ≠ [] →
    ∃ key, hexDecodeString (byteText (env.getenv "OPSUP_ENCRYPTION_KEY")) = .ok key ∧
      key.length = 32 ∧ hexEncodeToString key ≠ legacyEncryptionKey

section Fresh

variable {env : Environment} {jwt key : Bytes} {stored : Nat}

theorem length_marshal_fresh (sizes : jwt.length = 32 ∧ key.length = 32) :
    (marshalSecrets (freshSecrets jwt key)).length = 174 := by
  have hjwtName : jwtSecretName.length = 10 := by decide
  have hkeyName : encryptionKeyName.length = 14 := by decide
  simp only [marshalSecrets, memberText, freshSecrets, List.length_cons, List.length_append,
    length_bytesOf_hex, hjwtName, hkeyName, List.length_nil]
  omega

/-- The object that is cut off is not read; only the newline after it can be missing. -/
theorem unmarshal_take (sizes : jwt.length = 32 ∧ key.length = 32) (stored : Nat) :
    unmarshalSecrets ((secretsData (freshSecrets jwt key)).take stored) =
      if 174 ≤ stored then some (freshSecrets jwt key) else none := by
  have hlength := length_marshal_fresh sizes
  have hplain := freshSecrets_plain jwt key
  rw [secretsData, List.take_append]
  split
  · next hwhole =>
      have hspaces : ∀ trailing ∈ List.inits ([0x0a] : Bytes), skipSpace trailing = [] := by decide
      rw [List.take_of_length_le (by omega)]
      exact unmarshal_marshal hplain (hspaces _ ((List.mem_inits _ _).mpr (List.take_prefix _ _)))
  · next hpart =>
      have hnewline : stored - (marshalSecrets (freshSecrets jwt key)).length = 0 := by omega
      rw [hnewline, List.take_zero, List.append_nil]
      refine (unmarshal_part hplain (List.take_prefix _ _)).resolve_right fun hsame => ?_
      have hshort := congrArg List.length hsame
      rw [List.length_take] at hshort
      omega

/-- Fresh secrets pass the checks when those of the environment do. -/
theorem settle_fresh (sizes : jwt.length = 32 ∧ key.length = 32) (fits : EnvironmentFits env)
    (changed : env.getenv "OPSUP_ENCRYPTION_KEY" = [] →
      hexEncodeToString key ≠ legacyEncryptionKey) :
    ∃ cfg, settle env (.ok (freshSecrets jwt key)) = .ok cfg := by
  have hjwt : 32 ≤ ((environmentConfig env).fill (freshSecrets jwt key)).jwtSecret.length ∧
      ((environmentConfig env).fill (freshSecrets jwt key)).jwtSecret ≠ defaultJWTSecret := by
    by_cases hset : env.getenv "OPSUP_JWT_SECRET" = []
    · have hfilled : ((environmentConfig env).fill (freshSecrets jwt key)).jwtSecret =
        bytesOf (hexEncodeToString jwt) := if_pos hset
      have hdefault : defaultJWTSecret.length = 42 := by decide
      have hsize := length_bytesOf_hex jwt
      rw [hfilled]
      refine ⟨by omega, fun hsame => ?_⟩
      rw [hsame] at hsize
      omega
    · rw [fill_jwtSecret _ hset]
      exact fits.jwtSecret hset
  have hkey : ∃ value, hexDecodeString
      (byteText ((environmentConfig env).fill (freshSecrets jwt key)).encryptionKey) = .ok value ∧
        value.length = 32 ∧ hexEncodeToString value ≠ legacyEncryptionKey := by
    by_cases hset : env.getenv "OPSUP_ENCRYPTION_KEY" = []
    · have hfilled : ((environmentConfig env).fill (freshSecrets jwt key)).encryptionKey =
        bytesOf (hexEncodeToString key) := if_pos hset
      rw [hfilled, byteText_bytesOf (hexEncodeToString_ascii key)]
      exact ⟨key, hexDecodeString_hexEncodeToString key, sizes.2, changed hset⟩
    · rw [fill_encryptionKey _ hset]
      exact fits.encryptionKey hset
  obtain ⟨value, hvalue, hlength, hlegacy⟩ := hkey
  exact ⟨_, check_ok_iff.mpr ⟨hjwt.1, hjwt.2, value, hvalue, hlength, hlegacy, rfl⟩⟩

theorem fits_of_settle {loaded : Except String Secrets} {cfg : Config}
    (settled : settle env loaded = .ok cfg) : EnvironmentFits env := by
  cases loaded with
  | error err => cases settled
  | ok stored =>
      obtain ⟨hlong, hdefault, key, hkey, hlength, hlegacy, -⟩ := check_ok_iff.mp settled
      constructor
      · intro hset
        rw [fill_jwtSecret stored hset] at hlong hdefault
        exact ⟨hlong, hdefault⟩
      · intro hset
        rw [fill_encryptionKey stored hset] at hkey
        exact ⟨key, hkey, hlength, hlegacy⟩

/-- A stored key that is the old default is refused when it is used. -/
theorem settle_legacy (unset : env.getenv "OPSUP_ENCRYPTION_KEY" = [])
    (legacy : hexEncodeToString key = legacyEncryptionKey) :
    ∃ err, settle env (.ok (freshSecrets jwt key)) = .error err := by
  cases hsettled : settle env (.ok (freshSecrets jwt key)) with
  | error err => exact ⟨err, rfl⟩
  | ok cfg =>
      obtain ⟨-, -, value, hvalue, -, hchanged, -⟩ := check_ok_iff.mp hsettled
      have hfilled : ((environmentConfig env).fill (freshSecrets jwt key)).encryptionKey =
        bytesOf (hexEncodeToString key) := if_pos unset
      rw [hfilled, byteText_bytesOf (hexEncodeToString_ascii key),
        hexDecodeString_hexEncodeToString] at hvalue
      obtain rfl := Except.ok.inj hvalue
      exact absurd legacy hchanged

end Fresh

/-! ## What is left behind -/

section Left

variable {κ : Type} [DecidableEq κ] {resolve : Bytes → κ} {explain : Bytes → String}
  {env : Environment} {before left : Files κ} {jwt key : Bytes} {stored : Nat}

/-- A later `Load` without faults fails, although one that draws the same values succeeds
once what is left of the secrets file is taken away. -/
def Harms (resolve : Bytes → κ) (explain : Bytes → String) (env : Environment)
    (left : Files κ) : Prop :=
  ∃ events err final fresh cfg last,
    Executes (disk resolve False) (load explain env) left events (.error err) final ∧
    Executes (disk resolve False) (load explain env)
      (Function.update left (resolve (secretsPath env)) none) fresh (.ok cfg) last ∧
    draws events <+: draws fresh

/-- Without a file and without faults, a run is decided by what it draws. -/
theorem fresh_of_faultless {events : List (Event diskCalls)} {result : Except String Config}
    {after : Files κ} (needs : NeedsSecrets env)
    (absent : before (resolve (secretsPath env)) = none)
    (run : Executes (disk resolve False) (load explain env) before events result after) :
    ∃ jwt key, draws events = [jwt, key] ∧
      result = settle env (.ok (freshSecrets jwt key)) := by
  obtain ⟨loaded, hrun, rfl⟩ := (load_executes_iff needs).mp run
  cases outcome_of_executes hrun with
  | stopped fault failed same unwritten => exact fault.elim
  | read found same undrawn value =>
      rw [absent] at found
      cases found
  | @created jwt key count absent sizes received written holds value =>
      rcases value with ⟨hfault, -⟩ | ⟨-, rfl⟩
      · exact hfault.elim
      · exact ⟨jwt, key, received, rfl⟩

/-- Nothing is harmed where nothing is left. -/
theorem not_harms_of_absent (needs : NeedsSecrets env)
    (absent : left (resolve (secretsPath env)) = none) : ¬ Harms resolve explain env left := by
  rintro ⟨events, err, final, fresh, cfg, last, hfailed, hfresh, hprefix⟩
  have hsame : Function.update left (resolve (secretsPath env)) none = left := by
    rw [← absent, Function.update_eq_self]
  rw [hsame] at hfresh
  obtain ⟨jwt, key, hdrawn, herr⟩ := fresh_of_faultless needs absent hfailed
  obtain ⟨jwt', key', hdrawn', hcfg⟩ := fresh_of_faultless needs absent hfresh
  rw [hdrawn, hdrawn'] at hprefix
  obtain ⟨rfl, rfl⟩ : jwt = jwt' ∧ key = key' := by simpa using hprefix.eq_of_length rfl
  rw [← herr] at hcfg
  cases hcfg

/-- Any two values can be drawn on a fresh start. -/
theorem exists_fresh (needs : NeedsSecrets env)
    (absent : before (resolve (secretsPath env)) = none)
    (sizes : jwt.length = 32 ∧ key.length = 32) :
    ∃ events final, Executes (disk resolve False) (load explain env) before events
      (settle env (.ok (freshSecrets jwt key))) final := by
  let data := secretsData (freshSecrets jwt key)
  have hwrite : disk resolve False
      (Function.update before (resolve (secretsPath env)) (some []))
      (.write (secretsPath env) data) (data.length, none) _ :=
    ⟨rfl, Nat.le_refl _, Or.inl ⟨rfl, rfl⟩⟩
  have hrun : Executes (disk resolve False) (loadOrCreateSecrets explain (secretsPath env)) before
      _ (.ok (freshSecrets jwt key)) _ :=
    executes_of_opened absent sizes (.call hwrite
      (.call ⟨rfl, Or.inl rfl⟩ (.call ⟨rfl, Or.inl rfl⟩ (.refl _ _))))
  exact ⟨_, _, (load_executes_iff needs).mpr ⟨_, hrun, rfl⟩⟩

/-- A file whose secrets are not accepted keeps `Load` from a start that it could make. -/
theorem harms_of_read {content : Bytes} (needs : NeedsSecrets env)
    (fits : EnvironmentFits env) (found : left (resolve (secretsPath env)) = some content)
    (refused : ∀ stored, unmarshalSecrets content = some stored →
      ∃ err, settle env (.ok stored) = .error err) : Harms resolve explain env left := by
  obtain ⟨events, result, final, hrun⟩ :=
    exists_executes (disk_total resolve False) (load explain env) left
  obtain ⟨hdrawn, hresult⟩ := read_of_faultless needs found hrun
  obtain ⟨err, rfl⟩ : ∃ err, result = .error err := by
    rcases hresult with ⟨-, herr⟩ | ⟨stored, hstored, rfl⟩
    · exact herr
    · exact refused stored hstored
  let zeros : Bytes := List.replicate 32 0
  have hzeros : zeros.length = 32 ∧ zeros.length = 32 := ⟨rfl, rfl⟩
  have hchanged : hexEncodeToString zeros ≠ legacyEncryptionKey := by decide
  obtain ⟨cfg, hcfg⟩ := settle_fresh hzeros fits fun _ => hchanged
  have habsent : Function.update left (resolve (secretsPath env)) none
      (resolve (secretsPath env)) = none := Function.update_self _ _ _
  obtain ⟨fresh, last, hfresh⟩ := exists_fresh needs habsent hzeros
  rw [hcfg] at hfresh
  refine ⟨events, err, final, fresh, cfg, last, hrun, hfresh, ?_⟩
  rw [hdrawn]
  exact List.nil_prefix

end Left

/-! ## When an attempt can be retried -/

/-- Unless the environment is wrong in any case, a write stores all but the newline, and
the key that it stores is not the old default. -/
def Retriable (env : Environment) (events : List (Event diskCalls)) : Prop :=
  EnvironmentFits env → ∀ write ∈ writes events, 174 ≤ write.2 ∧
    (env.getenv "OPSUP_ENCRYPTION_KEY" = [] → ∀ key, (draws events)[1]? = some key →
      hexEncodeToString key ≠ legacyEncryptionKey)

section Attempt

variable {κ : Type} [DecidableEq κ] {resolve : Bytes → κ} {explain : Bytes → String}
  {env : Environment} {before after : Files κ} {events : List (Event diskCalls)} {err : String}

theorem retry_unharmed_iff (needs : NeedsSecrets env)
    (absent : before (resolve (secretsPath env)) = none)
    (failed : Executes (disk resolve True) (loadOrCreateSecrets explain (secretsPath env))
      before events (.error err) after) :
    ¬ Harms resolve explain env after ↔ Retriable env events := by
  cases outcome_of_executes failed with
  | stopped fault refused same unwritten =>
      subst same
      refine iff_of_true (not_harms_of_absent needs absent) fun _ write hwrite => ?_
      rw [unwritten] at hwrite
      cases hwrite
  | read found same undrawn value =>
      rw [absent] at found
      cases found
  | @created jwt key stored _ sizes received written holds value =>
      constructor
      · intro hsafe fits write hwrite
        rw [written] at hwrite
        obtain rfl := List.mem_singleton.mp hwrite
        constructor
        · by_contra hshort
          refine hsafe (harms_of_read needs fits holds fun stored hstored => ?_)
          rw [unmarshal_take sizes, if_neg hshort] at hstored
          cases hstored
        · intro hunset drawn hdrawn hlegacy
          rw [received] at hdrawn
          obtain rfl := Option.some.inj hdrawn
          refine hsafe (harms_of_read needs fits holds fun stored hstored => ?_)
          rw [unmarshal_take sizes] at hstored
          split at hstored
          · obtain rfl := Option.some.inj hstored
            exact settle_legacy hunset hlegacy
          · cases hstored
      · rintro hretriable ⟨again, failure, final, fresh, cfg, last, hrun, hfresh, -⟩
        obtain ⟨first, second, -, hcfg⟩ :=
          fresh_of_faultless needs (Function.update_self _ _ _) hfresh
        have hfits := fits_of_settle hcfg.symm
        obtain ⟨hwhole, hchanged⟩ := hretriable hfits _ (written ▸ List.mem_singleton_self _)
        obtain ⟨used, hused⟩ := settle_fresh sizes hfits fun hunset =>
          hchanged hunset key (by rw [received]; rfl)
        obtain ⟨-, ⟨hnone, -⟩ | ⟨stored, hstored, hresult⟩⟩ := read_of_faultless needs holds hrun
        · rw [unmarshal_take sizes, if_pos hwhole] at hnone
          cases hnone
        · rw [unmarshal_take sizes, if_pos hwhole] at hstored
          rw [← Option.some.inj hstored, hused] at hresult
          cases hresult

end Attempt

theorem unsetEnvironment_fits : EnvironmentFits unsetEnvironment :=
  ⟨fun hset => absurd rfl hset, fun hset => absurd rfl hset⟩

/-- The file is whole when only the sync fails. -/
theorem retry_unharmed_failed_sync :
    ∃ events err after,
      Executes (disk id True) (loadOrCreateSecrets (fun _ => "") (secretsPath unsetEnvironment))
        (fun _ => none) events (.error err) after ∧
      (after (secretsPath unsetEnvironment)).isSome ∧
      ¬ Harms id (fun _ => "") unsetEnvironment after := by
  let path := secretsPath unsetEnvironment
  let zeros : Bytes := List.replicate 32 0
  have hzeros : zeros.length = 32 ∧ zeros.length = 32 := ⟨rfl, rfl⟩
  let data := secretsData (freshSecrets zeros zeros)
  let opened : Files Bytes := Function.update (fun _ => none) path (some [])
  have hwrite : disk id True opened (.write path data) (data.length, none) _ :=
    ⟨rfl, Nat.le_refl _, Or.inl ⟨rfl, rfl⟩⟩
  have hsync (files : Files Bytes) : disk id True files (.sync path)
      (.error ⟨false, "input/output error"⟩) files := ⟨rfl, Or.inr ⟨trivial, _, rfl⟩⟩
  have hrun : Executes (disk id True) (loadOrCreateSecrets (fun _ => "") path) (fun _ => none)
      _ (.error "sync secrets file: input/output error") _ :=
    executes_of_opened rfl hzeros (.call hwrite
      (.call (hsync _) (.call ⟨rfl, Or.inl rfl⟩ (.refl _ _))))
  refine ⟨_, _, _, hrun, ?_, (retry_unharmed_iff (Or.inl rfl) rfl hrun).mpr ?_⟩
  · have hopened : opened path = some [] := Function.update_self _ _ _
    change (Function.update opened path ((opened path).map _) path).isSome
    rw [Function.update_self, hopened]
    rfl
  · intro _ write hwrite
    obtain rfl : write = (data, data.length) := List.mem_singleton.mp hwrite
    have hsize : data.length = 174 + 1 := by
      rw [← length_marshal_fresh hzeros]
      exact List.length_append
    refine ⟨by omega, fun _ key hkey => ?_⟩
    obtain rfl : zeros = key := Option.some.inj hkey
    decide

/-- A full disk stores nothing, and the empty file is refused from then on. -/
theorem full_disk_harms :
    ¬ ∀ (explain : Bytes → String) (env : Environment) (before after : Files Bytes)
      (events : List (Event diskCalls)) (err : String), NeedsSecrets env →
        before (secretsPath env) = none →
        Executes (disk id True) (loadOrCreateSecrets explain (secretsPath env)) before events
          (.error err) after → ¬ Harms id explain env after := by
  intro claim
  let path := secretsPath unsetEnvironment
  let zeros : Bytes := List.replicate 32 0
  let data := secretsData (freshSecrets zeros zeros)
  let opened : Files Bytes := Function.update (fun _ => none) path (some [])
  have hwrite : disk id True opened (.write path data)
      (0, some ⟨false, "no space left on device"⟩) opened := by
    refine ⟨?_, Nat.zero_le _, Or.inr ⟨trivial, by simp⟩⟩
    rw [List.take_zero]
    exact (Function.update_idem _ _ _).symm
  have hrun : Executes (disk id True) (loadOrCreateSecrets (fun _ => "") path) (fun _ => none)
      _ (.error "write secrets file: no space left on device") opened :=
    executes_of_opened rfl (show zeros.length = 32 ∧ zeros.length = 32 from ⟨rfl, rfl⟩)
      (.call hwrite (.call ⟨rfl, Or.inl rfl⟩ (.refl _ _)))
  refine claim _ _ _ _ _ _ (Or.inl rfl) rfl hrun (harms_of_read (Or.inl rfl)
    unsetEnvironment_fits (Function.update_self _ _ _) fun stored hstored => ?_)
  cases hstored

end OpsUp.Configuration
