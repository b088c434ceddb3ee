import OpsUp.Configuration.SecretsRuns

/-!
# Loading is stable

A run of `Load` changes no file that there is, and a run that succeeds leaves the secrets
that it has used to the next one.
-/

namespace OpsUp.Configuration

open OpsUp.Go OpsUp.Interaction OpsUp.Posix Program
open OpsUp.Crypto (legacyEncryptionKey)

/-- A secret is left to the secrets file. -/
def NeedsSecrets (env : Environment) : Prop :=
  env.getenv "OPSUP_JWT_SECRET" = [] ∨ env.getenv "OPSUP_ENCRYPTION_KEY" = []

def secretsPath (env : Environment) : Bytes := (environmentConfig env).secretsPath

/-- What `Load` makes of the secrets. -/
def settle (env : Environment) : Except String Secrets → Except String Config
  | .error err => .error err
  | .ok stored => ((environmentConfig env).fill stored).check

/-! ## The checks -/

theorem check_ok_iff {cfg checked : Config} :
    cfg.check = .ok checked ↔ 32 ≤ cfg.jwtSecret.length ∧ cfg.jwtSecret ≠ defaultJWTSecret ∧
      ∃ key, hexDecodeString (byteText cfg.encryptionKey) = .ok key ∧ key.length = 32 ∧
        hexEncodeToString key ≠ legacyEncryptionKey ∧
        checked = { cfg with encryptionKey := bytesOf (hexEncodeToString key) } := by
  unfold Config.check
  constructor
  · intro h
    split at h
    · cases h
    · next hjwt =>
        split at h
        · cases h
        · next key hkey =>
            split at h
            · cases h
            · next hlength =>
                split at h
                · cases h
                · next hlegacy =>
                    exact ⟨by omega, fun hsame => hjwt (Or.inr hsame), key, hkey,
                      Decidable.not_not.mp hlength, hlegacy, (Except.ok.inj h).symm⟩
  · rintro ⟨hlong, hdefault, key, hkey, hlength, hlegacy, rfl⟩
    have hjwt : ¬ (cfg.jwtSecret.length < 32 ∨ cfg.jwtSecret = defaultJWTSecret) := by
      rintro (hshort | hsame)
      · omega
      · exact hdefault hsame
    rw [if_neg hjwt, hkey]
    dsimp only
    rw [if_neg (not_not.mpr hlength), if_neg hlegacy]

/-- What is promised of a configuration that is returned. -/
structure Config.Sound (env : Environment) (cfg : Config) : Prop where
  jwtSecret : env.getenv "OPSUP_JWT_SECRET" ≠ [] → cfg.jwtSecret = env.getenv "OPSUP_JWT_SECRET"
  encryptionKey : env.getenv "OPSUP_ENCRYPTION_KEY" ≠ [] →
    byteText cfg.encryptionKey = toLower (byteText (env.getenv "OPSUP_ENCRYPTION_KEY"))
  long : 32 ≤ cfg.jwtSecret.length
  changed : cfg.jwtSecret ≠ defaultJWTSecret
  size : cfg.encryptionKey.length = 64
  digits : ∀ c ∈ (byteText cfg.encryptionKey).toList, IsLowerHex c
  new : byteText cfg.encryptionKey ≠ legacyEncryptionKey

theorem sound_of_check {env : Environment} {filled : Config} {checked : Config}
    (jwt : env.getenv "OPSUP_JWT_SECRET" ≠ [] → filled.jwtSecret = env.getenv "OPSUP_JWT_SECRET")
    (key : env.getenv "OPSUP_ENCRYPTION_KEY" ≠ [] →
      filled.encryptionKey = env.getenv "OPSUP_ENCRYPTION_KEY")
    (h : filled.check = .ok checked) : checked.Sound env := by
  obtain ⟨hlong, hdefault, value, hvalue, hlength, hlegacy, rfl⟩ := check_ok_iff.mp h
  have hspelled : byteText (bytesOf (hexEncodeToString value)) = hexEncodeToString value :=
    byteText_bytesOf (hexEncodeToString_ascii value)
  refine ⟨jwt, fun hset => ?_, hlong, hdefault, ?_, ?_, ?_⟩
  · rw [← key hset, toLower_of_hexDecodeString hvalue]
    exact hspelled
  · have hsize := length_bytesOf_hex value
    dsimp only
    omega
  · dsimp only
    rw [hspelled, hexEncodeToString, String.toList_ofList]
    exact fun c hc => isLowerHex_of_mem_hexChars hc
  · dsimp only
    rw [hspelled]
    exact hlegacy

theorem fill_jwtSecret {env : Environment} (stored : Secrets)
    (set : env.getenv "OPSUP_JWT_SECRET" ≠ []) :
    ((environmentConfig env).fill stored).jwtSecret = env.getenv "OPSUP_JWT_SECRET" := if_neg set

theorem fill_encryptionKey {env : Environment} (stored : Secrets)
    (set : env.getenv "OPSUP_ENCRYPTION_KEY" ≠ []) :
    ((environmentConfig env).fill stored).encryptionKey = env.getenv "OPSUP_ENCRYPTION_KEY" :=
  if_neg set

theorem sound_of_settle {env : Environment} {loaded : Except String Secrets} {cfg : Config}
    (h : settle env loaded = .ok cfg) : cfg.Sound env := by
  cases loaded with
  | error err => cases h
  | ok stored => exact sound_of_check (fill_jwtSecret stored) (fill_encryptionKey stored) h

/-! ## The runs of `Load` -/

section Runs

variable {κ : Type} {resolve : Bytes → κ} {faults : Prop} {explain : Bytes → String}
  {env : Environment} {before after : Files κ} {events : List (Event diskCalls)}
  {result : Except String Config}

theorem load_of_needs (needs : NeedsSecrets env) :
    load explain env =
      loadOrCreateSecrets explain (secretsPath env) >>= fun loaded => .ret (settle env loaded) := by
  have hneeds : (environmentConfig env).jwtSecret = [] ∨ (environmentConfig env).encryptionKey = [] :=
    needs
  refine (if_pos hneeds).trans ?_
  congr 1
  funext loaded
  cases loaded <;> rfl

theorem load_of_not_needs (set : ¬ NeedsSecrets env) :
    load explain env = .ret (environmentConfig env).check := if_neg set

theorem load_executes_iff {service : Service diskCalls (Files κ)} (needs : NeedsSecrets env) :
    Executes service (load explain env) before events result after ↔
      ∃ loaded, Executes service (loadOrCreateSecrets explain (secretsPath env)) before events
        loaded after ∧ result = settle env loaded := by
  rw [load_of_needs needs, executes_bind_iff]
  constructor
  · rintro ⟨front, back, loaded, middle, rfl, hrun, hreturn⟩
    obtain ⟨rfl, rfl, rfl⟩ := executes_ret_iff.mp hreturn
    exact ⟨loaded, by rwa [List.append_nil], rfl⟩
  · rintro ⟨loaded, hrun, rfl⟩
    exact ⟨events, [], loaded, after, (List.append_nil _).symm, hrun, executes_ret_iff.mpr ⟨rfl, rfl, rfl⟩⟩

variable [DecidableEq κ]

/-- No step of `Load` changes a file or adds another than the secrets file. -/
theorem steps_onlyAdd {rest : OnDisk (Except String Config)}
    (steps : Steps (disk resolve faults) (load explain env) before events rest after) :
    OnlyAdds (resolve (secretsPath env)) before after := by
  by_cases hneeds : NeedsSecrets env
  · rw [load_of_needs hneeds] at steps
    have kept : Keeps (disk resolve faults)
        (.alone fun _ _ _ final => OnlyAdds (resolve (secretsPath env)) before final)
        (fun _ _ _ => True)
        (loadOrCreateSecrets explain (secretsPath env) >>= fun loaded => .ret (settle env loaded))
        [] before :=
      Keeps.bind (loadOrCreateSecrets_keeps.mono fun _ _ _ _ => keeps_alone_ret trivial)
    exact steps.state_invariant kept (.refl _ _)
  · rw [load_of_not_needs hneeds] at steps
    obtain ⟨-, -, rfl⟩ := Steps.of_ret steps
    exact .refl _ _

/-- The secrets that a successful run has used are in the file that it leaves. -/
theorem settled_of_ok {cfg : Config} (needs : NeedsSecrets env)
    (run : Executes (disk resolve faults) (load explain env) before events (.ok cfg) after) :
    ∃ content stored, after (resolve (secretsPath env)) = some content ∧
      unmarshalSecrets content = some stored ∧ settle env (.ok stored) = .ok cfg := by
  obtain ⟨loaded, hrun, hcfg⟩ := (load_executes_iff needs).mp run
  cases loaded with
  | error err => cases hcfg
  | ok stored =>
      cases outcome_of_executes hrun with
      | stopped fault failed same unwritten =>
          obtain ⟨err, herr⟩ := failed
          cases herr
      | read found same undrawn value =>
          rcases value with ⟨-, err, herr⟩ | ⟨read, hread, hvalue⟩
          · cases herr
          · obtain rfl := Except.ok.inj hvalue
            exact ⟨_, stored, same ▸ found, hread, hcfg.symm⟩
      | @created jwt key count absent sizes received written holds value =>
          rcases value with ⟨-, err, herr⟩ | ⟨hcount, hvalue⟩
          · cases herr
          · obtain rfl := Except.ok.inj hvalue
            rw [List.take_of_length_le hcount] at holds
            exact ⟨_, _, holds, unmarshal_marshal (freshSecrets_plain jwt key) rfl, hcfg.symm⟩

/-- Without faults, a file that there is decides the run, and nothing is drawn. -/
theorem read_of_faultless {content : Bytes} (needs : NeedsSecrets env)
    (found : before (resolve (secretsPath env)) = some content)
    (run : Executes (disk resolve False) (load explain env) before events result after) :
    draws events = [] ∧ (unmarshalSecrets content = none ∧ (∃ err, result = .error err) ∨
      ∃ stored, unmarshalSecrets content = some stored ∧ result = settle env (.ok stored)) := by
  obtain ⟨loaded, hrun, rfl⟩ := (load_executes_iff needs).mp run
  cases outcome_of_executes hrun with
  | stopped fault failed same unwritten => exact fault.elim
  | @read other held same undrawn value =>
      obtain rfl := Option.some.inj (held.symm.trans found)
      refine ⟨undrawn, ?_⟩
      rcases value with ⟨hnone, err, rfl⟩ | ⟨stored, hstored, rfl⟩
      · exact Or.inl ⟨hnone, err, rfl⟩
      · exact Or.inr ⟨stored, hstored, rfl⟩
  | created absent sizes received written holds value =>
      rw [found] at absent
      cases absent

/-- A run that succeeds returns what holds of every configuration that is used. -/
theorem sound_of_ok {cfg : Config}
    (run : Executes (disk resolve faults) (load explain env) before events (.ok cfg) after) :
    cfg.Sound env := by
  by_cases hneeds : NeedsSecrets env
  · obtain ⟨loaded, -, hcfg⟩ := (load_executes_iff hneeds).mp run
    exact sound_of_settle hcfg.symm
  · rw [load_of_not_needs hneeds] at run
    obtain ⟨-, hcfg, -⟩ := executes_ret_iff.mp run
    exact sound_of_check (fun _ => rfl) (fun _ => rfl) hcfg.symm

/-- A later run without faults, on the same secrets file, returns the same. -/
theorem again_of_ok {cfg : Config} {later final : Files κ} {result : Except String Config}
    {again : List (Event diskCalls)}
    (run : Executes (disk resolve faults) (load explain env) before events (.ok cfg) after)
    (untouched : later (resolve (secretsPath env)) = after (resolve (secretsPath env)))
    (rerun : Executes (disk resolve False) (load explain env) later again result final) :
    result = .ok cfg := by
  by_cases hneeds : NeedsSecrets env
  · obtain ⟨content, stored, hfile, hstored, hcfg⟩ := settled_of_ok hneeds run
    obtain ⟨-, ⟨hnone, -⟩ | ⟨read, hread, rfl⟩⟩ :=
      read_of_faultless hneeds (untouched.trans hfile) rerun
    · rw [hstored] at hnone
      cases hnone
    · rw [hstored] at hread
      rw [← Option.some.inj hread, hcfg]
  · rw [load_of_not_needs hneeds] at run rerun
    obtain ⟨-, hcfg, -⟩ := executes_ret_iff.mp run
    obtain ⟨-, hresult, -⟩ := executes_ret_iff.mp rerun
    rw [hresult, hcfg]

/-- `Load` touches no file that there is and creates the secrets file only when it needs
it; what it returns is sound, and every later run returns the same. -/
theorem load_stable (resolve : Bytes → κ) (explain : Bytes → String) (env : Environment)
    (before : Files κ) :
    (∀ {events rest after}, Steps (disk resolve True) (load explain env) before events rest after →
      (∀ k content, before k = some content → after k = some content) ∧
      ∀ k, before k = none → after k ≠ none → k = resolve (secretsPath env) ∧
        (env.getenv "OPSUP_JWT_SECRET" = [] ∨ env.getenv "OPSUP_ENCRYPTION_KEY" = [])) ∧
    ∀ {events cfg after},
      Executes (disk resolve True) (load explain env) before events (.ok cfg) after →
        cfg.Sound env ∧
        ∀ later : Files κ,
          later (resolve (secretsPath env)) = after (resolve (secretsPath env)) →
            (∃ events result final,
              Executes (disk resolve False) (load explain env) later events result final) ∧
            ∀ events result final,
              Executes (disk resolve False) (load explain env) later events result final →
                result = .ok cfg := by
  constructor
  · intro events rest after steps
    have hadds := steps_onlyAdd steps
    constructor
    · intro k content hk
      rcases hadds k with hsame | ⟨habsent, -⟩
      · rw [hsame, hk]
      · rw [hk] at habsent
        cases habsent
    · intro k habsent hnew
      rcases hadds k with hsame | ⟨-, hpath⟩
      · exact absurd (hsame.trans habsent) hnew
      · refine ⟨hpath, ?_⟩
        by_contra hset
        rw [load_of_not_needs hset] at steps
        obtain ⟨-, -, rfl⟩ := Steps.of_ret steps
        exact hnew habsent
  · intro events cfg after run
    refine ⟨sound_of_ok run, fun later untouched => ⟨?_, fun again result final rerun => ?_⟩⟩
    · exact exists_executes (disk_total resolve False) _ later
    · exact again_of_ok run untouched rerun

end Runs

/-- An environment that sets nothing. -/
def unsetEnvironment : Environment := ⟨fun _ => [], none⟩

/-- The first start creates the secrets file, and every later one returns its secrets. -/
theorem load_stable_created : ∃ events cfg after,
    Executes (disk id True) (load (fun _ => "") unsetEnvironment) (fun _ => none) events (.ok cfg)
      after ∧
    (∃ content, after (secretsPath unsetEnvironment) = some content) ∧
    cfg.Sound unsetEnvironment ∧
    (∃ events result final, Executes (disk id False) (load (fun _ => "") unsetEnvironment) after
      events result final) ∧
    ∀ events result final, Executes (disk id False) (load (fun _ => "") unsetEnvironment) after
      events result final → result = .ok cfg := by
  let path := secretsPath unsetEnvironment
  let zeros : Bytes := List.replicate 32 0
  let data := secretsData (freshSecrets zeros zeros)
  let opened : Files Bytes := Function.update (fun _ => none) path (some [])
  have hwrite : disk id True opened (.write path data) (data.length, none) _ :=
    ⟨rfl, Nat.le_refl _, Or.inl ⟨rfl, rfl⟩⟩
  have hsync (files : Files Bytes) : disk id True files (.sync path) (.ok ()) files :=
    ⟨rfl, Or.inl rfl⟩
  have hcreated : Executes (disk id True) (loadOrCreateSecrets (fun _ => "") path) (fun _ => none)
      _ (.ok (freshSecrets zeros zeros)) _ :=
    executes_of_opened rfl (show zeros.length = 32 ∧ zeros.length = 32 from ⟨rfl, rfl⟩)
      (.call hwrite (.call (hsync _) (.call ⟨rfl, Or.inl rfl⟩ (.refl _ _))))
  have haccepted : (settle unsetEnvironment (.ok (freshSecrets zeros zeros))).isOk = true := by
    decide +kernel
  cases hcfg : settle unsetEnvironment (.ok (freshSecrets zeros zeros)) with
  | error err =>
      rw [hcfg] at haccepted
      cases haccepted
  | ok cfg =>
      have hneeds : NeedsSecrets unsetEnvironment := Or.inl rfl
      have hrun := (load_executes_iff hneeds).mpr ⟨_, hcreated, hcfg.symm⟩
      obtain ⟨content, _, hfile, -⟩ := settled_of_ok hneeds hrun
      obtain ⟨hsound, hlater⟩ := (load_stable id (fun _ => "") unsetEnvironment _).2 hrun
      exact ⟨_, cfg, _, hrun, ⟨content, hfile⟩, hsound, hlater _ rfl⟩

end OpsUp.Configuration
