import OpsUp.Api.CredentialStore
import OpsUp.Configuration.Stability

/-!
# Stopping and starting again

`run` loads the configuration, upgrades the stored credentials and serves.  The process may
be stopped at any of its steps, and any call to the disk or the database may fail.  What has
been started once with an environment can be started with it again, and finds everything
that was saved in between.
-/

namespace OpsUp.EndToEnd

open OpsUp.Api OpsUp.Configuration OpsUp.Crypto OpsUp.Database OpsUp.Go OpsUp.Interaction
open OpsUp.Posix Program

/-! ## Stopping in the middle of the upgrade -/

section Upgrade

variable {gcm : GCM} {key : String} {table : ServersTable}

/-- When every call fails from now on, nothing more is committed. -/
theorem exists_abandoned {α : Type} (program : Tx α) (state : TxState) :
    ∃ events value final, Executes (transactions True) program state events value final ∧
      final.committed = state.committed := by
  induction program generalizing state with
  | ret value => exact ⟨[], value, state, .refl _ _, rfl⟩
  | call command next ih =>
      have fails : ∃ reply after, transactions True state command reply after ∧
          after.committed = state.committed := by
        cases command with
        | begin => exact ⟨.error "", state, Or.inr ⟨trivial, ⟨_, rfl⟩, rfl⟩, rfl⟩
        | selectCredentials =>
            exact ⟨.error "", state, ⟨rfl, Or.inr ⟨trivial, _, rfl⟩⟩, rfl⟩
        | readNonce => exact ⟨none, state, ⟨rfl, Or.inr trivial⟩, rfl⟩
        | updateCredentials item =>
            exact ⟨.error "", state, Or.inr ⟨trivial, ⟨_, rfl⟩, rfl⟩, rfl⟩
        | commit =>
            exact ⟨.error "", .idle state.committed, Or.inr ⟨trivial, ⟨_, rfl⟩, rfl⟩, rfl⟩
        | rollback => exact ⟨(), .idle state.committed, rfl, rfl⟩
      obtain ⟨reply, after, hanswer, hafter⟩ := fails
      obtain ⟨events, value, final, hrun, hfinal⟩ := ih reply after
      exact ⟨_, value, final, .call hanswer hrun, hfinal.trans hafter⟩

/-- Stopped at any step, the upgrade has done nothing or everything. -/
theorem upgrade_stopped (lawful : gcm.Lawful) {events : List (Event transactionDB)}
    {rest : Tx (Except String Nat)} {state : TxState}
    (steps : Steps (transactions True) (upgradeCredentials gcm key) (.idle table) events rest
      state) :
    state.committed = table ∨ TableUpgraded gcm key table state.committed := by
  obtain ⟨more, value, final, hrest, hfinal⟩ := exists_abandoned rest state
  obtain ⟨-, -, hunchanged, hupgraded⟩ :=
    upgradeCredentials_run lawful (steps.trans hrest : Executes _ _ _ _ value final)
  rw [← hfinal]
  cases value with
  | error err => exact Or.inl (hunchanged ⟨err, rfl⟩)
  | ok count => exact Or.inr (hupgraded count rfl).1

end Upgrade

/-! ## The secrets that the files hold -/

section Held

variable {κ : Type} {resolve : Bytes → κ} {explain : Bytes → String} {env : Environment}
  {faults : Prop} {before after files : Files κ} {cfg other : Config}
  {events : List (Event diskCalls)}

/-- The configuration that `Load` makes of what is in the files. -/
structure HoldsConfig (resolve : Bytes → κ) (env : Environment) (files : Files κ)
    (cfg : Config) : Prop where
  stored : NeedsSecrets env → ∃ content stored, files (resolve (secretsPath env)) = some content ∧
    unmarshalSecrets content = some stored ∧ settle env (.ok stored) = .ok cfg
  given : ¬ NeedsSecrets env → (environmentConfig env).check = .ok cfg

theorem HoldsConfig.unique (first : HoldsConfig resolve env files cfg)
    (second : HoldsConfig resolve env files other) : cfg = other := by
  by_cases hneeds : NeedsSecrets env
  · obtain ⟨content, stored, hfile, hstored, hcfg⟩ := first.stored hneeds
    obtain ⟨content', stored', hfile', hstored', hother⟩ := second.stored hneeds
    obtain rfl := Option.some.inj (hfile.symm.trans hfile')
    obtain rfl := Option.some.inj (hstored.symm.trans hstored')
    exact Except.ok.inj (hcfg.symm.trans hother)
  · exact Except.ok.inj ((first.given hneeds).symm.trans (second.given hneeds))

theorem HoldsConfig.checked (holds : HoldsConfig resolve env files cfg) :
    ∃ filled : Config, filled.check = .ok cfg := by
  by_cases hneeds : NeedsSecrets env
  · obtain ⟨content, stored, -, -, hcfg⟩ := holds.stored hneeds
    exact ⟨_, hcfg⟩
  · exact ⟨_, holds.given hneeds⟩

/-- The key as `UpgradeCredentials` and the handlers are given it. -/
def keyText (cfg : Config) : String := byteText cfg.encryptionKey

theorem HoldsConfig.validKey (holds : HoldsConfig resolve env files cfg) :
    ValidKey (keyText cfg) := by
  obtain ⟨filled, hfilled⟩ := holds.checked
  obtain ⟨-, -, key, -, hlength, -, rfl⟩ := check_ok_iff.mp hfilled
  refine ⟨key, ?_, hlength⟩
  rw [keyText, byteText_bytesOf (hexEncodeToString_ascii key), hexDecodeString_hexEncodeToString]

/-- A secrets file that is there stays as it is. -/
theorem HoldsConfig.onlyAdds (holds : HoldsConfig resolve env before cfg)
    (adds : OnlyAdds (resolve (secretsPath env)) before after) :
    HoldsConfig resolve env after cfg where
  stored := by
    intro hneeds
    obtain ⟨content, stored, hfile, hrest⟩ := holds.stored hneeds
    refine ⟨content, stored, ?_, hrest⟩
    rcases adds (resolve (secretsPath env)) with hsame | ⟨habsent, -⟩
    · rw [hsame, hfile]
    · rw [hfile] at habsent
      cases habsent
  given := holds.given

variable [DecidableEq κ]

theorem holdsConfig_of_ok
    (run : Executes (disk resolve faults) (load explain env) before events (.ok cfg) after) :
    HoldsConfig resolve env after cfg where
  stored := fun hneeds => settled_of_ok hneeds run
  given := by
    intro hneeds
    rw [load_of_not_needs hneeds] at run
    obtain ⟨-, hcfg, -⟩ := executes_ret_iff.mp run
    exact hcfg.symm

/-- Without faults, `Load` returns what the files hold. -/
theorem HoldsConfig.again {result : Except String Config}
    (holds : HoldsConfig resolve env before cfg)
    (run : Executes (disk resolve False) (load explain env) before events result after) :
    result = .ok cfg := by
  by_cases hneeds : NeedsSecrets env
  · obtain ⟨content, stored, hfile, hstored, hcfg⟩ := holds.stored hneeds
    obtain ⟨-, ⟨hnone, -⟩ | ⟨read, hread, rfl⟩⟩ := read_of_faultless hneeds hfile run
    · rw [hstored] at hnone
      cases hnone
    · rw [hstored] at hread
      rw [← Option.some.inj hread, hcfg]
  · rw [load_of_not_needs hneeds] at run
    obtain ⟨-, rfl, -⟩ := executes_ret_iff.mp run
    exact holds.given hneeds

end Held

/-! ## The life of an installation -/

/-- What outlasts a process, and the configuration of the one that serves. -/
structure Installation (κ : Type) where
  files : Files κ
  table : ServersTable
  serving : Option Config

section Life

variable {κ : Type} [DecidableEq κ]

/--
What may happen to an installation.  A request changes the table in one statement, so that
a process that is stopped during a request is stopped before or after it.
-/
inductive Life (resolve : Bytes → κ) (explain : Bytes → String) (env : Environment) (gcm : GCM)
    (start : Installation κ) : List Occurrence → Installation κ → Prop where
  | installed : Life resolve explain env gcm start [] { start with serving := none }
  /-- `Load` fails, or the process is stopped while it loads. -/
  | loading {log : List Occurrence} {now : Installation κ} {events : List (Event diskCalls)}
      {rest : OnDisk (Except String Config)} {files : Files κ}
      (life : Life resolve explain env gcm start log now)
      (steps : Steps (disk resolve True) (load explain env) now.files events rest files) :
      Life resolve explain env gcm start log ⟨files, now.table, none⟩
  /-- The upgrade fails, or the process is stopped while it upgrades. -/
  | upgrading {log : List Occurrence} {now : Installation κ} {events : List (Event diskCalls)}
      {cfg : Config} {files : Files κ} {calls : List (Event transactionDB)}
      {rest : Tx (Except String Nat)} {state : TxState}
      (life : Life resolve explain env gcm start log now)
      (loads : Executes (disk resolve True) (load explain env) now.files events (.ok cfg) files)
      (steps : Steps (transactions True) (upgradeCredentials gcm (keyText cfg))
        (.idle now.table) calls rest state) :
      Life resolve explain env gcm start log ⟨files, state.committed, none⟩
  | started {log : List Occurrence} {now : Installation κ} {events : List (Event diskCalls)}
      {cfg : Config} {files : Files κ} {calls : List (Event transactionDB)} {count : Nat}
      {state : TxState} (life : Life resolve explain env gcm start log now)
      (loads : Executes (disk resolve True) (load explain env) now.files events (.ok cfg) files)
      (upgrade : Executes (transactions True) (upgradeCredentials gcm (keyText cfg))
        (.idle now.table) calls (.ok count) state) :
      Life resolve explain env gcm start (log ++ [.startup (keyText cfg) (.ok count)])
        ⟨files, state.committed, some cfg⟩
  | request {log : List Occurrence} {now : Installation κ} {cfg : Config}
      {request : SaveRequest} {response : Response} {table : ServersTable}
      (life : Life resolve explain env gcm start log now) (serving : now.serving = some cfg)
      (handles : Handles True gcm (keyText cfg) now.table request response table) :
      Life resolve explain env gcm start (log ++ [.request request response])
        { now with table := table }
  | stopped {log : List Occurrence} {now : Installation κ}
      (life : Life resolve explain env gcm start log now) :
      Life resolve explain env gcm start log { now with serving := none }
  /-- Somebody else changes files, but not the secrets file. -/
  | elsewhere {log : List Occurrence} {now : Installation κ} {files : Files κ}
      (life : Life resolve explain env gcm start log now)
      (untouched : files (resolve (secretsPath env)) = now.files (resolve (secretsPath env))) :
      Life resolve explain env gcm start log { now with files := files }

/-- A start with this key has succeeded. -/
def StartedWith (log : List Occurrence) (key : String) : Prop :=
  ∃ count, .startup key (.ok count) ∈ log

/-- What was saved is there, and whoever starts finds the key for it. -/
structure Keeping (resolve : Bytes → κ) (env : Environment) (gcm : GCM) (store : PlainStore)
    (log : List Occurrence) (now : Installation κ) : Prop where
  holds : Represents (Sealed gcm) now.table (store.recall log)
  started : ∀ key, StartedWith log key → ∃ cfg, keyText cfg = key ∧
    HoldsConfig resolve env now.files cfg ∧
      Represents (SealedWith gcm key) now.table (store.recall log)
  serving : ∀ cfg, now.serving = some cfg →
    StartedWith log (keyText cfg) ∧ HoldsConfig resolve env now.files cfg
  accounts : store.Accounts log

variable {resolve : Bytes → κ} {explain : Bytes → String} {env : Environment} {gcm : GCM}
  {start now : Installation κ} {log : List Occurrence} {store : PlainStore}

theorem StartedWith.concat {key : String} {occurrence : Occurrence}
    (started : StartedWith log key) : StartedWith (log ++ [occurrence]) key := by
  obtain ⟨count, hmem⟩ := started
  exact ⟨count, List.mem_append_left _ hmem⟩

omit [DecidableEq κ] in
/-- The table becomes one that holds the same; the files keep what they hold. -/
theorem Keeping.move {files : Files κ} {table : ServersTable} {serving : Option Config}
    (keeping : Keeping resolve env gcm store log now)
    (files_kept : ∀ cfg, HoldsConfig resolve env now.files cfg →
      HoldsConfig resolve env files cfg)
    (holds : Represents (Sealed gcm) table (store.recall log))
    (started : ∀ cfg, HoldsConfig resolve env now.files cfg →
      Represents (SealedWith gcm (keyText cfg)) now.table (store.recall log) →
        Represents (SealedWith gcm (keyText cfg)) table (store.recall log))
    (serves : ∀ cfg, serving = some cfg →
      StartedWith log (keyText cfg) ∧ HoldsConfig resolve env files cfg) :
    Keeping resolve env gcm store log ⟨files, table, serving⟩ where
  holds := holds
  started := by
    intro key hstarted
    obtain ⟨cfg, rfl, hcfg, hsealed⟩ := keeping.started key hstarted
    exact ⟨cfg, rfl, files_kept cfg hcfg, started cfg hcfg hsealed⟩
  serving := serves
  accounts := keeping.accounts

theorem Life.keeping (authentic : gcm.Authentic)
    (initial : Represents (Sealed gcm) start.table store)
    (life : Life resolve explain env gcm start log now) :
    Keeping resolve env gcm store log now := by
  induction life with
  | installed => exact ⟨initial, nofun, nofun, fun _ _ _ _ place => absurd place (by simp)⟩
  | @loading log now events rest files life steps ih =>
      have hadds := steps_onlyAdd steps
      exact ih.move (fun _ holds => holds.onlyAdds hadds) ih.holds (fun _ _ sealed => sealed) nofun
  | @upgrading log now events cfg files calls rest state life loads steps ih =>
      have hadds := steps_onlyAdd loads
      have hcfg : HoldsConfig resolve env files cfg := holdsConfig_of_ok loads
      have hafter := upgrade_stopped authentic.toLawful steps
      refine ih.move (fun _ holds => holds.onlyAdds hadds) ?_ ?_ nofun
      · rcases hafter with hsame | hupgraded
        · rw [hsame]
          exact ih.holds
        · exact (ih.holds.upgraded authentic hupgraded).sealed hcfg.validKey
      · intro other hother hsealed
        obtain rfl := hcfg.unique (hother.onlyAdds hadds)
        rcases hafter with hsame | hupgraded
        · rw [hsame]
          exact hsealed
        · exact ih.holds.upgraded authentic hupgraded
  | @started log now events cfg files calls count state life loads upgrade ih =>
      have hadds := steps_onlyAdd loads
      have hcfg : HoldsConfig resolve env files cfg := holdsConfig_of_ok loads
      obtain ⟨-, -, -, hok⟩ := upgradeCredentials_run authentic.toLawful upgrade
      have hsealed := ih.holds.upgraded authentic (hok count rfl).1
      have hnow : StartedWith (log ++ [.startup (keyText cfg) (.ok count)]) (keyText cfg) :=
        ⟨count, List.mem_append_right _ (List.mem_singleton_self _)⟩
      refine ⟨?_, ?_, ?_, ih.accounts.concat fun _ _ heq => by cases heq⟩
      · rw [PlainStore.recall_concat]
        exact hsealed.sealed hcfg.validKey
      · rintro key ⟨other, hmem⟩
        rw [PlainStore.recall_concat]
        rcases List.mem_append.mp hmem with hbefore | hlast
        · obtain ⟨held, rfl, hheld, -⟩ := ih.started key ⟨other, hbefore⟩
          obtain rfl := hcfg.unique (hheld.onlyAdds hadds)
          exact ⟨cfg, rfl, hcfg, hsealed⟩
        · cases List.mem_singleton.mp hlast
          exact ⟨cfg, rfl, hcfg, hsealed⟩
      · intro serving hserving
        cases hserving
        exact ⟨hnow, hcfg⟩
  | @request log now cfg request response table life serving handles ih =>
      obtain ⟨hstarted, hcfg⟩ := ih.serving cfg serving
      obtain ⟨held, hkey, hheld, hsealed⟩ := ih.started (keyText cfg) hstarted
      obtain ⟨hafter, hcarries⟩ := hsealed.request handles
      refine ⟨?_, ?_, ?_, ih.accounts.concat fun _ _ heq => by cases heq; exact hcarries⟩
      · rw [PlainStore.recall_concat]
        exact hafter.sealed hcfg.validKey
      · rintro key ⟨other, hmem⟩
        rw [PlainStore.recall_concat]
        rcases List.mem_append.mp hmem with hbefore | hlast
        · obtain ⟨early, rfl, hearly, -⟩ := ih.started key ⟨other, hbefore⟩
          obtain rfl := hcfg.unique hearly
          exact ⟨cfg, rfl, hcfg, hafter⟩
        · cases List.mem_singleton.mp hlast
      · intro other hother
        obtain ⟨hbefore, holds⟩ := ih.serving other hother
        exact ⟨hbefore.concat, holds⟩
  | @stopped log now life ih =>
      exact ih.move (fun _ holds => holds) ih.holds (fun _ _ sealed => sealed) nofun
  | @elsewhere log now files life untouched ih =>
      have hfiles : ∀ cfg, HoldsConfig resolve env now.files cfg →
          HoldsConfig resolve env files cfg := by
        intro cfg holds
        exact ⟨fun needs => by rw [untouched]; exact holds.stored needs, holds.given⟩
      refine ih.move hfiles ih.holds (fun _ _ sealed => sealed) ?_
      intro cfg hserving
      obtain ⟨hstarted, holds⟩ := ih.serving cfg hserving
      exact ⟨hstarted, hfiles cfg holds⟩

end Life

end OpsUp.EndToEnd
