import OpsUp.Crypto.Encryption
import OpsUp.Database.Schema
import OpsUp.Interaction.RelyGuarantee

/-!
# The credential upgrade at startup

`UpgradeCredentials` reads every stored credential inside one transaction,
re-encrypts those that only the legacy key opens, and applies the collected
changes after the last row has been read.  Every path that does not commit leaves
the table as it was.
-/

namespace OpsUp.Database

open OpsUp.Crypto OpsUp.Go OpsUp.Interaction OpsUp.Storage

/-- The columns of one row that the upgrade reads. -/
structure Item where
  id : Int
  privateKey : String
  password : String
  deriving DecidableEq, Repr

/-- `SELECT id, private_key, COALESCE(password, '')` on one row. -/
def Item.ofRow (row : Row) : Item := ⟨row.id, row.privateKey, row.password.getD ""⟩

/-- What `rows.Next`, `rows.Scan` and `rows.Err` deliver: the scanned rows up to the
first that does not scan, and the error that ended the delivery. -/
structure Delivery where
  rows : List (Except String Item)
  ended : Option String

inductive TxCommand where
  | begin
  | selectCredentials
  | readNonce
  /-- `UPDATE servers SET private_key=?, password=? WHERE id=?` -/
  | updateCredentials (item : Item)
  | commit
  | rollback

@[reducible]
def TxCommand.Reply : TxCommand → Type
  | .begin => Except String Unit
  | .selectCredentials => Except String Delivery
  | .readNonce => Option Nonce
  | .updateCredentials _ => Except String Unit
  | .commit => Except String Unit
  | .rollback => Unit

/-- The statements of one transaction, and the random reader. -/
abbrev transactionDB : Interface where
  Command := TxCommand
  Reply := TxCommand.Reply

abbrev Tx := Program transactionDB

def issue (command : TxCommand) : Tx command.Reply := .call command .ret

/-! ## The program -/

section Upgrade

variable (gcm : GCM) (key : String)

def errCannotDecrypt (id : Int) : String :=
  "cannot decrypt credentials for server " ++ toString id ++
    "; restore the original OPSUP_ENCRYPTION_KEY or secrets file; no credentials were changed"

/-- The value to store, and whether it has been re-encrypted. -/
def upgradeValue (id : Int) (value : String) : Tx (Except String (String × Bool)) :=
  if value = "" then pure (.ok (value, false))
  else
    match decrypt gcm value key with
    | .ok _ => pure (.ok (value, false))
    | .error _ =>
        match decrypt gcm value legacyEncryptionKey with
        | .error _ => pure (.error (errCannotDecrypt id))
        | .ok plaintext => do
            let nonce ← issue .readNonce
            match encrypt gcm nonce plaintext key with
            | .error err => pure (.error err)
            | .ok ciphertext => pure (.ok (ciphertext, true))

/-- First the private key, then the password of one row. -/
def upgradeItem (item : Item) : Tx (Except String (Item × Bool)) := do
  match ← upgradeValue gcm key item.id item.privateKey with
  | .error err => pure (.error err)
  | .ok (privateKey, first) =>
      match ← upgradeValue gcm key item.id item.password with
      | .error err => pure (.error err)
      | .ok (password, second) => pure (.ok (⟨item.id, privateKey, password⟩, first || second))

/-- The changed rows, in order; the first failure ends the loop. -/
def upgradeItems : List (Except String Item) → Tx (Except String (List Item))
  | [] => pure (.ok [])
  | .error err :: _ => pure (.error err)
  | .ok item :: rest => do
      match ← upgradeItem gcm key item with
      | .error err => pure (.error err)
      | .ok (upgraded, changed) =>
          match ← upgradeItems rest with
          | .error err => pure (.error err)
          | .ok updates => pure (.ok (if changed then upgraded :: updates else updates))

def applyUpdates : List Item → Tx (Except String Unit)
  | [] => pure (.ok ())
  | item :: rest => do
      match ← issue (.updateCredentials item) with
      | .error err => pure (.error err)
      | .ok () => applyUpdates rest

/-- From the query to the commit. -/
def upgradeWithin : Tx (Except String Nat) := do
  match ← issue .selectCredentials with
  | .error err => pure (.error err)
  | .ok delivery =>
      match ← upgradeItems gcm key delivery.rows with
      | .error err => pure (.error err)
      | .ok updates =>
          match delivery.ended with
          | some err => pure (.error err)
          | none =>
              match ← applyUpdates updates with
              | .error err => pure (.error err)
              | .ok () =>
                  match ← issue .commit with
                  | .error err => pure (.error err)
                  | .ok () => pure (.ok updates.length)

/-- The number of changed rows; the deferred rollback runs on every path. -/
def upgradeCredentials : Tx (Except String Nat) := do
  match ← issue .begin with
  | .error err => pure (.error err)
  | .ok () => do
      let result ← upgradeWithin gcm key
      let _ ← issue .rollback
      pure result

end Upgrade

/-! ## The database under a transaction -/

/-- The committed table, and the one the open transaction works on. -/
structure TxState where
  committed : ServersTable
  working : Option ServersTable

def TxState.idle (table : ServersTable) : TxState := ⟨table, none⟩

@[simp]
theorem TxState.idle_committed (table : ServersTable) : (idle table).committed = table := rfl

/-- The table the statements of the connection see. -/
def TxState.current (state : TxState) : ServersTable := state.working.getD state.committed

def setCredentials (item : Item) (row : Row) : Row :=
  { row with privateKey := item.privateKey, password := some item.password }

def items (table : ServersTable) : List Item := table.rows.map Item.ofRow

/-- A delivery is complete, or it breaks off after some rows. -/
def Delivers (mayFail : Prop) (table : ServersTable) (delivery : Delivery) : Prop :=
  delivery = ⟨(items table).map .ok, none⟩ ∨
  (mayFail ∧ ∃ n err, delivery = ⟨((items table).take n).map .ok, some err⟩) ∨
  (mayFail ∧ ∃ n err, delivery = ⟨((items table).take n).map .ok ++ [.error err], none⟩)

/--
What the database and the random reader may do.  Where statements may fail, a
failed one changes nothing, and a failed commit rolls back.
-/
def transactions (mayFail : Prop) : Service transactionDB TxState
  | state, .begin, reply, after =>
      (reply = .ok () ∧ after = ⟨state.committed, some state.committed⟩) ∨
        (mayFail ∧ (∃ err, reply = .error err) ∧ after = state)
  | state, .selectCredentials, reply, after =>
      after = state ∧ ((∃ delivery, reply = .ok delivery ∧
          Delivers mayFail state.current delivery) ∨
        (mayFail ∧ ∃ err, reply = .error err))
  | state, .readNonce, reply, after => after = state ∧ ((∃ nonce, reply = some nonce) ∨ mayFail)
  | state, .updateCredentials item, reply, after =>
      (reply = .ok () ∧ after = { state with
          working := some (state.current.update item.id (setCredentials item)) }) ∨
        (mayFail ∧ (∃ err, reply = .error err) ∧ after = state)
  | state, .commit, reply, after =>
      (reply = .ok () ∧ after = .idle state.current) ∨
        (mayFail ∧ (∃ err, reply = .error err) ∧ after = .idle state.committed)
  | state, .rollback, _, after => after = .idle state.committed

/-! ## What the upgrade does to one value -/

/-- A stored value that the active key does not open. -/
def NeedsUpgrade (gcm : GCM) (key value : String) : Prop := value ≠ "" ∧ ¬ Opens gcm key value

instance (gcm : GCM) (key value : String) : Decidable (NeedsUpgrade gcm key value) := by
  unfold NeedsUpgrade
  infer_instance

/-- Encryption fails under this key, whatever the random reader delivers. -/
def Unencryptable (gcm : GCM) (key : String) : Prop :=
  ∀ nonce plaintext, ∃ err, encrypt gcm (some nonce) plaintext key = .error err

/-- The legacy key does not open the value either, or it cannot be encrypted again. -/
def Blocked (gcm : GCM) (key value : String) : Prop :=
  NeedsUpgrade gcm key value ∧ (¬ Opens gcm legacyEncryptionKey value ∨ Unencryptable gcm key)

/-- The new value opens under the active key to the plaintext of the old one. -/
structure ValueUpgraded (gcm : GCM) (key old new : String) : Prop where
  unchanged : ¬ NeedsUpgrade gcm key old → new = old
  reencrypted : NeedsUpgrade gcm key old → ∃ plaintext nonce,
    decrypt gcm old legacyEncryptionKey = .ok plaintext ∧
      encrypt gcm (some nonce) plaintext key = .ok new ∧ decrypt gcm new key = .ok plaintext

/-- The reply reports that a step of the database or of the random reader failed. -/
def StepFailed : Event transactionDB → Prop
  | ⟨.begin, reply⟩ => ∃ err, reply = .error err
  | ⟨.selectCredentials, reply⟩ => (∃ err, reply = .error err) ∨
      ∃ delivery, reply = .ok delivery ∧
        (delivery.ended ≠ none ∨ ∃ err, .error err ∈ delivery.rows)
  | ⟨.readNonce, reply⟩ => reply = none
  | ⟨.updateCredentials _, reply⟩ => ∃ err, reply = .error err
  | ⟨.commit, reply⟩ => ∃ err, reply = .error err
  | ⟨.rollback, _⟩ => False

def AnyFailed (events : List (Event transactionDB)) : Prop := ∃ event ∈ events, StepFailed event

@[simp]
theorem anyFailed_nil : ¬ AnyFailed [] := by
  rintro ⟨event, hmem, -⟩
  cases hmem

@[simp]
theorem anyFailed_cons {event : Event transactionDB} {events : List (Event transactionDB)} :
    AnyFailed (event :: events) ↔ StepFailed event ∨ AnyFailed events := by
  simp [AnyFailed]

@[simp]
theorem anyFailed_append {front back : List (Event transactionDB)} :
    AnyFailed (front ++ back) ↔ AnyFailed front ∨ AnyFailed back := by
  simp [AnyFailed, or_and_right, exists_or]

/-- With a delivered nonce it is the key that encryption fails for. -/
theorem unencryptable_of_error {gcm : GCM} {key : String} {nonce : Nonce} {plaintext : Bytes}
    {err : String} (failed : encrypt gcm (some nonce) plaintext key = .error err) :
    Unencryptable gcm key := by
  intro other text
  cases hother : encrypt gcm (some other) text key with
  | error err => exact ⟨err, rfl⟩
  | ok ciphertext =>
      obtain ⟨raw, -, hkey, hcipher, -, -⟩ := encrypt_eq_ok_iff.mp hother
      have hpass : encrypt gcm (some nonce) plaintext key = .ok _ :=
        encrypt_eq_ok_iff.mpr ⟨raw, nonce, hkey, hcipher, rfl, rfl⟩
      rw [hpass] at failed
      cases failed

section Runs

open Program

variable {mayFail : Prop} {gcm : GCM} {key : String} {state final : TxState}
  {events : List (Event transactionDB)}

/-- A run that issues a command begins with its reply. -/
theorem executes_issue {α : Type} {command : TxCommand} {rest : command.Reply → Tx α} {value : α}
    (run : Executes (transactions mayFail) (issue command >>= rest) state events value final) :
    ∃ reply middle others, events = ⟨command, reply⟩ :: others ∧
      transactions mayFail state command reply middle ∧
      Executes (transactions mayFail) (rest reply) middle others value final :=
  executes_call_iff.mp run

theorem upgradeValue_run (lawful : gcm.Lawful) {id : Int} {value : String}
    {result : Except String (String × Bool)}
    (run : Executes (transactions mayFail) (upgradeValue gcm key id value) state events result
      final) :
    final = state ∧
      ((∃ err, result = .error err) ↔ Blocked gcm key value ∨ AnyFailed events) ∧
      ∀ new changed, result = .ok (new, changed) →
        ValueUpgraded gcm key value new ∧ (changed = true ↔ NeedsUpgrade gcm key value) := by
  unfold upgradeValue at run
  split at run
  · next hempty =>
      obtain ⟨rfl, rfl, rfl⟩ := executes_ret_iff.mp run
      have hneeds : ¬ NeedsUpgrade gcm key value := fun hneeds => hneeds.1 hempty
      refine ⟨rfl, by simp [Blocked, hneeds], ?_⟩
      rintro new changed hresult
      cases hresult
      exact ⟨⟨fun _ => rfl, fun h => absurd h hneeds⟩, by simp [hneeds]⟩
  · next hvalue =>
      split at run
      · next plaintext hopen =>
          obtain ⟨rfl, rfl, rfl⟩ := executes_ret_iff.mp run
          have hneeds : ¬ NeedsUpgrade gcm key value := fun hneeds => hneeds.2 ⟨plaintext, hopen⟩
          refine ⟨rfl, by simp [Blocked, hneeds], ?_⟩
          rintro new changed hresult
          cases hresult
          exact ⟨⟨fun _ => rfl, fun h => absurd h hneeds⟩, by simp [hneeds]⟩
      · next err hclosed =>
          have hneeds : NeedsUpgrade gcm key value := by
            refine ⟨hvalue, ?_⟩
            rintro ⟨plaintext, hopen⟩
            rw [hopen] at hclosed
            cases hclosed
          split at run
          · next legacyErr hlegacy =>
              obtain ⟨rfl, rfl, rfl⟩ := executes_ret_iff.mp run
              have hunread : ¬ Opens gcm legacyEncryptionKey value := by
                rintro ⟨plaintext, hopen⟩
                rw [hopen] at hlegacy
                cases hlegacy
              refine ⟨rfl, by simp [Blocked, hneeds, hunread], ?_⟩
              intro new changed hresult
              cases hresult
          · next plaintext hlegacy =>
              obtain ⟨nonce, middle, others, rfl, ⟨rfl, -⟩, hrun⟩ := executes_issue run
              have hopens : Opens gcm legacyEncryptionKey value := ⟨plaintext, hlegacy⟩
              cases hencrypted : encrypt gcm nonce plaintext key with
              | error err =>
                  rw [hencrypted] at hrun
                  obtain ⟨rfl, rfl, rfl⟩ := executes_ret_iff.mp hrun
                  have hfails : Blocked gcm key value ∨
                      StepFailed (⟨.readNonce, nonce⟩ : Event transactionDB) := by
                    cases nonce with
                    | none => exact Or.inr rfl
                    | some drawn =>
                        exact Or.inl ⟨hneeds, Or.inr (unencryptable_of_error hencrypted)⟩
                  refine ⟨rfl, by simpa using hfails, ?_⟩
                  intro new changed hresult
                  cases hresult
              | ok ciphertext =>
                  rw [hencrypted] at hrun
                  obtain ⟨rfl, rfl, rfl⟩ := executes_ret_iff.mp hrun
                  obtain ⟨raw, drawn, -, -, rfl, -⟩ := encrypt_eq_ok_iff.mp hencrypted
                  have hblocked : ¬ Blocked gcm key value := by
                    rintro ⟨-, hunread | hunencryptable⟩
                    · exact hunread hopens
                    · obtain ⟨err, herr⟩ := hunencryptable drawn plaintext
                      rw [herr] at hencrypted
                      cases hencrypted
                  have hdrawn : ¬ StepFailed (⟨.readNonce, some drawn⟩ : Event transactionDB) :=
                    fun hfailed => Option.some_ne_none drawn hfailed
                  refine ⟨rfl, by simp [hblocked, hdrawn], ?_⟩
                  rintro new changed hresult
                  cases hresult
                  refine ⟨⟨fun h => absurd hneeds h, fun _ => ?_⟩, by simp [hneeds]⟩
                  exact ⟨plaintext, drawn, hlegacy, hencrypted,
                    decrypt_encrypt lawful hencrypted rfl⟩

/-- One of the two values of a row needs the upgrade. -/
def ItemNeeds (gcm : GCM) (key : String) (item : Item) : Prop :=
  NeedsUpgrade gcm key item.privateKey ∨ NeedsUpgrade gcm key item.password

instance (gcm : GCM) (key : String) (item : Item) : Decidable (ItemNeeds gcm key item) := by
  unfold ItemNeeds
  infer_instance

def ItemBlocked (gcm : GCM) (key : String) (item : Item) : Prop :=
  Blocked gcm key item.privateKey ∨ Blocked gcm key item.password

structure ItemUpgraded (gcm : GCM) (key : String) (item new : Item) : Prop where
  id : new.id = item.id
  privateKey : ValueUpgraded gcm key item.privateKey new.privateKey
  password : ValueUpgraded gcm key item.password new.password

theorem upgradeItem_run (lawful : gcm.Lawful) {item : Item}
    {result : Except String (Item × Bool)}
    (run : Executes (transactions mayFail) (upgradeItem gcm key item) state events result final) :
    final = state ∧
      ((∃ err, result = .error err) ↔ ItemBlocked gcm key item ∨ AnyFailed events) ∧
      ∀ new changed, result = .ok (new, changed) →
        ItemUpgraded gcm key item new ∧ (changed = true ↔ ItemNeeds gcm key item) := by
  obtain ⟨before, after, first, middle, rfl, hfirst, hrest⟩ := executes_bind_iff.mp run
  obtain ⟨rfl, hfirstError, hfirstOk⟩ := upgradeValue_run lawful hfirst
  unfold ItemBlocked
  cases first with
  | error err =>
      obtain ⟨rfl, rfl, rfl⟩ := executes_ret_iff.mp hrest
      have hfailed := hfirstError.mp ⟨err, rfl⟩
      refine ⟨rfl, ⟨fun _ => ?_, fun _ => ⟨err, rfl⟩⟩, ?_⟩
      · rcases hfailed with hblocked | hfailed
        · exact Or.inl (Or.inl hblocked)
        · exact Or.inr (by simpa using hfailed)
      · intro new changed hresult
        cases hresult
  | ok pair =>
      obtain ⟨privateKey, changed⟩ := pair
      obtain ⟨hprivateKey, hchanged⟩ := hfirstOk privateKey changed rfl
      have hfirstFine : ¬ (Blocked gcm key item.privateKey ∨ AnyFailed before) := by
        rw [← hfirstError]
        rintro ⟨err, herr⟩
        cases herr
      obtain ⟨early, late, second, middle, rfl, hsecond, hlast⟩ := executes_bind_iff.mp hrest
      obtain ⟨rfl, hsecondError, hsecondOk⟩ := upgradeValue_run lawful hsecond
      rw [not_or] at hfirstFine
      cases second with
      | error err =>
          obtain ⟨rfl, rfl, rfl⟩ := executes_ret_iff.mp hlast
          refine ⟨rfl, ⟨fun _ => ?_, fun _ => ⟨err, rfl⟩⟩, ?_⟩
          · rcases hsecondError.mp ⟨err, rfl⟩ with hblocked | hfailed
            · exact Or.inl (Or.inr hblocked)
            · exact Or.inr (by simpa using Or.inr hfailed)
          · intro new changed hresult
            cases hresult
      | ok pair =>
          obtain ⟨password, changed'⟩ := pair
          obtain ⟨rfl, rfl, rfl⟩ := executes_ret_iff.mp hlast
          obtain ⟨hpassword, hchanged'⟩ := hsecondOk password changed' rfl
          have hsecondFine : ¬ (Blocked gcm key item.password ∨ AnyFailed early) := by
            rw [← hsecondError]
            rintro ⟨err, herr⟩
            cases herr
          rw [not_or] at hsecondFine
          refine ⟨rfl, by simp [hfirstFine, hsecondFine], ?_⟩
          rintro new changed hresult
          cases hresult
          refine ⟨⟨rfl, hprivateKey, hpassword⟩, ?_⟩
          rw [Bool.or_eq_true, hchanged, hchanged']
          rfl

/-- The changed rows among the ones read, each upgraded. -/
inductive Collected (gcm : GCM) (key : String) : List Item → List Item → Prop where
  | nil : Collected gcm key [] []
  | keep {item : Item} {read updates : List Item} (fine : ¬ ItemNeeds gcm key item)
      (rest : Collected gcm key read updates) : Collected gcm key (item :: read) updates
  | change {item new : Item} {read updates : List Item} (needs : ItemNeeds gcm key item)
      (upgraded : ItemUpgraded gcm key item new) (rest : Collected gcm key read updates) :
      Collected gcm key (item :: read) (new :: updates)

/-- The loop over the rows changes nothing yet. -/
theorem upgradeItems_run (lawful : gcm.Lawful) {rows : List (Except String Item)}
    {result : Except String (List Item)}
    (run : Executes (transactions mayFail) (upgradeItems gcm key rows) state events result final) :
    final = state ∧
      ((∃ err, result = .error err) ↔ (∃ err, .error err ∈ rows) ∨
        (∃ item, .ok item ∈ rows ∧ ItemBlocked gcm key item) ∨ AnyFailed events) ∧
      ∀ updates, result = .ok updates →
        ∃ read, rows = read.map .ok ∧ Collected gcm key read updates := by
  induction rows generalizing events result final with
  | nil =>
      obtain ⟨rfl, rfl, rfl⟩ := executes_ret_iff.mp run
      refine ⟨rfl, by simp, ?_⟩
      rintro updates hresult
      cases hresult
      exact ⟨[], rfl, .nil⟩
  | cons row rest ih =>
      cases row with
      | error err =>
          obtain ⟨rfl, rfl, rfl⟩ := executes_ret_iff.mp run
          refine ⟨rfl, ⟨fun _ => Or.inl ⟨err, List.mem_cons_self⟩, fun _ => ⟨err, rfl⟩⟩, ?_⟩
          intro updates hresult
          cases hresult
      | ok item =>
          obtain ⟨before, after, first, middle, rfl, hfirst, hrest⟩ := executes_bind_iff.mp run
          obtain ⟨rfl, hitemError, hitemOk⟩ := upgradeItem_run lawful hfirst
          cases first with
          | error err =>
              obtain ⟨rfl, rfl, rfl⟩ := executes_ret_iff.mp hrest
              refine ⟨rfl, ⟨fun _ => ?_, fun _ => ⟨err, rfl⟩⟩, ?_⟩
              · rcases hitemError.mp ⟨err, rfl⟩ with hblocked | hfailed
                · exact Or.inr (Or.inl ⟨item, List.mem_cons_self, hblocked⟩)
                · exact Or.inr (Or.inr (by simpa using hfailed))
              · intro updates hresult
                cases hresult
          | ok pair =>
              obtain ⟨upgraded, changed⟩ := pair
              obtain ⟨hupgraded, hchanged⟩ := hitemOk upgraded changed rfl
              have hitemFine : ¬ (ItemBlocked gcm key item ∨ AnyFailed before) := by
                rw [← hitemError]
                rintro ⟨err, herr⟩
                cases herr
              rw [not_or] at hitemFine
              obtain ⟨early, late, second, last, rfl, hsecond, hlast⟩ := executes_bind_iff.mp hrest
              obtain ⟨rfl, hrestError, hrestOk⟩ := ih hsecond
              cases second with
              | error err =>
                  obtain ⟨rfl, rfl, rfl⟩ := executes_ret_iff.mp hlast
                  refine ⟨rfl, ⟨fun _ => ?_, fun _ => ⟨err, rfl⟩⟩, ?_⟩
                  · rcases hrestError.mp ⟨err, rfl⟩ with ⟨err, hmem⟩ | ⟨other, hmem, hblocked⟩ |
                      hfailed
                    · exact Or.inl ⟨err, List.mem_cons_of_mem _ hmem⟩
                    · exact Or.inr (Or.inl ⟨other, List.mem_cons_of_mem _ hmem, hblocked⟩)
                    · exact Or.inr (Or.inr (by simpa using Or.inr hfailed))
                  · intro updates hresult
                    cases hresult
              | ok updates =>
                  obtain ⟨rfl, rfl, rfl⟩ := executes_ret_iff.mp hlast
                  obtain ⟨read, rfl, hcollected⟩ := hrestOk updates rfl
                  have hrestFine := hrestError.not.mp (by rintro ⟨err, herr⟩; cases herr)
                  refine ⟨rfl, ⟨?_, ?_⟩, ?_⟩
                  · rintro ⟨err, herr⟩
                    cases herr
                  · rintro (⟨err, hmem⟩ | ⟨other, hmem, hblocked⟩ | hfailed)
                    · simp at hmem
                    · rcases List.mem_cons.mp hmem with hsame | hmem
                      · cases hsame
                        exact absurd hblocked hitemFine.1
                      · exact absurd (Or.inr (Or.inl ⟨other, hmem, hblocked⟩)) hrestFine
                    · simp only [List.append_nil, anyFailed_append] at hfailed
                      rcases hfailed with hfailed | hfailed
                      · exact absurd hfailed hitemFine.2
                      · exact absurd (Or.inr (Or.inr hfailed)) hrestFine
                  · rintro found hresult
                    cases hresult
                    refine ⟨item :: read, rfl, ?_⟩
                    by_cases hneeds : ItemNeeds gcm key item
                    · rw [if_pos (hchanged.mpr hneeds)]
                      exact .change hneeds hupgraded hcollected
                    · rw [if_neg (fun h => hneeds (hchanged.mp h))]
                      exact .keep hneeds hcollected

theorem applyUpdates_run {updates : List Item} {result : Except String Unit}
    {committed working : ServersTable}
    (run : Executes (transactions mayFail) (applyUpdates updates) ⟨committed, some working⟩ events
      result final) :
    final.committed = committed ∧ ((∃ err, result = .error err) ↔ AnyFailed events) ∧
      (result = .ok () → final = ⟨committed, some (updates.foldl
        (fun table item => table.update item.id (setCredentials item)) working)⟩) := by
  induction updates generalizing events working with
  | nil =>
      obtain ⟨rfl, rfl, rfl⟩ := executes_ret_iff.mp run
      exact ⟨rfl, by simp, fun _ => rfl⟩
  | cons item rest ih =>
      obtain ⟨reply, middle, others, rfl, hanswer, hrun⟩ := executes_issue run
      rcases hanswer with ⟨rfl, rfl⟩ | ⟨-, ⟨err, rfl⟩, rfl⟩
      · obtain ⟨hcommitted, herror, hok⟩ := ih hrun
        have hfine : ¬ StepFailed (⟨.updateCredentials item, .ok ()⟩ : Event transactionDB) := by
          rintro ⟨err, herr⟩
          cases herr
        exact ⟨hcommitted, by simpa [hfine] using herror, hok⟩
      · obtain ⟨rfl, rfl, rfl⟩ := executes_ret_iff.mp hrun
        have hfails : StepFailed (⟨.updateCredentials item, .error err⟩ : Event transactionDB) :=
          ⟨err, rfl⟩
        exact ⟨rfl, by simp [hfails], nofun⟩

/-- The collected changes, applied one after the other. -/
def withUpdates (table : ServersTable) (updates : List Item) : ServersTable :=
  updates.foldl (fun table item => table.update item.id (setCredentials item)) table

/-- A delivery without an error has delivered every row. -/
theorem delivers_complete {table : ServersTable} {delivery : Delivery} {read : List Item}
    (delivers : Delivers mayFail table delivery) (rows : delivery.rows = read.map .ok)
    (ended : delivery.ended = none) : read = items table := by
  have injective : Function.Injective (Except.ok : Item → Except String Item) :=
    fun _ _ => Except.ok.inj
  rcases delivers with rfl | ⟨-, n, err, rfl⟩ | ⟨-, n, err, rfl⟩
  · exact (List.map_injective_iff.mpr injective rows).symm
  · cases ended
  · have hmem : Except.error err ∈ read.map (Except.ok : Item → Except String Item) := by
      rw [← rows]
      simp
    simp at hmem

theorem delivers_mem {table : ServersTable} {delivery : Delivery} {item : Item}
    (delivers : Delivers mayFail table delivery) (member : .ok item ∈ delivery.rows) :
    item ∈ items table := by
  have scanned : ∀ {read : List Item}, .ok item ∈ read.map (Except.ok : Item → Except String Item) →
      item ∈ read := by
    intro read hmem
    obtain ⟨other, hother, hsame⟩ := List.mem_map.mp hmem
    cases hsame
    exact hother
  rcases delivers with rfl | ⟨-, n, err, rfl⟩ | ⟨-, n, err, rfl⟩
  · exact scanned member
  · exact List.mem_of_mem_take (scanned member)
  · rcases List.mem_append.mp member with hmem | hmem
    · exact List.mem_of_mem_take (scanned hmem)
    · cases List.mem_singleton.mp hmem

/-- Applying the collected changes and committing them. -/
theorem applyAndCommit_run {table : ServersTable} {updates : List Item}
    {result : Except String Nat}
    (run : Executes (transactions mayFail) (applyUpdates updates >>= fun
        | .error err => pure (.error err)
        | .ok () => issue .commit >>= fun
            | .error err => pure (.error err)
            | .ok () => pure (.ok updates.length))
      ⟨table, some table⟩ events result final) :
    ((∃ err, result = .error err) ↔ AnyFailed events) ∧
      ((∃ err, result = .error err) → final.committed = table) ∧
      ∀ count, result = .ok count → count = updates.length ∧
        final.committed = withUpdates table updates := by
  obtain ⟨before, after, first, middle, rfl, hfirst, hrest⟩ := executes_bind_iff.mp run
  obtain ⟨hcommitted, happlyError, happlyOk⟩ := applyUpdates_run hfirst
  cases first with
  | error err =>
      obtain ⟨rfl, rfl, rfl⟩ := executes_ret_iff.mp hrest
      have hfailed := happlyError.mp ⟨err, rfl⟩
      exact ⟨by simp [hfailed], fun _ => hcommitted, nofun⟩
  | ok done =>
      obtain rfl := happlyOk rfl
      have hfine : ¬ AnyFailed before := by
        rw [← happlyError]
        rintro ⟨err, herr⟩
        cases herr
      obtain ⟨reply, middle, others, rfl, hanswer, hlast⟩ := executes_issue hrest
      rcases hanswer with ⟨rfl, rfl⟩ | ⟨-, ⟨err, rfl⟩, rfl⟩
      · obtain ⟨rfl, rfl, rfl⟩ := executes_ret_iff.mp hlast
        have hcommit : ¬ StepFailed (⟨.commit, .ok ()⟩ : Event transactionDB) := by
          rintro ⟨err, herr⟩
          cases herr
        refine ⟨by simp [hfine, hcommit], ?_, ?_⟩
        · rintro ⟨err, herr⟩
          cases herr
        · rintro count hcount
          cases hcount
          exact ⟨rfl, rfl⟩
      · obtain ⟨rfl, rfl, rfl⟩ := executes_ret_iff.mp hlast
        have hcommit : StepFailed (⟨.commit, .error err⟩ : Event transactionDB) := ⟨err, rfl⟩
        exact ⟨by simp [hcommit], fun _ => rfl, nofun⟩

/-- The database and the random reader can always answer. -/
theorem transactions_answer (mayFail : Prop) (state : TxState) (command : TxCommand) :
    ∃ reply after, transactions mayFail state command reply after := by
  cases command with
  | begin => exact ⟨_, _, Or.inl ⟨rfl, rfl⟩⟩
  | selectCredentials => exact ⟨_, _, rfl, Or.inl ⟨_, rfl, Or.inl rfl⟩⟩
  | readNonce => exact ⟨_, _, rfl, Or.inl ⟨zeroNonce, rfl⟩⟩
  | updateCredentials item => exact ⟨_, _, Or.inl ⟨rfl, rfl⟩⟩
  | commit => exact ⟨_, _, Or.inl ⟨rfl, rfl⟩⟩
  | rollback => exact ⟨(), _, rfl⟩

private theorem not_error_of_answer {reply : Except String Unit} {done failed : Prop}
    (answer : (reply = .ok () ∧ done) ∨ (False ∧ failed)) : ¬ ∃ err, reply = .error err := by
  rintro ⟨err, rfl⟩
  rcases answer with ⟨hreply, -⟩ | ⟨hfail, -⟩
  · cases hreply
  · exact hfail

/-- Where nothing is allowed to fail, nothing does. -/
theorem not_anyFailed {α : Type} {program : Tx α} {value : α}
    (run : Executes (transactions False) program state events value final) :
    ¬ AnyFailed events := by
  rintro ⟨⟨command, reply⟩, hmem, hfailed⟩
  obtain ⟨before, after, hanswer⟩ := Steps.answered run _ hmem
  cases command with
  | begin => exact not_error_of_answer hanswer hfailed
  | selectCredentials =>
      rcases hanswer with ⟨-, ⟨delivery, rfl, rfl | ⟨hfail, -⟩ | ⟨hfail, -⟩⟩ | ⟨hfail, -⟩⟩
      · rcases hfailed with ⟨err, herr⟩ | ⟨other, hother, hended | ⟨err, herr⟩⟩
        · cases herr
        · cases hother
          exact hended rfl
        · cases hother
          simp at herr
      all_goals exact hfail
  | readNonce =>
      rcases hanswer with ⟨-, ⟨nonce, rfl⟩ | hfail⟩
      · cases hfailed
      · exact hfail
  | updateCredentials item => exact not_error_of_answer hanswer hfailed
  | commit => exact not_error_of_answer hanswer hfailed
  | rollback => exact hfailed

theorem upgradeWithin_run (lawful : gcm.Lawful) {table : ServersTable}
    {result : Except String Nat}
    (run : Executes (transactions mayFail) (upgradeWithin gcm key) ⟨table, some table⟩ events result
      final) :
    ((∃ err, result = .error err) ↔
        (∃ item ∈ items table, ItemBlocked gcm key item) ∨ AnyFailed events) ∧
      ((∃ err, result = .error err) → final.committed = table) ∧
      ∀ count, result = .ok count → ∃ updates, Collected gcm key (items table) updates ∧
        count = updates.length ∧ final.committed = withUpdates table updates := by
  obtain ⟨reply, middle, others, rfl, ⟨rfl, hreply⟩, hrun⟩ := executes_issue run
  rcases hreply with ⟨delivery, rfl, hdelivers⟩ | ⟨-, err, rfl⟩
  · obtain ⟨before, after, first, middle, rfl, hfirst, hrest⟩ := executes_bind_iff.mp hrun
    obtain ⟨rfl, hreadError, hreadOk⟩ := upgradeItems_run lawful hfirst
    have hselect : StepFailed (⟨.selectCredentials, .ok delivery⟩ : Event transactionDB) ↔
        delivery.ended ≠ none ∨ ∃ err, .error err ∈ delivery.rows := by
      simp [StepFailed]
    cases first with
    | error err =>
        obtain ⟨rfl, rfl, rfl⟩ := executes_ret_iff.mp hrest
        refine ⟨⟨fun _ => ?_, fun _ => ⟨err, rfl⟩⟩, fun _ => rfl, nofun⟩
        rcases hreadError.mp ⟨err, rfl⟩ with hscan | ⟨item, hmem, hblocked⟩ | hfailed
        · exact Or.inr (anyFailed_cons.mpr (Or.inl (hselect.mpr (Or.inr hscan))))
        · exact Or.inl ⟨item, delivers_mem hdelivers hmem, hblocked⟩
        · exact Or.inr (by simp [hfailed])
    | ok updates =>
        obtain ⟨read, hrows, hcollected⟩ := hreadOk updates rfl
        have hreadFine := hreadError.not.mp (by rintro ⟨err, herr⟩; cases herr)
        simp only [not_or] at hreadFine
        obtain ⟨hscanned, hunblocked, hdrawn⟩ := hreadFine
        cases hended : delivery.ended with
        | some err =>
            rw [hended] at hrest
            obtain ⟨rfl, rfl, rfl⟩ := executes_ret_iff.mp hrest
            have hfails := hselect.mpr (Or.inl (by rw [hended]; nofun))
            exact ⟨by simp [hfails], fun _ => rfl, nofun⟩
        | none =>
            rw [hended] at hrest
            obtain rfl := delivers_complete hdelivers hrows hended
            have hselectFine := hselect.not.mpr (by simp [hended, hscanned])
            obtain ⟨herror, hunchanged, hok⟩ := applyAndCommit_run hrest
            have hblocked : ¬ ∃ item ∈ items table, ItemBlocked gcm key item := by
              rintro ⟨item, hmem, hblocked⟩
              exact hunblocked ⟨item, by rw [hrows]; exact List.mem_map_of_mem hmem, hblocked⟩
            refine ⟨by simp [herror, hselectFine, hdrawn, hblocked], hunchanged, ?_⟩
            intro count hcount
            obtain ⟨rfl, hfinal⟩ := hok count hcount
            exact ⟨updates, hcollected, rfl, hfinal⟩
  · obtain ⟨rfl, rfl, rfl⟩ := executes_ret_iff.mp hrun
    have hfails : StepFailed (⟨.selectCredentials, .error err⟩ : Event transactionDB) :=
      Or.inl ⟨err, rfl⟩
    exact ⟨by simp [hfails], fun _ => rfl, nofun⟩

end Runs

/-! ## What the upgrade does to the table -/

def RowNeeds (gcm : GCM) (key : String) (row : Row) : Prop := ItemNeeds gcm key (Item.ofRow row)

instance (gcm : GCM) (key : String) (row : Row) : Decidable (RowNeeds gcm key row) := by
  unfold RowNeeds
  infer_instance

/-- Only the credentials that need it change; a `NULL` password becomes empty when
the private key of its row is re-encrypted. -/
structure RowUpgraded (gcm : GCM) (key : String) (row new : Row) : Prop where
  unchanged : ¬ RowNeeds gcm key row → new = row
  privateKey : ValueUpgraded gcm key row.privateKey new.privateKey
  password : ValueUpgraded gcm key (row.password.getD "") (new.password.getD "")
  null : row.password = none → new.password = none ∨
    (new.password = some "" ∧ NeedsUpgrade gcm key row.privateKey)
  notNull : row.password ≠ none → new.password ≠ none
  others : { new with privateKey := row.privateKey, password := row.password } = row

structure TableUpgraded (gcm : GCM) (key : String) (table after : ServersTable) : Prop where
  rows : List.Forall₂ (RowUpgraded gcm key) table.rows after.rows
  sequence : after.sequence = table.sequence

section Table

variable {gcm : GCM} {key : String} {table : ServersTable} {updates : List Item}

/-- What the changes make of one row. -/
def applied (updates : List Item) (row : Row) : Row :=
  updates.foldl (fun row item => if row.id = item.id then setCredentials item row else row) row

theorem withUpdates_rows (table : ServersTable) (updates : List Item) :
    (withUpdates table updates).rows = table.rows.map (applied updates) := by
  induction updates generalizing table with
  | nil => exact (List.map_id table.rows).symm
  | cons item rest ih =>
      change (withUpdates (table.update item.id (setCredentials item)) rest).rows = _
      rw [ih]
      simp only [Table.update, List.map_map]
      refine List.map_congr_left fun row _ => ?_
      by_cases hid : row.id = item.id
      · simp only [Function.comp_apply, Row.rowId_eq, applied, List.foldl_cons,
          Row.withId_eq, setCredentials, hid]
      · simp only [Function.comp_apply, Row.rowId_eq, applied, List.foldl_cons, if_neg hid]

theorem withUpdates_sequence (table : ServersTable) (updates : List Item) :
    (withUpdates table updates).sequence = table.sequence := by
  induction updates generalizing table with
  | nil => rfl
  | cons item rest ih => exact ih (table.update item.id (setCredentials item))

theorem applied_absent {row : Row} (absent : ∀ item ∈ updates, item.id ≠ row.id) :
    applied updates row = row := by
  induction updates with
  | nil => rfl
  | cons item rest ih =>
      have hne : row.id ≠ item.id := (absent item List.mem_cons_self).symm
      change applied rest (if row.id = item.id then setCredentials item row else row) = row
      rw [if_neg hne]
      exact ih fun other hother => absent other (List.mem_cons_of_mem _ hother)

theorem Collected.ids {read : List Item} (collected : Collected gcm key read updates) :
    ∀ new ∈ updates, ∃ item ∈ read, item.id = new.id := by
  induction collected with
  | nil => exact fun _ hmem => absurd hmem List.not_mem_nil
  | keep fine rest ih =>
      intro new hnew
      obtain ⟨item, hitem, hid⟩ := ih new hnew
      exact ⟨item, List.mem_cons_of_mem _ hitem, hid⟩
  | change needs upgraded rest ih =>
      intro new hnew
      rcases List.mem_cons.mp hnew with rfl | hnew
      · exact ⟨_, List.mem_cons_self, upgraded.id.symm⟩
      · obtain ⟨item, hitem, hid⟩ := ih new hnew
        exact ⟨item, List.mem_cons_of_mem _ hitem, hid⟩

theorem rowUpgraded_refl {row : Row} (fine : ¬ RowNeeds gcm key row) :
    RowUpgraded gcm key row row where
  unchanged := fun _ => rfl
  privateKey := ⟨fun _ => rfl, fun h => absurd (Or.inl h) fine⟩
  password := ⟨fun _ => rfl, fun h => absurd (Or.inr h) fine⟩
  null := Or.inl
  notNull := id
  others := rfl

theorem rowUpgraded_setCredentials {row : Row} {new : Item} (needs : RowNeeds gcm key row)
    (upgraded : ItemUpgraded gcm key (Item.ofRow row) new) :
    RowUpgraded gcm key row (setCredentials new row) where
  unchanged := fun fine => absurd needs fine
  privateKey := upgraded.privateKey
  password := upgraded.password
  null := by
    intro hnull
    have hempty : (Item.ofRow row).password = "" := by simp [Item.ofRow, hnull]
    have hpassword : ¬ NeedsUpgrade gcm key (Item.ofRow row).password := fun h => h.1 hempty
    refine Or.inr ⟨?_, needs.resolve_right hpassword⟩
    rw [← hempty, ← upgraded.password.unchanged hpassword]
    rfl
  notNull := fun _ => Option.some_ne_none _
  others := rfl

/-- The one change of a row is its own. -/
theorem collected_applied {rows : List Row} (distinct : (rows.map rowId).Nodup)
    (collected : Collected gcm key (rows.map Item.ofRow) updates) {row : Row}
    (member : row ∈ rows) :
    (¬ RowNeeds gcm key row ∧ applied updates row = row) ∨
      (RowNeeds gcm key row ∧ ∃ new, ItemUpgraded gcm key (Item.ofRow row) new ∧
        applied updates row = setCredentials new row) := by
  induction rows generalizing updates with
  | nil => exact absurd member List.not_mem_nil
  | cons first rest ih =>
      rw [List.map_cons, List.nodup_cons] at distinct
      have beside : ∀ {changes : List Item}, Collected gcm key (rest.map Item.ofRow) changes →
          ∀ item ∈ changes, item.id ≠ first.id := by
        intro changes hchanges item hitem heq
        obtain ⟨source, hsource, hid⟩ := hchanges.ids item hitem
        obtain ⟨other, hother, rfl⟩ := List.mem_map.mp hsource
        exact distinct.1 (List.mem_map.mpr ⟨other, hother, hid.trans heq⟩)
      cases collected with
      | keep fine collected =>
          rcases List.mem_cons.mp member with rfl | hrest
          · exact Or.inl ⟨fine, applied_absent (beside collected)⟩
          · exact ih distinct.2 collected hrest
      | @change _ new _ changes needs upgraded collected =>
          have hcons : applied (new :: changes) row =
              applied changes (if row.id = new.id then setCredentials new row else row) := rfl
          rcases List.mem_cons.mp member with rfl | hrest
          · refine Or.inr ⟨needs, new, upgraded, ?_⟩
            have hid : row.id = new.id := upgraded.id.symm
            rw [hcons, if_pos hid]
            exact applied_absent (beside collected)
          · have hid : row.id ≠ new.id := by
              rw [upgraded.id]
              exact fun heq => distinct.1 (List.mem_map.mpr ⟨row, hrest, heq⟩)
            rw [hcons, if_neg hid]
            exact ih distinct.2 collected hrest

theorem collected_length {rows : List Row}
    (collected : Collected gcm key (rows.map Item.ofRow) updates) :
    updates.length = (rows.filter fun row => RowNeeds gcm key row).length := by
  induction rows generalizing updates with
  | nil =>
      cases collected
      rfl
  | cons row rest ih =>
      cases collected with
      | keep fine collected =>
          have hrow : ¬ RowNeeds gcm key row := fine
          rw [List.filter_cons_of_neg (by simpa using hrow)]
          exact ih collected
      | change needs upgraded collected =>
          have hrow : RowNeeds gcm key row := needs
          rw [List.filter_cons_of_pos (by simpa using hrow), List.length_cons, List.length_cons,
            ih collected]

/-- Every row is upgraded once, by its own change. -/
theorem collected_upgrades (collected : Collected gcm key (items table) updates) :
    List.Forall₂ (RowUpgraded gcm key) table.rows (withUpdates table updates).rows := by
  rw [withUpdates_rows, List.forall₂_map_right_iff, List.forall₂_same]
  intro row hrow
  rcases collected_applied table.distinct collected hrow with
    ⟨hfine, hsame⟩ | ⟨hneeds, new, hnew, hset⟩
  · rw [hsame]
    exact rowUpgraded_refl hfine
  · rw [hset]
    exact rowUpgraded_setCredentials hneeds hnew

/-- An upgraded row has a password, if only the empty one. -/
theorem collected_password (collected : Collected gcm key (items table) updates) {row : Row}
    (member : row ∈ table.rows) : (applied updates row).password = none ↔
      row.password = none ∧ ¬ NeedsUpgrade gcm key row.privateKey := by
  have hneeds : row.password = none →
      (RowNeeds gcm key row ↔ NeedsUpgrade gcm key row.privateKey) := by
    intro hnull
    simp [RowNeeds, ItemNeeds, Item.ofRow, hnull, NeedsUpgrade]
  rcases collected_applied table.distinct collected member with
    ⟨hfine, hsame⟩ | ⟨hrow, new, -, hset⟩
  · rw [hsame]
    exact ⟨fun hnull => ⟨hnull, (hneeds hnull).not.mp hfine⟩, And.left⟩
  · rw [hset]
    refine ⟨nofun, ?_⟩
    rintro ⟨hnull, hfine⟩
    exact absurd ((hneeds hnull).mp hrow) hfine

end Table

/-! ## The whole upgrade -/

/-- No stored value needs the upgrade. -/
def AllOpen (gcm : GCM) (key : String) (table : ServersTable) : Prop :=
  ∀ row ∈ table.rows, ¬ RowNeeds gcm key row

section Whole

open Program

variable {mayFail : Prop} {gcm : GCM} {key : String} {table after : ServersTable}

/-- The empty text never opens. -/
theorem ne_empty_of_decrypt {value : String} {plaintext : Bytes}
    (opened : decrypt gcm value key = .ok plaintext) : value ≠ "" := by
  rintro rfl
  obtain ⟨-, data, -, hdata, -, hlong, -⟩ := decrypt_eq_ok_iff.mp opened
  have hempty : hexDecodeString "" = .ok [] := rfl
  obtain rfl := Except.ok.inj (hdata.symm.trans hempty)
  exact absurd hlong (by decide)

theorem ValueUpgraded.open {old new : String} (upgraded : ValueUpgraded gcm key old new) :
    ¬ NeedsUpgrade gcm key new := by
  by_cases hneeds : NeedsUpgrade gcm key old
  · obtain ⟨plaintext, nonce, -, -, hopen⟩ := upgraded.reencrypted hneeds
    exact fun h => h.2 ⟨plaintext, hopen⟩
  · rw [upgraded.unchanged hneeds]
    exact hneeds

/-- Every row comes from one row of the table before. -/
theorem TableUpgraded.exists_old (upgraded : TableUpgraded gcm key table after) {new : Row}
    (member : new ∈ after.rows) : ∃ row ∈ table.rows, RowUpgraded gcm key row new := by
  have whole : ∀ {rows news : List Row}, List.Forall₂ (RowUpgraded gcm key) rows news →
      new ∈ news → ∃ row ∈ rows, RowUpgraded gcm key row new := by
    intro rows news hrows
    induction hrows with
    | nil => exact fun hmem => absurd hmem List.not_mem_nil
    | cons hrow _ ih =>
        intro hnew
        rcases List.mem_cons.mp hnew with rfl | hnew
        · exact ⟨_, List.mem_cons_self, hrow⟩
        · obtain ⟨row, hmem, hupgraded⟩ := ih hnew
          exact ⟨row, List.mem_cons_of_mem _ hmem, hupgraded⟩
  exact whole upgraded.rows member

/-- The upgrade neither adds nor removes a server. -/
theorem TableUpgraded.ids (upgraded : TableUpgraded gcm key table after) :
    after.rows.map Row.id = table.rows.map Row.id := by
  have whole : ∀ {rows news : List Row}, List.Forall₂ (RowUpgraded gcm key) rows news →
      news.map Row.id = rows.map Row.id := by
    intro rows news hrows
    induction hrows with
    | nil => rfl
    | @cons row new rows news hrow _ ih =>
        have hid : new.id = row.id := by rw [← hrow.others]
        rw [List.map_cons, List.map_cons, hid, ih]
  exact whole upgraded.rows

theorem TableUpgraded.allOpen (upgraded : TableUpgraded gcm key table after) :
    AllOpen gcm key after := by
  intro new hnew
  obtain ⟨row, -, hrow⟩ := upgraded.exists_old hnew
  rintro (hneeds | hneeds)
  · exact hrow.privateKey.open hneeds
  · exact hrow.password.open hneeds

/-- Where nothing needs it, the upgrade changes nothing. -/
theorem TableUpgraded.eq_of_allOpen (upgraded : TableUpgraded gcm key table after)
    (fine : AllOpen gcm key table) : after = table := by
  have whole : ∀ {rows news : List Row}, List.Forall₂ (RowUpgraded gcm key) rows news →
      (∀ row ∈ rows, ¬ RowNeeds gcm key row) → news = rows := by
    intro rows news hrows
    induction hrows with
    | nil => exact fun _ => rfl
    | cons hrow _ ih =>
        intro hfine
        rw [hrow.unchanged (hfine _ List.mem_cons_self),
          ih fun row hmem => hfine row (List.mem_cons_of_mem _ hmem)]
  exact Table.ext (whole upgraded.rows fine) upgraded.sequence

/-- One run of the upgrade: it fails and changes nothing, or commits the collected changes. -/
theorem upgradeCredentials_commits (lawful : gcm.Lawful) {events : List (Event transactionDB)}
    {result : Except String Nat} {final : TxState}
    (run : Executes (transactions mayFail) (upgradeCredentials gcm key) (.idle table) events result
      final) :
    final = .idle final.committed ∧
      ((∃ err, result = .error err) ↔
        (∃ item ∈ items table, ItemBlocked gcm key item) ∨ AnyFailed events) ∧
      ((∃ err, result = .error err) → final.committed = table) ∧
      ∀ count, result = .ok count → ∃ updates, Collected gcm key (items table) updates ∧
        count = updates.length ∧ final.committed = withUpdates table updates := by
  obtain ⟨reply, middle, others, rfl, hanswer, hrun⟩ := executes_issue run
  rcases hanswer with ⟨rfl, rfl⟩ | ⟨-, ⟨err, rfl⟩, rfl⟩
  · obtain ⟨before, rest, first, middle, rfl, hwithin, hrest⟩ := executes_bind_iff.mp hrun
    obtain ⟨reply, last, ended, rfl, rfl, hlast⟩ := executes_issue hrest
    obtain ⟨rfl, rfl, rfl⟩ := executes_ret_iff.mp hlast
    obtain ⟨herror, hunchanged, hok⟩ := upgradeWithin_run lawful hwithin
    have hbegin : ¬ StepFailed (⟨.begin, .ok ()⟩ : Event transactionDB) := by
      rintro ⟨err, herr⟩
      cases herr
    have hrollback : ¬ StepFailed (⟨.rollback, reply⟩ : Event transactionDB) := fun h => h
    exact ⟨rfl, by simp [herror, hbegin, hrollback], hunchanged, hok⟩
  · obtain ⟨rfl, rfl, rfl⟩ := executes_ret_iff.mp hrun
    have hbegin : StepFailed (⟨.begin, .error err⟩ : Event transactionDB) := ⟨err, rfl⟩
    exact ⟨rfl, by simp [hbegin], fun _ => rfl, nofun⟩

/-- Then every row is upgraded. -/
theorem upgradeCredentials_run (lawful : gcm.Lawful) {events : List (Event transactionDB)}
    {result : Except String Nat} {final : TxState}
    (run : Executes (transactions mayFail) (upgradeCredentials gcm key) (.idle table) events result
      final) :
    final = .idle final.committed ∧
      ((∃ err, result = .error err) ↔
        (∃ item ∈ items table, ItemBlocked gcm key item) ∨ AnyFailed events) ∧
      ((∃ err, result = .error err) → final.committed = table) ∧
      ∀ count, result = .ok count → TableUpgraded gcm key table final.committed ∧
        count = (table.rows.filter fun row => RowNeeds gcm key row).length := by
  obtain ⟨hidle, herror, hunchanged, hok⟩ := upgradeCredentials_commits lawful run
  refine ⟨hidle, herror, hunchanged, ?_⟩
  intro count hcount
  obtain ⟨updates, hcollected, rfl, hcommitted⟩ := hok count hcount
  rw [hcommitted]
  exact ⟨⟨collected_upgrades hcollected, withUpdates_sequence table updates⟩,
    collected_length hcollected⟩

/--
`UpgradeCredentials` fails exactly when a stored value cannot be upgraded or a
step fails, and then it has changed nothing.  Otherwise every row is upgraded, the
count is the number of rows that needed it, every stored value opens under the
active key, and a second run with that key changes nothing and reports none.
-/
theorem upgradeCredentials_all_or_nothing (lawful : gcm.Lawful)
    {events : List (Event transactionDB)} {result : Except String Nat} {final : TxState}
    (run : Executes (transactions mayFail) (upgradeCredentials gcm key) (.idle table) events result
      final) :
    ((∃ err, result = .error err) ↔
        (∃ row ∈ table.rows, Blocked gcm key row.privateKey ∨
          Blocked gcm key (row.password.getD "")) ∨ AnyFailed events) ∧
      ((∃ err, result = .error err) → final = .idle table) ∧
      ∀ count, result = .ok count →
        final = .idle final.committed ∧
        TableUpgraded gcm key table final.committed ∧
        AllOpen gcm key final.committed ∧
        count = (table.rows.filter fun row => RowNeeds gcm key row).length ∧
        ∀ {again : List (Event transactionDB)} {second : Except String Nat} {last : TxState},
          Executes (transactions mayFail) (upgradeCredentials gcm key) final again second last →
            last = final ∧ (second = .ok 0 ∨ ((∃ err, second = .error err) ∧ AnyFailed again)) := by
  obtain ⟨hidle, herror, hunchanged, hok⟩ := upgradeCredentials_run lawful run
  have hblocked : (∃ item ∈ items table, ItemBlocked gcm key item) ↔
      ∃ row ∈ table.rows, Blocked gcm key row.privateKey ∨
        Blocked gcm key (row.password.getD "") := by
    simp [items, ItemBlocked, Item.ofRow]
  refine ⟨by rw [herror, hblocked], ?_, ?_⟩
  · intro hfailed
    rw [hidle, hunchanged hfailed]
  · intro count hcount
    obtain ⟨hupgraded, hlength⟩ := hok count hcount
    have hopen := hupgraded.allOpen
    refine ⟨hidle, hupgraded, hopen, hlength, ?_⟩
    intro again second last hagain
    rw [hidle] at hagain
    obtain ⟨hidle', herror', hunchanged', hok'⟩ := upgradeCredentials_run lawful hagain
    cases second with
    | error err =>
        have hcommitted := hunchanged' ⟨err, rfl⟩
        refine ⟨by rw [hidle', hcommitted, ← hidle], Or.inr ⟨⟨err, rfl⟩, ?_⟩⟩
        refine (herror'.mp ⟨err, rfl⟩).resolve_left ?_
        rintro ⟨item, hmem, hitem⟩
        obtain ⟨row, hrow, rfl⟩ := List.mem_map.mp hmem
        exact hopen row hrow (hitem.imp And.left And.left)
    | ok count' =>
        obtain ⟨hupgraded', hlength'⟩ := hok' count' rfl
        have hcommitted := hupgraded'.eq_of_allOpen hopen
        refine ⟨by rw [hidle', hcommitted, ← hidle], Or.inl ?_⟩
        have hnone : (final.committed.rows.filter fun row => RowNeeds gcm key row) = [] := by
          simpa [AllOpen] using hopen
        rw [hlength', hnone]
        rfl

/-- The active key of the upgrade test. -/
def testKey : String := "abababababababababababababababababababababababababababababababab"

def testRow (privateKey : String) : Row := { Row.blank "" with privateKey, password := none }

def legacyTable : ServersTable := (Table.empty 0).insert (testRow (sealedSecret legacyEncryptionKey))

/-- The private key is re-encrypted, and the password becomes empty. -/
def upgradedTable : ServersTable :=
  legacyTable.update 1 (setCredentials ⟨1, sealedSecret testKey, ""⟩)

theorem legacyTable_executes : ∃ events, Executes (transactions False)
    (upgradeCredentials tagGCM testKey) (.idle legacyTable) events (.ok 1) (.idle upgradedTable) := by
  refine ⟨[⟨.begin, .ok ()⟩,
    ⟨.selectCredentials, .ok ⟨[.ok ⟨1, sealedSecret legacyEncryptionKey, ""⟩], none⟩⟩,
    ⟨.readNonce, some zeroNonce⟩, ⟨.updateCredentials ⟨1, sealedSecret testKey, ""⟩, .ok ()⟩,
    ⟨.commit, .ok ()⟩, ⟨.rollback, ()⟩], ?_⟩
  exact .call (Or.inl ⟨rfl, rfl⟩) <| .call ⟨rfl, Or.inl ⟨_, rfl, Or.inl rfl⟩⟩ <|
    .call ⟨rfl, Or.inl ⟨_, rfl⟩⟩ <| .call (Or.inl ⟨rfl, rfl⟩) <|
      .call (Or.inl ⟨rfl, rfl⟩) <| .call rfl <| .refl _ _

theorem upgradeCredentials_legacyTable :
    TableUpgraded tagGCM testKey legacyTable upgradedTable ∧
      AllOpen tagGCM testKey upgradedTable := by
  obtain ⟨events, run⟩ := legacyTable_executes
  obtain ⟨-, -, hok⟩ := upgradeCredentials_all_or_nothing tagGCM_authentic.toLawful run
  obtain ⟨-, hupgraded, hopen, -⟩ := hok 1 rfl
  exact ⟨hupgraded, hopen⟩

end Whole

end OpsUp.Database
