import OpsUp.Api.Connection
import OpsUp.Api.RequestRuns
import OpsUp.Database.Credentials

/-!
# The credentials over the life of an installation

A process starts with a key, upgrades the stored credentials and serves requests
until the next one starts, perhaps with another key.  What the table holds
encrypted is at every moment what a store of plaintexts would hold that only
looks at the requests and their responses.
-/

namespace OpsUp.Api

open OpsUp.Crypto OpsUp.Database OpsUp.Go OpsUp.Interaction OpsUp.Models OpsUp.SshClient
open OpsUp.Storage

/-! ## The store of plaintexts -/

/-- The credentials of one server in the clear; one that was never given is empty. -/
@[ext]
structure Secrets where
  privateKey : Bytes
  password : Bytes
  deriving DecidableEq, Repr

def Secrets.empty : Secrets := ⟨[], []⟩

/--
What a successful save leaves: an rdp server has no credentials, any other save
sets the credential of its authentication type, when it has one to set, and keeps
the other.
-/
def Secrets.save (current source : Secrets) (req : ServerCreateReq) : Secrets :=
  if req.protocol = "rdp" then empty
  else if req.authType = "password" then
    if req.password ≠ "" then { current with password := bytesOf req.password } else current
  else if req.privateKey ≠ "" then { current with privateKey := bytesOf req.privateKey }
  else if 0 < req.copyKeyFrom then { current with privateKey := source.privateKey }
  else current

/-- The credentials of the servers that exist. -/
abbrev PlainStore := Int → Option Secrets

/-- A server that does not exist has no credentials. -/
def PlainStore.secrets (store : PlainStore) (id : Int) : Secrets :=
  (store id).getD .empty

def PlainStore.set (store : PlainStore) (id : Int) (entry : Option Secrets) : PlainStore :=
  Function.update store id entry

/-- Only a creation learns its id from the response; whether a request succeeded is
read off the status. -/
def PlainStore.remember (store : PlainStore) (request : SaveRequest) (response : Response) :
    PlainStore :=
  if 400 ≤ response.status then store
  else
    match request, response.body with
    | .create (.ok req) _, .server item =>
        store.set item.id (some (Secrets.empty.save (store.secrets req.copyKeyFrom) req))
    | .update param (.ok req) _, _ =>
        match parseInt param with
        | some id =>
            store.set id (some ((store.secrets id).save (store.secrets req.copyKeyFrom) req))
        | none => store
    | .delete param, _ =>
        match parseInt param with
        | some id => store.set id none
        | none => store
    | _, _ => store

/--
What a success says: a creation answers with the record under an id that was free, an
update with the record of its path's id, which was taken, and a deletion names an id.
-/
def PlainStore.Carries (store : PlainStore) : SaveRequest → Response → Prop
  | .create body _, response =>
      ∃ req item, body = .ok req ∧ response.body = .server item ∧ store item.id = none
  | .update param body _, response =>
      ∃ req item id, body = .ok req ∧ response.body = .server item ∧
        parseInt param = some id ∧ item.id = id ∧ (store id).isSome
  | .delete param, _ => ∃ id, parseInt param = some id

section Remembering

variable {store : PlainStore} {response : Response} {param : String} {id other : Int}
  {req : ServerCreateReq} {rand : Option Nonce} {entry : Option Secrets}

@[simp]
theorem PlainStore.set_self : store.set id entry id = entry := Function.update_self ..

theorem PlainStore.set_of_ne (different : other ≠ id) :
    store.set id entry other = store other := Function.update_of_ne different ..

@[simp]
theorem PlainStore.secrets_set_self : (store.set id entry).secrets id = entry.getD .empty := by
  unfold PlainStore.secrets
  rw [PlainStore.set_self]

theorem PlainStore.secrets_set_of_ne (different : other ≠ id) :
    (store.set id entry).secrets other = store.secrets other := by
  unfold PlainStore.secrets
  rw [PlainStore.set_of_ne different]

theorem PlainStore.remember_error {request : SaveRequest} (error : response.IsError) :
    store.remember request response = store := by
  obtain ⟨status, text, hstatus, rfl⟩ := error
  exact if_pos hstatus

theorem PlainStore.remember_create {item : ServerListItem} :
    store.remember (.create (.ok req) rand) ⟨201, .server item⟩ =
      store.set item.id (some (Secrets.empty.save (store.secrets req.copyKeyFrom) req)) := rfl

theorem PlainStore.remember_update {body : ResponseBody} (path : parseInt param = some id) :
    store.remember (.update param (.ok req) rand) ⟨200, body⟩ =
      store.set id (some ((store.secrets id).save (store.secrets req.copyKeyFrom) req)) := by
  simp [PlainStore.remember, path]

theorem PlainStore.remember_delete {body : ResponseBody} (path : parseInt param = some id) :
    store.remember (.delete param) ⟨200, body⟩ = store.set id none := by
  simp [PlainStore.remember, path]

end Remembering

/-! ## An installation -/

inductive Occurrence where
  | startup (key : String) (upgraded : Except String Nat)
  | request (request : SaveRequest) (response : Response)

/-- A process serves only when the upgrade returned no error. -/
def servingKey (key : String) : Except String Nat → Option String
  | .ok _ => some key
  | .error _ => none

/-- What happened since the installation had the table `start`, the table now, and
the key that requests are served with. -/
inductive Operates (mayFail : Prop) (gcm : GCM) (start : ServersTable) :
    List Occurrence → ServersTable → Option String → Prop where
  | installed : Operates mayFail gcm start [] start none
  | startup {log : List Occurrence} {table : ServersTable} {serving : Option String}
      {key : String} {events : List (Event transactionDB)} {result : Except String Nat}
      {final : TxState} (operates : Operates mayFail gcm start log table serving)
      (valid : ValidKey key)
      (upgrade : Program.Executes (transactions mayFail) (upgradeCredentials gcm key)
        (.idle table) events result final) :
      Operates mayFail gcm start (log ++ [.startup key result]) final.committed
        (servingKey key result)
  | request {log : List Occurrence} {table after : ServersTable} {key : String}
      {request : SaveRequest} {response : Response}
      (operates : Operates mayFail gcm start log table (some key))
      (handles : Handles mayFail gcm key table request response after) :
      Operates mayFail gcm start (log ++ [.request request response]) after (some key)

def PlainStore.after (store : PlainStore) : Occurrence → PlainStore
  | .startup _ _ => store
  | .request request response => store.remember request response

/-- The plaintexts after everything that happened. -/
def PlainStore.recall (store : PlainStore) (log : List Occurrence) : PlainStore :=
  log.foldl PlainStore.after store

theorem PlainStore.recall_concat (store : PlainStore) (log : List Occurrence)
    (occurrence : Occurrence) :
    store.recall (log ++ [occurrence]) = (store.recall log).after occurrence := by
  simp [PlainStore.recall, List.foldl_append]

/-! ## What a stored value holds -/

section Held

variable {gcm : GCM} {key value : String} {plaintext : Bytes}

/-- The value is empty, or an encryption of the plaintext under a spelling of the key. -/
def SealedWith (gcm : GCM) (key value : String) (plaintext : Bytes) : Prop :=
  (value = "" ∧ plaintext = []) ∨ ∃ nonce spelling,
    hexDecodeString spelling = hexDecodeString key ∧
      encrypt gcm (some nonce) plaintext spelling = .ok value

/-- The value is sealed with some valid key. -/
def Sealed (gcm : GCM) (value : String) (plaintext : Bytes) : Prop :=
  ∃ key, ValidKey key ∧ SealedWith gcm key value plaintext

theorem SealedWith.open (lawful : gcm.Lawful) (held : SealedWith gcm key value plaintext) :
    openCredential gcm value key = .ok plaintext := by
  unfold openCredential
  rcases held with ⟨rfl, rfl⟩ | ⟨nonce, spelling, hspelling, hencrypted⟩
  · exact if_pos rfl
  · rw [if_neg (encrypt_ne_empty hencrypted)]
    exact decrypt_encrypt lawful hencrypted hspelling.symm

/-- A sealed value that opens under a key is sealed with it, and opens to its plaintext. -/
theorem Sealed.of_decrypt (authentic : gcm.Authentic) (held : Sealed gcm value plaintext)
    {opened : Bytes} (opens : decrypt gcm value key = .ok opened) :
    opened = plaintext ∧ SealedWith gcm key value plaintext := by
  obtain ⟨sealing, -, ⟨rfl, -⟩ | ⟨nonce, spelling, hspelling, hencrypted⟩⟩ := held
  · exact absurd rfl (ne_empty_of_decrypt opens)
  · obtain ⟨hkey, hplaintext⟩ := (decrypt_encrypt_ok_iff authentic hencrypted).mp opens
    exact ⟨hplaintext, Or.inr ⟨nonce, spelling, hkey.symm, hencrypted⟩⟩

/-- What the upgrade leaves is sealed with the active key. -/
theorem Sealed.upgraded (authentic : gcm.Authentic) {old new : String}
    (held : Sealed gcm old plaintext) (upgraded : ValueUpgraded gcm key old new) :
    SealedWith gcm key new plaintext := by
  by_cases hneeds : NeedsUpgrade gcm key old
  · obtain ⟨opened, nonce, hlegacy, hencrypted, -⟩ := upgraded.reencrypted hneeds
    obtain ⟨rfl, -⟩ := held.of_decrypt authentic hlegacy
    exact Or.inr ⟨nonce, key, rfl, hencrypted⟩
  · rw [upgraded.unchanged hneeds]
    by_cases hempty : old = ""
    · obtain ⟨sealing, -, ⟨-, hplaintext⟩ | ⟨nonce, spelling, -, hencrypted⟩⟩ := held
      · exact Or.inl ⟨hempty, hplaintext⟩
      · exact absurd hempty (encrypt_ne_empty hencrypted)
    · obtain ⟨opened, hopen⟩ := Classical.not_not.mp fun hclosed => hneeds ⟨hempty, hclosed⟩
      exact (held.of_decrypt authentic hopen).2

end Held

/-- Both credentials of a record hold the secrets. -/
structure Holds (held : String → Bytes → Prop) (privateKey password : String)
    (secrets : Secrets) : Prop where
  privateKey : held privateKey secrets.privateKey
  password : held password secrets.password

/-- The table has the rows that the store of plaintexts has, and each holds what the store
has for its id. -/
structure Represents (held : String → Bytes → Prop) (table : ServersTable)
    (store : PlainStore) : Prop where
  rows : ∀ row ∈ table.rows,
    Holds held row.privateKey (row.password.getD "") (store.secrets row.id)
  servers : ∀ id, (store id).isSome ↔ ∃ row ∈ table.rows, row.id = id

/-! ## A request keeps the representation -/

/-- The secrets a save leaves do not depend on validation. -/
theorem save_congr {raw r : ServerCreateReq} (same : SameCredentials raw r)
    (current source : Secrets) : current.save source r = current.save source raw := by
  unfold Secrets.save
  by_cases hrdp : raw.protocol = "rdp"
  · rw [if_pos hrdp, if_pos (same.rdp.mpr hrdp)]
  · have hssh : r.protocol ≠ "rdp" := mt same.rdp.mp hrdp
    rw [if_neg hrdp, if_neg hssh, same.password, same.privateKey, same.copyKeyFrom]
    by_cases hauth : raw.authType = "password"
    · rw [if_pos hauth, if_pos ((same.authType hssh).mpr hauth)]
    · rw [if_neg hauth, if_neg (mt (same.authType hssh).mp hauth)]

section Requests

variable {mayFail : Prop} {gcm : GCM} {key : String} {rand : Option Nonce}
  {table after : ServersTable} {store : PlainStore} {response : Response}

theorem encryptOrKeep_sealed {submitted stored value : String} {plaintext : Bytes}
    (held : SealedWith gcm key stored plaintext)
    (kept : encryptOrKeep gcm key rand submitted stored = .ok value) :
    SealedWith gcm key value (if submitted ≠ "" then bytesOf submitted else plaintext) := by
  unfold encryptOrKeep at kept
  split at kept
  · next hsubmitted =>
      obtain ⟨-, nonce, -, -, rfl, -⟩ := encrypt_eq_ok_iff.mp kept
      rw [if_pos hsubmitted]
      exact Or.inr ⟨nonce, key, rfl, kept⟩
  · next hsubmitted =>
      obtain rfl := Except.ok.inj kept
      rw [if_neg hsubmitted]
      exact held

/-- The credentials a save resolves hold the secrets it leaves. -/
theorem resolveWith_holds {req : ServerCreateReq} {current : Option Server}
    {source : Except String (Option Server)} {credentials : String × String}
    {secrets sourceSecrets : Secrets}
    (held : Holds (SealedWith gcm key) ((current.map Server.privateKey).getD "")
      ((current.map Server.password).getD "") secrets)
    (sourceHeld : ∀ server, source = .ok (some server) →
      SealedWith gcm key server.privateKey sourceSecrets.privateKey)
    (resolved : resolveWith gcm key rand req current source = .ok credentials) :
    Holds (SealedWith gcm key) credentials.1 credentials.2 (secrets.save sourceSecrets req) := by
  unfold Secrets.save
  by_cases hrdp : req.protocol = "rdp"
  · rw [if_pos hrdp]
    rw [resolveWith_rdp hrdp] at resolved
    obtain rfl := Except.ok.inj resolved
    exact ⟨Or.inl ⟨rfl, rfl⟩, Or.inl ⟨rfl, rfl⟩⟩
  · rw [if_neg hrdp]
    by_cases hauth : req.authType = "password"
    · rw [if_pos hauth]
      obtain ⟨hpassword, -, hkey⟩ := resolveWith_password hrdp hauth resolved
      have hsealed := encryptOrKeep_sealed held.password hpassword
      rw [hkey]
      split
      · next hsubmitted => exact ⟨held.privateKey, by rwa [if_pos hsubmitted] at hsealed⟩
      · next hsubmitted => exact ⟨held.privateKey, by rwa [if_neg hsubmitted] at hsealed⟩
    · rw [if_neg hauth]
      obtain ⟨-, hpassword, hcopied | hkept⟩ := resolveWith_key hrdp hauth resolved
      · obtain ⟨hnone, hcopy, server, hserver, hkey⟩ := hcopied
        rw [if_neg (not_not.mpr hnone), if_pos hcopy, hkey, hpassword]
        exact ⟨sourceHeld server hserver, held.password⟩
      · obtain ⟨hnocopy, hkey⟩ := hkept
        have hsealed := encryptOrKeep_sealed held.privateKey hkey
        rw [hpassword]
        by_cases hsubmitted : req.privateKey ≠ ""
        · rw [if_pos hsubmitted] at hsealed ⊢
          exact ⟨hsealed, held.password⟩
        · have hcopy : ¬ 0 < req.copyKeyFrom := fun hcopy =>
            hnocopy ⟨not_not.mp hsubmitted, hcopy⟩
          rw [if_neg hsubmitted] at hsealed
          rw [if_neg hsubmitted, if_neg hcopy]
          exact ⟨hsealed, held.password⟩

/-- A record that was read holds the secrets of its id. -/
theorem Represents.read {held : String → Bytes → Prop} (represents : Represents held table store)
    {id : Int} {server : Server} (read : readServer table id = .ok (some server)) :
    Holds held server.privateKey server.password (store.secrets id) := by
  unfold readServer at read
  split at read
  · cases read
  · next row hfind =>
      have hid : row.id = id := Table.find_rowId hfind
      cases hscan : scanRow row with
      | error err => simp [hscan, Except.map] at read
      | ok scanned =>
          rw [hscan] at read
          obtain rfl := Option.some.inj (Except.ok.inj read)
          obtain ⟨password, description, group, hpassword, -, -, rfl⟩ := scanRow_eq_ok_iff.mp hscan
          have hrow := represents.rows row (Table.find_mem hfind)
          rw [hpassword, hid] at hrow
          exact hrow

theorem SaveAccepted.holds {body : Body} {id : Int} {current : Option Server}
    {req : ServerCreateReq} {credentials : String × String} {secrets : Secrets}
    (saved : SaveAccepted mayFail gcm key rand table body id current req credentials)
    (represents : Represents (SealedWith gcm key) table store)
    (held : Holds (SealedWith gcm key) ((current.map Server.privateKey).getD "")
      ((current.map Server.password).getD "") secrets) :
    ∃ raw, body = .ok raw ∧ Holds (SealedWith gcm key) credentials.1 credentials.2
      (secrets.save (store.secrets raw.copyKeyFrom) raw) := by
  obtain ⟨raw, hbody, hsame⟩ := accepted_same saved.accepted
  obtain ⟨source, hsource, hresolved⟩ := saved.resolved
  refine ⟨raw, hbody, ?_⟩
  rw [← save_congr hsame, ← hsame.copyKeyFrom]
  refine resolveWith_holds held (fun server hserver => ?_) hresolved
  subst hserver
  exact (represents.read hsource.of_ok).privateKey

/-- A new row is represented by an entry under the next id. -/
theorem Represents.insert {held : String → Bytes → Prop} {row : Row} {secrets : Secrets}
    (represents : Represents held table store)
    (holds : Holds held row.privateKey (row.password.getD "") secrets) :
    Represents held (table.insert row) (store.set (table.sequence + 1) (some secrets)) where
  rows := by
    intro stored hstored
    rcases Table.mem_insert_iff.mp hstored with hold | rfl
    · have hissued : stored.id ≤ table.sequence := table.issued stored hold
      rw [PlainStore.secrets_set_of_ne (by omega)]
      exact represents.rows stored hold
    · change Holds held _ _ ((store.set _ _).secrets (table.sequence + 1))
      rw [PlainStore.secrets_set_self]
      exact holds
  servers := by
    intro id
    by_cases hid : id = table.sequence + 1
    · subst hid
      rw [PlainStore.set_self]
      exact ⟨fun _ => ⟨_, Table.mem_insert_iff.mpr (Or.inr rfl), rfl⟩, fun _ => rfl⟩
    · rw [PlainStore.set_of_ne hid, represents.servers]
      constructor
      · rintro ⟨stored, hstored, rfl⟩
        exact ⟨stored, Table.mem_insert_iff.mpr (Or.inl hstored), rfl⟩
      · rintro ⟨stored, hstored, rfl⟩
        rcases Table.mem_insert_iff.mp hstored with hold | rfl
        · exact ⟨stored, hold, rfl⟩
        · exact absurd rfl hid

/-- A change of a row is represented by a change of its entry. -/
theorem Represents.update {held : String → Bytes → Prop} {id : Int} {change : Row → Row}
    {secrets : Secrets} (represents : Represents held table store) (there : (store id).isSome)
    (holds : ∀ row, Holds held (change row).privateKey ((change row).password.getD "") secrets) :
    Represents held (table.update id change) (store.set id (some secrets)) where
  rows := by
    intro stored hstored
    rcases Table.mem_update_iff.mp hstored with ⟨hold, hother⟩ | ⟨old, -, rfl⟩
    · have hne : stored.id ≠ id := hother
      rw [PlainStore.secrets_set_of_ne hne]
      exact represents.rows stored hold
    · change Holds held _ _ ((store.set _ _).secrets id)
      rw [PlainStore.secrets_set_self]
      exact holds old
  servers := by
    intro other
    obtain ⟨row, hrow, hid⟩ := (represents.servers id).mp there
    have hfind : table.find id = some row := Table.find_eq_some_iff.mpr ⟨hrow, hid⟩
    by_cases hother : other = id
    · subst hother
      rw [PlainStore.set_self]
      exact ⟨fun _ => ⟨_, Table.mem_update_iff.mpr (Or.inr ⟨row, hfind, rfl⟩), rfl⟩, fun _ => rfl⟩
    · rw [PlainStore.set_of_ne hother, represents.servers]
      constructor
      · rintro ⟨stored, hstored, rfl⟩
        exact ⟨stored, Table.mem_update_iff.mpr (Or.inl ⟨hstored, hother⟩), rfl⟩
      · rintro ⟨stored, hstored, rfl⟩
        rcases Table.mem_update_iff.mp hstored with ⟨hold, -⟩ | ⟨old, -, rfl⟩
        · exact ⟨stored, hold, rfl⟩
        · exact absurd rfl hother

theorem Represents.delete {held : String → Bytes → Prop} {id : Int}
    (represents : Represents held table store) :
    Represents held (table.delete id) (store.set id none) where
  rows := by
    intro stored hstored
    obtain ⟨hold, hother⟩ := Table.mem_delete_iff.mp hstored
    have hne : stored.id ≠ id := hother
    rw [PlainStore.secrets_set_of_ne hne]
    exact represents.rows stored hold
  servers := by
    intro other
    by_cases hother : other = id
    · subst hother
      rw [PlainStore.set_self]
      refine ⟨nofun, ?_⟩
      rintro ⟨stored, hstored, hid⟩
      exact absurd hid (Table.mem_delete_iff.mp hstored).2
    · rw [PlainStore.set_of_ne hother, represents.servers]
      constructor
      · rintro ⟨stored, hstored, rfl⟩
        exact ⟨stored, Table.mem_delete_iff.mpr ⟨hstored, hother⟩, rfl⟩
      · rintro ⟨stored, hstored, rfl⟩
        exact ⟨stored, (Table.mem_delete_iff.mp hstored).1, rfl⟩

/-- Nothing is stored under an id that was never handed out. -/
theorem Represents.fresh {held : String → Bytes → Prop} {id : Int}
    (represents : Represents held table store) (fresh : table.sequence < id) :
    store id = none := by
  rw [← Option.not_isSome_iff_eq_none, represents.servers]
  rintro ⟨row, hrow, rfl⟩
  have hissued : row.id ≤ table.sequence := table.issued row hrow
  omega

/-- A record that is there is one of the store's. -/
theorem Represents.there {held : String → Bytes → Prop} {id : Int} {server : Server}
    (represents : Represents held table store) (read : readServer table id = .ok (some server)) :
    (store id).isSome := by
  unfold readServer at read
  split at read
  · cases read
  · next row hfind =>
      exact (represents.servers id).mpr ⟨row, Table.find_mem hfind, Table.find_rowId hfind⟩

/-- A request leaves a table that holds what the store of plaintexts remembers, and says
so when it succeeds. -/
theorem Represents.request {request : SaveRequest}
    (represents : Represents (SealedWith gcm key) table store)
    (handles : Handles mayFail gcm key table request response after) :
    Represents (SealedWith gcm key) after (store.remember request response) ∧
      (response.status < 400 → store.Carries request response) := by
  have hfailed : ∀ {request}, response.IsError →
      Represents (SealedWith gcm key) table (store.remember request response) ∧
        (response.status < 400 → store.Carries request response) := by
    intro request herror
    rw [PlainStore.remember_error herror]
    obtain ⟨status, text, hstatus, rfl⟩ := herror
    exact ⟨represents, fun hsucceeded => absurd hsucceeded (Nat.not_lt.mpr hstatus)⟩
  cases request with
  | create body rand =>
      rcases handles_create handles with ⟨herror, rfl⟩ | ⟨req, credentials, now, hsaved, rfl, rfl⟩
      · exact hfailed herror
      · have hnone : Holds (SealedWith gcm key) "" "" .empty :=
          ⟨Or.inl ⟨rfl, rfl⟩, Or.inl ⟨rfl, rfl⟩⟩
        obtain ⟨raw, rfl, hheld⟩ := hsaved.holds represents hnone
        rw [PlainStore.remember_create]
        exact ⟨represents.insert hheld,
          fun _ => ⟨raw, _, rfl, rfl, represents.fresh (Int.lt_succ _)⟩⟩
  | update param body rand =>
      rcases handles_update handles with ⟨herror, rfl⟩ |
        ⟨req, id, current, credentials, now, hparam, -, hread, hsaved, rfl, rfl⟩
      · exact hfailed herror
      · obtain ⟨raw, rfl, hheld⟩ := hsaved.holds represents (represents.read hread)
        rw [PlainStore.remember_update hparam]
        have hthere := represents.there hread
        exact ⟨represents.update hthere fun _ => hheld,
          fun _ => ⟨raw, _, id, rfl, rfl, hparam, rfl, hthere⟩⟩
  | delete param =>
      rcases handles_delete handles with ⟨herror, rfl⟩ | ⟨id, hparam, -, rfl, rfl⟩
      · exact hfailed herror
      · rw [PlainStore.remember_delete hparam]
        exact ⟨represents.delete, fun _ => ⟨id, hparam⟩⟩

end Requests

/-! ## The whole life -/

section Life

variable {mayFail : Prop} {gcm : GCM} {start table : ServersTable} {log : List Occurrence}
  {store : PlainStore}

/-- The table holds the plaintexts; while a process serves, all under its key. -/
structure Faithful (gcm : GCM) (table : ServersTable) (serving : Option String)
    (store : PlainStore) : Prop where
  holds : Represents (Sealed gcm) table store
  serves : ∀ key, serving = some key → ValidKey key ∧ Represents (SealedWith gcm key) table store

theorem Represents.sealed {key : String} (valid : ValidKey key)
    (represents : Represents (SealedWith gcm key) table store) :
    Represents (Sealed gcm) table store where
  rows := by
    intro row hrow
    have hholds := represents.rows row hrow
    exact ⟨⟨key, valid, hholds.privateKey⟩, ⟨key, valid, hholds.password⟩⟩
  servers := represents.servers

theorem Represents.upgraded {key : String} {after : ServersTable} (authentic : gcm.Authentic)
    (represents : Represents (Sealed gcm) table store)
    (upgraded : TableUpgraded gcm key table after) :
    Represents (SealedWith gcm key) after store where
  rows := by
    intro new hnew
    obtain ⟨row, hrow, hupgraded⟩ := upgraded.exists_old hnew
    have hholds := represents.rows row hrow
    have hothers := hupgraded.others
    rw [show new.id = row.id by rw [← hothers]]
    exact ⟨hholds.privateKey.upgraded authentic hupgraded.privateKey,
      hholds.password.upgraded authentic hupgraded.password⟩
  servers := by
    intro id
    rw [represents.servers, ← List.mem_map, ← upgraded.ids, List.mem_map]

theorem Operates.faithful {serving : Option String} (authentic : gcm.Authentic)
    (initial : Represents (Sealed gcm) start store)
    (operates : Operates mayFail gcm start log table serving) :
    Faithful gcm table serving (store.recall log) := by
  induction operates with
  | installed => exact ⟨initial, nofun⟩
  | @startup log table serving key events result final operates valid upgrade ih =>
      rw [PlainStore.recall_concat]
      obtain ⟨-, -, hunchanged, hupgraded⟩ :=
        upgradeCredentials_run authentic.toLawful upgrade
      cases result with
      | error err =>
          refine ⟨?_, nofun⟩
          rw [hunchanged ⟨err, rfl⟩]
          exact ih.holds
      | ok count =>
          have hsealed := ih.holds.upgraded authentic (hupgraded count rfl).1
          refine ⟨hsealed.sealed valid, fun other hother => ?_⟩
          obtain rfl := Option.some.inj hother
          exact ⟨valid, hsealed⟩
  | @request log table after key request response operates handles ih =>
      rw [PlainStore.recall_concat]
      obtain ⟨hvalid, hsealed⟩ := ih.serves key rfl
      obtain ⟨hafter, -⟩ := hsealed.request handles
      refine ⟨hafter.sealed hvalid, fun other hother => ?_⟩
      obtain rfl := Option.some.inj hother
      exact ⟨hvalid, hafter⟩

/-- Every request that succeeded said so truly. -/
def PlainStore.Accounts (store : PlainStore) (log : List Occurrence) : Prop :=
  ∀ front request response back, log = front ++ .request request response :: back →
    response.status < 400 → (store.recall front).Carries request response

/-- A log that has grown by a startup, or by a request that says what it did. -/
theorem PlainStore.Accounts.concat {occurrence : Occurrence} (accounts : store.Accounts log)
    (last : ∀ request response, occurrence = .request request response →
      response.status < 400 → (store.recall log).Carries request response) :
    store.Accounts (log ++ [occurrence]) := by
  intro front request response back place hsucceeded
  rcases concat_eq_append_cons place with ⟨-, rfl, hlast⟩ | ⟨init, -, hbefore⟩
  · exact last request response hlast hsucceeded
  · exact accounts front request response init hbefore hsucceeded

theorem Operates.accounts {serving : Option String} (authentic : gcm.Authentic)
    (initial : Represents (Sealed gcm) start store)
    (operates : Operates mayFail gcm start log table serving) : store.Accounts log := by
  induction operates with
  | installed =>
      intro front request response back place
      exact absurd place (by simp)
  | startup operates valid upgrade ih =>
      refine ih.concat fun request response heq => ?_
      cases heq
  | @request log table after key request response operates handles ih =>
      obtain ⟨-, hsealed⟩ := (operates.faithful authentic initial).serves key rfl
      refine ih.concat ?_
      intro _ _ heq
      cases heq
      exact (hsealed.request handles).2

/-- A record that either way of reading makes of a row. -/
def RecordOf (row : Row) (server : Server) : Prop :=
  scanRow row = .ok server ∨
    ∃ password, row.password = some password ∧ server = connectionServer row password

theorem RecordOf.fields {row : Row} {server : Server} (record : RecordOf row server) :
    server.protocol = row.protocol ∧ server.privateKey = row.privateKey ∧
      server.password = row.password.getD "" := by
  rcases record with hscan | ⟨password, hpassword, rfl⟩
  · obtain ⟨password, description, group, hpassword, -, -, rfl⟩ := scanRow_eq_ok_iff.mp hscan
    rw [hpassword]
    exact ⟨rfl, rfl, rfl⟩
  · rw [hpassword]
    exact ⟨rfl, rfl, rfl⟩

/--
While a process serves, the table has the servers that the store of plaintexts has,
every stored credential decrypts under the process's key to what the store holds, and
the configuration of every SSH record carries exactly these plaintexts.  What the store
holds follows the requests alone: each that was answered below 400 carried its record.
-/
theorem credentials_refine_plaintexts {key : String} (authentic : gcm.Authentic)
    (initial : Represents (Sealed gcm) start store)
    (operates : Operates mayFail gcm start log table (some key)) :
    store.Accounts log ∧
    (∀ id, (store.recall log id).isSome ↔ ∃ row ∈ table.rows, row.id = id) ∧
    ∀ row ∈ table.rows,
      (row.privateKey ≠ "" →
        decrypt gcm row.privateKey key = .ok ((store.recall log).secrets row.id).privateKey) ∧
      (∀ password, row.password = some password → password ≠ "" →
        decrypt gcm password key = .ok ((store.recall log).secrets row.id).password) ∧
      ∀ server, RecordOf row server → row.protocol ≠ "rdp" →
        connectionConfig gcm server key = .ok ⟨server.host, server.port, server.username,
          server.authType, ((store.recall log).secrets row.id).privateKey,
          ((store.recall log).secrets row.id).password, server.hostKey⟩ := by
  obtain ⟨-, hsealed⟩ := (operates.faithful authentic initial).serves key rfl
  refine ⟨operates.accounts authentic initial, hsealed.servers, ?_⟩
  intro row hrow
  have hholds := hsealed.rows row hrow
  have hkey := hholds.privateKey.open authentic.toLawful
  have hpassword := hholds.password.open authentic.toLawful
  refine ⟨fun hne => ?_, fun password hsome hne => ?_, fun server hrecord hssh => ?_⟩
  · unfold openCredential at hkey
    rwa [if_neg hne] at hkey
  · rw [hsome] at hpassword
    unfold openCredential at hpassword
    rwa [Option.getD_some, if_neg hne] at hpassword
  · obtain ⟨hprotocol, hprivateKey, hserverPassword⟩ := hrecord.fields
    refine connectionConfig_eq_ok_iff.mpr ⟨hprotocol ▸ hssh, _, _, ?_, ?_, rfl⟩
    · rw [hprivateKey]
      exact hkey
    · rw [hserverPassword]
      exact hpassword

/-- One server, with the private key `secret`. -/
def secretStore : PlainStore := PlainStore.set (fun _ => none) 1 (some ⟨bytesOf "secret", []⟩)

theorem validKey_testKey : ValidKey testKey := ⟨_, rfl, rfl⟩

theorem legacyTable_represents : Represents (Sealed tagGCM) legacyTable secretStore := by
  have empty : Represents (Sealed tagGCM) (Table.empty 0) fun _ => none :=
    ⟨nofun, fun id => by simp⟩
  exact empty.insert
    ⟨⟨legacyEncryptionKey, validKey_legacy, Or.inr ⟨zeroNonce, legacyEncryptionKey, rfl, rfl⟩⟩,
      ⟨legacyEncryptionKey, validKey_legacy, Or.inl ⟨rfl, rfl⟩⟩⟩

/-- A second server with the key of the first. -/
def copyKeyRequest : ServerCreateReq :=
  { gatewayRequest with authType := "key", password := "", copyKeyFrom := 1 }

/-- The second server is logged in to with a password from now on. -/
def passwordRequest : ServerCreateReq := { gatewayRequest with password := "password" }

/-- The table after the key has been copied. -/
def copiedTable : ServersTable :=
  upgradedTable.insert
    (overwrite (Row.blank "") (savedServer copyKeyRequest 0 (sealedSecret testKey, "")))

/-- A key is copied, and a password is set beside it. -/
theorem copiedKey_handled (mayFail : Prop) : ∃ created updated after row server,
    Handles mayFail tagGCM testKey upgradedTable (.create (.ok copyKeyRequest) none) created
      copiedTable ∧
    Handles mayFail tagGCM testKey copiedTable
      (.update "2" (.ok passwordRequest) (some zeroNonce)) updated after ∧
    (secretStore.recall [.request (.create (.ok copyKeyRequest) none) created,
      .request (.update "2" (.ok passwordRequest) (some zeroNonce)) updated]).secrets 2 =
        ⟨bytesOf "secret", bytesOf "password"⟩ ∧
    row ∈ after.rows ∧ row.id = 2 ∧ row.protocol ≠ "rdp" ∧ scanRow row = .ok server := by
  have unjumped : ∀ table id, JumpAccepted table gatewayRequest id := fun _ _ _ => nofun
  have copied : resolveWith tagGCM testKey none copyKeyRequest none (readServer upgradedTable 1) =
      .ok (sealedSecret testKey, "") := rfl
  have copying : accepted (.ok copyKeyRequest) = .ok copyKeyRequest := rfl
  have entering : accepted (.ok passwordRequest) = .ok passwordRequest := rfl
  have found : ∃ current, readServer copiedTable 2 = .ok (some current) := ⟨_, rfl⟩
  obtain ⟨current, read⟩ := found
  obtain ⟨sealed, hsealed⟩ :=
    encrypt_ok_of_validKey tagGCM (bytesOf "password") validKey_testKey zeroNonce
  have hssh : passwordRequest.protocol ≠ "rdp" := by decide
  have submitted : passwordRequest.password ≠ "" := by decide
  refine ⟨_, _, _, _, _, handles_create_of_accepted copying (unjumped _ _) copied "",
    handles_update_of_accepted entering rfl (by decide) read (unjumped _ _)
      (resolveWith_submitted_password hssh rfl submitted hsealed) "",
    rfl, List.mem_cons_of_mem _ (List.mem_singleton_self _), rfl, hssh, rfl⟩

/-- Neither the password set beside it nor the deletion of its source touches the key. -/
theorem credentials_refine_plaintexts_copied : ∃ log table server,
    Operates False tagGCM legacyTable log table (some testKey) ∧
      connectionConfig tagGCM server testKey = .ok ⟨server.host, server.port, server.username,
        server.authType, bytesOf "secret", bytesOf "password", server.hostKey⟩ ∧
      ¬ ∃ row ∈ table.rows, row.id = 1 := by
  obtain ⟨events, upgrade⟩ := legacyTable_executes
  obtain ⟨created, updated, after, row, server, hcreated, hupdated, hkept, hrow, hid, hssh,
    hscan⟩ := copiedKey_handled False
  have upgraded : Operates False tagGCM legacyTable [.startup testKey (.ok 1)] upgradedTable
      (some testKey) := Operates.installed.startup validKey_testKey upgrade
  have deleted : Handles False tagGCM testKey after (.delete "1") ⟨200, .message "deleted"⟩
      (after.delete 1) := handles_delete_of_positive rfl (by decide)
  have operates := ((upgraded.request hcreated).request hupdated).request deleted
  obtain ⟨-, hservers, hrows⟩ :=
    credentials_refine_plaintexts tagGCM_authentic legacyTable_represents operates
  have hother : row.id ≠ 1 := by rw [hid]; decide
  obtain ⟨-, -, hconfig⟩ := hrows row (Table.mem_delete_iff.mpr ⟨hrow, hother⟩)
  have hrecall : ∀ log, secretStore.recall (log ++ [.request (.delete "1")
      ⟨200, .message "deleted"⟩]) = (secretStore.recall log).set 1 none := by
    intro log
    rw [PlainStore.recall_concat]
    exact PlainStore.remember_delete (show parseInt "1" = some 1 from rfl)
  refine ⟨_, _, server, operates, ?_, ?_⟩
  · rw [hrecall, PlainStore.secrets_set_of_ne hother, hid] at hconfig
    rw [hconfig server (Or.inl hscan) hssh]
    exact congrArg (fun secrets : Secrets => Except.ok (SshClient.Config.mk _ _ _ _
      secrets.privateKey secrets.password _)) hkept
  · rw [← hservers, hrecall, PlainStore.set_self]
    exact Bool.false_ne_true

end Life

end OpsUp.Api
