import OpsUp.Api.Connection
import OpsUp.Database.Credentials

/-!
# Stored records

Three queries read a stored record: `GetServer` all of it, `loadConnectionServer` what a
connection needs, `ListServers` all but the credentials.  Each selects and scans its own list of
columns, and each has its own columns in which it does not accept `NULL`.
-/

namespace OpsUp.Api

open OpsUp.Crypto OpsUp.Database OpsUp.Interaction OpsUp.Models OpsUp.Storage

/-- Alone, and where no statement fails, the program returns this and changes nothing. -/
def Returns {α : Type} (program : DB α) (table : ServersTable) (value : α) : Prop :=
  ∀ events result after, Program.Executes (servers False) program table events result after →
    result = value ∧ after = table

def withoutCredentials (server : Server) : Server :=
  { server with privateKey := "", password := "" }

/-- What a connection needs of the record; everything else stays empty. -/
def connectionFields (server : Server) : Server :=
  { server with
    rdpDomain := "", rdpCertFingerprint := "", name := "", description := "", group := ""
    createdAt := "", updatedAt := "" }

/-- `ListServers` scans these columns into texts. -/
def Listable (row : Row) : Prop := row.description ≠ none ∧ row.groupName ≠ none

instance (row : Row) : Decidable (Listable row) := inferInstanceAs (Decidable (_ ∧ _))

/-- What `ListServers` makes of such a row. -/
def listedServer (row : Row) : Server :=
  withoutCredentials (ofRow row "" (row.description.getD "") (row.groupName.getD ""))

def listing (table : ServersTable) : List Server :=
  (table.rows.mergeSort listOrder).map listedServer

def Readable (row : Row) : Prop := row.password ≠ none ∧ Listable row

variable {table before after : ServersTable} {row : Row} {server : Server} {id : Int}

/-! ## Programs alone -/

section Alone

open Program

variable {α : Type} {program : DB α} {value other : α}

theorem servers_answer (mayFail : Prop) (table : ServersTable) (statement : Statement) :
    ∃ reply after, servers mayFail table statement reply after :=
  ⟨_, _, Or.inl ⟨"", rfl⟩⟩

/-- A program always returns, so what it returns is unique. -/
theorem Returns.unique (first : Returns program table value)
    (second : Returns program table other) : value = other := by
  obtain ⟨events, result, after, run⟩ := exists_executes (servers_answer False) program table
  rw [← (first events result after run).1, ← (second events result after run).1]

theorem returns_iff (returned : Returns program table value) :
    Returns program table other ↔ other = value := by
  constructor
  · exact fun hother => hother.unique returned
  · rintro rfl
    exact returned

/-- A statement that reads answers the same at any time. -/
theorem returns_call {statement : Statement} {reply : Except String statement.Answer}
    {next : Except String statement.Answer → DB α}
    (performed : ∀ now, perform now table statement = (reply, table))
    (returned : next reply = .ret value) : Returns (.call statement next) table value := by
  intro events result after run
  obtain ⟨answered, middle, rest, rfl, hanswer, hrun⟩ := executes_call_iff.mp run
  rcases hanswer with ⟨now, hperform⟩ | ⟨hfail, -⟩
  · rw [performed now] at hperform
    obtain ⟨rfl, rfl⟩ := Prod.mk.inj hperform
    rw [returned] at hrun
    obtain ⟨-, rfl, rfl⟩ := executes_ret_iff.mp hrun
    exact ⟨rfl, rfl⟩
  · exact hfail.elim

theorem createServer_executes {events : List (Event serversDB)} {result : Except String Server}
    (run : Executes (servers False) (createServer server) table events result after) :
    result = .ok { server.withProtocol with id := table.sequence + 1 } ∧
      ∃ now, after = table.insert (overwrite (Row.blank now) server.withProtocol) := by
  obtain ⟨answered, middle, rest, rfl, hanswer, hrun⟩ := executes_call_iff.mp run
  rcases hanswer with ⟨now, hperform⟩ | ⟨hfail, -⟩
  · simp only [perform, assignAll_insertValues] at hperform
    obtain ⟨rfl, rfl⟩ := Prod.mk.inj hperform
    obtain ⟨-, rfl, rfl⟩ := executes_ret_iff.mp hrun
    exact ⟨rfl, now, rfl⟩
  · exact hfail.elim

theorem updateServer_executes {events : List (Event serversDB)} {result : Except String Server}
    (run : Executes (servers False) (updateServer server) table events result after) :
    result = .ok server.withProtocol ∧
      ∃ now, after = table.update server.id (updatedRow server.withProtocol now) := by
  obtain ⟨answered, middle, rest, rfl, hanswer, hrun⟩ := executes_call_iff.mp run
  rcases hanswer with ⟨now, hperform⟩ | ⟨hfail, -⟩
  · rw [perform_update, withProtocol_id] at hperform
    obtain ⟨rfl, rfl⟩ := Prod.mk.inj hperform
    obtain ⟨-, rfl, rfl⟩ := executes_ret_iff.mp hrun
    exact ⟨rfl, now, rfl⟩
  · exact hfail.elim

end Alone

/-! ## What the three queries return -/

theorem returns_getServer (table : ServersTable) (id : Int) :
    Returns (getServer id) table (readServer table id) :=
  returns_call (fun _ => rfl) (congrArg Program.ret (scanSelected_eq table id))

def loadedServer (table : ServersTable) (id : Int) : Except String (Option Server) :=
  scanConnection (.ok ((table.find id).map fun row => row.values connectionColumns))

theorem returns_loadConnectionServer (table : ServersTable) (id : Int) :
    Returns (loadConnectionServer id) table (loadedServer table id) :=
  returns_call (fun _ => rfl) rfl

theorem returns_listServers (table : ServersTable) :
    Returns listServers table
      (scanListedServers ((table.rows.mergeSort listOrder).map fun row =>
        row.values listServersColumns)) :=
  returns_call (fun _ => rfl) rfl

theorem scanListedServer_values (row : Row) :
    scanListedServer (row.values listServersColumns) =
      if Listable row then .ok (listedServer row) else .error errNull := by
  cases hdescription : row.description <;> cases hgroup : row.groupName <;>
    cases hjump : row.jumpServerId <;>
    simp [Listable, listedServer, withoutCredentials, listServersColumns, Row.values, Row.value,
      scanListedServer, hdescription, hgroup, hjump, Value.ofText?, Value.ofInteger?, scanText,
      scanInteger, scanNullableInteger, ofRow, bind, Except.bind]

/-- One row that does not scan hides all the others. -/
theorem scanListedServers_eq_ok_iff {rows : List Row} {listed : List Server} :
    scanListedServers (rows.map fun row => row.values listServersColumns) = .ok listed ↔
      (∀ row ∈ rows, Listable row) ∧ listed = rows.map listedServer := by
  induction rows generalizing listed with
  | nil => simp [scanListedServers, eq_comm]
  | cons row rest ih =>
      simp only [List.map_cons, scanListedServers, scanListedServer_values, List.forall_mem_cons,
        bind, Except.bind]
      by_cases hrow : Listable row
      · rw [if_pos hrow]
        dsimp only
        cases hrest : scanListedServers (rest.map fun row => row.values listServersColumns) with
        | error err =>
            refine ⟨nofun, ?_⟩
            rintro ⟨⟨-, hothers⟩, -⟩
            have hscanned := ih.mpr ⟨hothers, rfl⟩
            rw [hrest] at hscanned
            cases hscanned
        | ok others =>
            obtain ⟨hothers, rfl⟩ := ih.mp hrest
            exact ⟨fun h => ⟨⟨hrow, hothers⟩, (Except.ok.inj h).symm⟩, fun h => congrArg _ h.2.symm⟩
      · rw [if_neg hrow]
        exact ⟨nofun, fun h => absurd h.1.1 hrow⟩

theorem listServers_returns_iff {listed : List Server} :
    Returns listServers table (.ok listed) ↔
      (∀ row ∈ table.rows, Listable row) ∧ listed = listing table := by
  rw [returns_iff (returns_listServers table), eq_comm, scanListedServers_eq_ok_iff]
  simp only [List.mem_mergeSort, listing]

theorem mem_listing_iff {item : Server} :
    item ∈ listing table ↔ ∃ row, table.find item.id = some row ∧ listedServer row = item := by
  simp only [listing, List.mem_map, List.mem_mergeSort, Table.find_eq_some_iff, Row.rowId_eq]
  refine exists_congr fun row => and_congr_left ?_
  rintro rfl
  exact ⟨fun hmem => ⟨hmem, rfl⟩, And.left⟩

/-- `GetServer` scans one text column more. -/
theorem exists_scanRow_iff (row : Row) :
    (∃ server, scanRow row = .ok server) ↔ Readable row := by
  simp only [scanRow_eq_ok_iff, Readable, Listable, Option.ne_none_iff_exists']
  constructor
  · rintro ⟨server, password, description, group, hpassword, hdescription, hgroup, -⟩
    exact ⟨⟨password, hpassword⟩, ⟨description, hdescription⟩, group, hgroup⟩
  · rintro ⟨⟨password, hpassword⟩, ⟨description, hdescription⟩, group, hgroup⟩
    exact ⟨_, password, description, group, hpassword, hdescription, hgroup, rfl⟩

theorem getServer_returns_iff (found : table.find id = some row) :
    Returns (getServer id) table (.ok (some server)) ↔ scanRow row = .ok server := by
  rw [returns_iff (returns_getServer table id), readServer, found]
  dsimp only
  cases scanRow row with
  | error err => exact ⟨nofun, nofun⟩
  | ok read => simp [Except.map, eq_comm]

theorem loadConnectionServer_returns_iff (found : table.find id = some row) :
    Returns (loadConnectionServer id) table (.ok (some server)) ↔
      ∃ password, row.password = some password ∧ server = connectionServer row password := by
  rw [returns_iff (returns_loadConnectionServer table id), loadedServer, found]
  simp only [scanConnection, Option.map_some, scanConnectionServer_values]
  cases row.password with
  | none => simp [Except.map]
  | some password => simp [Except.map]

/-! ## Records survive storage -/

/-- The record is stored under this id: every reader returns it, and reads the other rows as
before. -/
structure Survives (before after : ServersTable) (server : Server) (id : Int) : Prop where
  stored : ∃ stored listed,
    stored =
        { server with id := id, createdAt := stored.createdAt, updatedAt := stored.updatedAt } ∧
      Returns (getServer id) after (.ok (some stored)) ∧
      Returns (loadConnectionServer id) after (.ok (some (connectionFields stored))) ∧
      Returns listServers after (.ok listed) ∧ withoutCredentials stored ∈ listed
  others : ∀ key, key ≠ id →
    (∀ found, Returns (getServer key) after found ↔ Returns (getServer key) before found) ∧
      ∀ found, Returns (loadConnectionServer key) after found ↔
        Returns (loadConnectionServer key) before found
  listing : ∀ listed, Returns listServers before (.ok listed) →
    ∃ later, Returns listServers after (.ok later) ∧
      ∀ item, item.id ≠ id → (item ∈ later ↔ item ∈ listed)

/-- `CreateServer` stores the record under a new id. -/
def CreateSurvives (table : ServersTable) (server : Server) : Prop :=
  ∀ events result after,
    Program.Executes (servers False) (createServer server) table events result after →
      ∃ id, table.find id = none ∧ result = .ok { server with id := id } ∧
        Survives table after server id

def UpdateSurvives (table : ServersTable) (server : Server) : Prop :=
  ∀ events result after,
    Program.Executes (servers False) (updateServer server) table events result after →
      result = .ok server ∧ Survives table after server server.id

/-- A row that holds the record, among rows that `ListServers` accepts. -/
theorem survives_of_row (found : after.find id = some row) (written : overwrite row server = row)
    (same : ∀ key, key ≠ id → after.find key = before.find key)
    (listable : ∀ other ∈ after.rows, Listable other) : Survives before after server id := by
  have hid : row.id = id := Table.find_rowId found
  refine ⟨?_, ?_, ?_⟩
  · refine ⟨ofRow row server.password server.description server.group, listing after, ?_, ?_, ?_,
      listServers_returns_iff.mpr ⟨listable, rfl⟩, ?_⟩
    · rw [← hid, ← written]
      rfl
    · rw [getServer_returns_iff found, ← written]
      rfl
    · rw [loadConnectionServer_returns_iff found]
      refine ⟨server.password, ?_, rfl⟩
      rw [← written]
      rfl
    · rw [mem_listing_iff]
      refine ⟨row, ?_, ?_⟩
      · rw [← found, ← hid]
        rfl
      · rw [← written]
        rfl
  · intro key hkey
    have hfind := same key hkey
    refine ⟨fun other => ?_, fun other => ?_⟩
    · rw [returns_iff (returns_getServer after key), returns_iff (returns_getServer before key),
        readServer, readServer, hfind]
    · rw [returns_iff (returns_loadConnectionServer after key),
        returns_iff (returns_loadConnectionServer before key), loadedServer, loadedServer, hfind]
  · intro listed hlisted
    obtain ⟨-, rfl⟩ := listServers_returns_iff.mp hlisted
    refine ⟨listing after, listServers_returns_iff.mpr ⟨listable, rfl⟩, ?_⟩
    intro item hitem
    rw [mem_listing_iff, mem_listing_iff, same item.id hitem]

/-- A record that survives is in a listing, which has scanned every row. -/
theorem Survives.listable (survives : Survives before after server id) :
    ∀ row ∈ after.rows, Listable row := by
  obtain ⟨stored, listed, -, -, -, hlisted, -⟩ := survives.stored
  exact (listServers_returns_iff.mp hlisted).1

theorem createSurvives_iff (named : server.protocol ≠ "") :
    CreateSurvives table server ↔ ∀ row ∈ table.rows, Listable row := by
  constructor
  · intro survives row hrow
    obtain ⟨events, result, after, run⟩ := Program.exists_executes (servers_answer False)
      (createServer server) table
    obtain ⟨id, -, -, hsurvives⟩ := survives events result after run
    obtain ⟨-, now, rfl⟩ := createServer_executes run
    exact hsurvives.listable row (Table.mem_insert_iff.mpr (Or.inl hrow))
  · intro listable events result after run
    obtain ⟨rfl, now, rfl⟩ := createServer_executes run
    rw [withProtocol_of_ne named]
    refine ⟨table.sequence + 1, Table.find_fresh (by omega), rfl, ?_⟩
    have hfound : (table.insert (overwrite (Row.blank now) server)).find (table.sequence + 1) =
        some (withId (table.sequence + 1) (overwrite (Row.blank now) server)) := by
      rw [Table.find_insert, if_pos rfl]
    refine survives_of_row hfound rfl ?_ ?_
    · intro key hkey
      rw [Table.find_insert, if_neg hkey]
    · intro other hother
      rcases Table.mem_insert_iff.mp hother with hold | rfl
      · exact listable other hold
      · exact ⟨nofun, nofun⟩

theorem updateSurvives_iff (named : server.protocol ≠ "")
    (exists_row : table.find server.id = some row) :
    UpdateSurvives table server ↔
      ∀ other ∈ table.rows, other.id ≠ server.id → Listable other := by
  constructor
  · intro survives other hother hid
    obtain ⟨events, result, after, run⟩ := Program.exists_executes (servers_answer False)
      (updateServer server) table
    obtain ⟨-, hsurvives⟩ := survives events result after run
    obtain ⟨-, now, rfl⟩ := updateServer_executes run
    exact hsurvives.listable other (Table.mem_update_iff.mpr (Or.inl ⟨hother, hid⟩))
  · intro listable events result after run
    obtain ⟨rfl, now, rfl⟩ := updateServer_executes run
    rw [withProtocol_of_ne named]
    refine ⟨rfl, survives_of_row (Table.find_update_self exists_row) rfl ?_ ?_⟩
    · exact fun key hkey => Table.find_update_other hkey
    · intro other hother
      rcases Table.mem_update_iff.mp hother with ⟨hold, hid⟩ | ⟨old, -, rfl⟩
      · exact listable other hold hid
      · exact ⟨nofun, nofun⟩

/-- A record survives storage in every field, whatever is stored beside it, provided that no other
row has a `NULL` description or group: `ListServers` fails on such a row. -/
theorem records_survive_iff (table : ServersTable) (server : Server)
    (named : server.protocol ≠ "") :
    (CreateSurvives table server ↔ ∀ row ∈ table.rows, Listable row) ∧
      ∀ row, table.find server.id = some row →
        (UpdateSurvives table server ↔
          ∀ other ∈ table.rows, other.id ≠ server.id → Listable other) :=
  ⟨createSurvives_iff named, fun _ found => updateSurvives_iff named found⟩

def exampleServer : Server where
  protocol := "rdp"
  rdpDomain := "CORP"
  rdpCertFingerprint := "ab"
  id := 1
  name := "desk"
  host := "desk.local"
  port := 3389
  username := "admin"
  authType := "password"
  hostKey := ""
  privateKey := ""
  password := "secret"
  description := "front desk"
  group := "office"
  jumpServerId := none
  createdAt := ""
  updatedAt := ""

theorem records_survive_blank :
    CreateSurvives ((Table.empty 0).insert (Row.blank "")) exampleServer ∧
      UpdateSurvives ((Table.empty 0).insert (Row.blank "")) exampleServer := by
  obtain ⟨hcreate, hupdate⟩ := records_survive_iff ((Table.empty 0).insert (Row.blank ""))
    exampleServer (by decide)
  exact ⟨hcreate.mpr (by decide), (hupdate { Row.blank "" with id := 1 } rfl).mpr (by decide)⟩

def undescribedTable : ServersTable :=
  (Table.empty 0).insert { Row.blank "" with description := none }

/-- A row without a description hides the new record from the listing. -/
theorem records_survive_undescribed :
    exampleServer.protocol ≠ "" ∧ ¬ CreateSurvives undescribedTable exampleServer := by
  have hnamed : exampleServer.protocol ≠ "" := by decide
  refine ⟨hnamed, ?_⟩
  rw [createSurvives_iff hnamed]
  decide

/-! ## Accepted rows are readable -/

/-- Every row is listed, and its id can be looked up and loaded. -/
structure EveryRead (table : ServersTable) : Prop where
  listed : ∃ listed, Returns listServers table (.ok listed) ∧
    listed.Perm (table.rows.map listedServer)
  read : ∀ row ∈ table.rows, ∃ server, Returns (getServer row.id) table (.ok (some server))
  loaded : ∀ row ∈ table.rows,
    ∃ server, Returns (loadConnectionServer row.id) table (.ok (some server))

theorem everyRead_iff : EveryRead table ↔ ∀ row ∈ table.rows, Readable row := by
  constructor
  · intro every row hrow
    obtain ⟨server, hread⟩ := every.read row hrow
    exact (exists_scanRow_iff row).mp
      ⟨server, (getServer_returns_iff (Table.find_of_mem hrow)).mp hread⟩
  · intro readable
    refine ⟨⟨listing table, listServers_returns_iff.mpr ⟨?_, rfl⟩, ?_⟩, ?_, ?_⟩
    · exact fun row hrow => (readable row hrow).2
    · exact (List.mergeSort_perm table.rows listOrder).map listedServer
    · intro row hrow
      obtain ⟨server, hscan⟩ := (exists_scanRow_iff row).mpr (readable row hrow)
      exact ⟨server, (getServer_returns_iff (Table.find_of_mem hrow)).mpr hscan⟩
    · intro row hrow
      obtain ⟨password, hpassword⟩ := Option.ne_none_iff_exists'.mp (readable row hrow).1
      exact ⟨connectionServer row password,
        (loadConnectionServer_returns_iff (Table.find_of_mem hrow)).mpr ⟨password, hpassword, rfl⟩⟩

/-- Whenever the upgrade at startup succeeds, every row can be read afterwards. -/
def ReadableAfterUpgrade (gcm : GCM) (key : String) (table : ServersTable) : Prop :=
  ∀ mayFail events count final,
    Program.Executes (transactions mayFail) (upgradeCredentials gcm key) (.idle table) events
      (.ok count) final → EveryRead final.committed

/-- The upgrade gives a row a password, if only the empty one, when it re-encrypts the private
key. -/
def PasswordStored (gcm : GCM) (key : String) (row : Row) : Prop :=
  row.password ≠ none ∨ NeedsUpgrade gcm key row.privateKey

section Startup

open Program

variable {gcm : GCM} {key : String} {updates : List Item}

theorem readable_applied (collected : Collected gcm key (items table) updates)
    (member : row ∈ table.rows) :
    Readable (applied updates row) ↔ PasswordStored gcm key row ∧ Listable row := by
  refine and_congr ?_ ?_
  · rw [PasswordStored, Ne, collected_password collected member, not_and_or, not_not]
  · rcases collected_applied table.distinct collected member with
      ⟨-, hsame⟩ | ⟨-, new, -, hset⟩
    · rw [hsame]
    · rw [hset]
      rfl

theorem everyRead_withUpdates (collected : Collected gcm key (items table) updates) :
    EveryRead (withUpdates table updates) ↔
      ∀ row ∈ table.rows, PasswordStored gcm key row ∧ Listable row := by
  rw [everyRead_iff, withUpdates_rows, List.forall_mem_map]
  exact forall₂_congr fun row hrow => readable_applied collected hrow

/-- Every row that startup accepts can be read exactly when no description and no group is `NULL`,
and a password only in a row whose private key is re-encrypted.  A credential that blocks the
upgrade stops the startup before anything is read. -/
theorem accepted_readable_iff (lawful : gcm.Lawful) :
    ReadableAfterUpgrade gcm key table ↔
      (∃ row ∈ table.rows, Blocked gcm key row.privateKey ∨
        Blocked gcm key (row.password.getD "")) ∨
      ∀ row ∈ table.rows, PasswordStored gcm key row ∧ Listable row := by
  have hblocked : (∃ item ∈ items table, ItemBlocked gcm key item) ↔
      ∃ row ∈ table.rows, Blocked gcm key row.privateKey ∨
        Blocked gcm key (row.password.getD "") := by
    simp [items, ItemBlocked, Item.ofRow]
  rw [← hblocked]
  constructor
  · intro readable
    rw [or_iff_not_imp_left]
    intro hopen
    obtain ⟨events, result, final, run⟩ := exists_executes (transactions_answer False)
      (upgradeCredentials gcm key) (.idle table)
    obtain ⟨-, herror, -, hok⟩ := upgradeCredentials_commits lawful run
    cases result with
    | error err =>
        exact absurd (herror.mp ⟨err, rfl⟩) (not_or.mpr ⟨hopen, not_anyFailed run⟩)
    | ok count =>
        obtain ⟨updates, hcollected, -, hcommitted⟩ := hok count rfl
        have hevery := readable False events count final run
        rwa [hcommitted, everyRead_withUpdates hcollected] at hevery
  · intro hrows mayFail events count final run
    obtain ⟨-, herror, -, hok⟩ := upgradeCredentials_commits lawful run
    have hopen : ¬ ∃ item ∈ items table, ItemBlocked gcm key item := by
      intro hitem
      obtain ⟨err, herr⟩ := herror.mpr (Or.inl hitem)
      cases herr
    obtain ⟨updates, hcollected, -, hcommitted⟩ := hok count rfl
    rw [hcommitted, everyRead_withUpdates hcollected]
    exact hrows.resolve_left hopen

theorem accepted_readable_legacyTable : ReadableAfterUpgrade tagGCM testKey legacyTable := by
  refine (accepted_readable_iff tagGCM_authentic.toLawful).mpr (Or.inr ?_)
  intro row hrow
  obtain rfl := List.mem_singleton.mp hrow
  exact ⟨Or.inr (by decide +kernel), by decide⟩

/-- The row has the active key already, and its password is `NULL`. -/
def passwordlessTable : ServersTable := (Table.empty 0).insert (testRow (sealedSecret testKey))

/-- The upgrade accepts it, and its record cannot be read. -/
theorem accepted_readable_passwordless :
    ¬ ReadableAfterUpgrade tagGCM testKey passwordlessTable := by
  intro readable
  have run : Executes (transactions False) (upgradeCredentials tagGCM testKey)
      (.idle passwordlessTable) [⟨.begin, .ok ()⟩,
        ⟨.selectCredentials, .ok ⟨[.ok ⟨1, sealedSecret testKey, ""⟩], none⟩⟩,
        ⟨.commit, .ok ()⟩, ⟨.rollback, ()⟩] (.ok 0) (.idle passwordlessTable) :=
    .call (Or.inl ⟨rfl, rfl⟩) <| .call ⟨rfl, Or.inl ⟨_, rfl, Or.inl rfl⟩⟩ <|
      .call (Or.inl ⟨rfl, rfl⟩) <| .call rfl <| .refl _ _
  have hread := everyRead_iff.mp (readable False _ _ _ run)
  exact (hread _ (List.mem_singleton.mpr rfl)).1 rfl

end Startup

end OpsUp.Api
