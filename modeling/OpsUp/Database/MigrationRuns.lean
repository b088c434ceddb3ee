import OpsUp.Database.Migrations

/-!
# Runs of the migrations

A migration that succeeds applies a function of the database; one that fails leaves
no trace, because nothing but the commit reaches the committed database.  What a
release does to a database is therefore the composition of these functions, and
upgrades compose because the composition can be cut at any version.
-/

namespace OpsUp.Database

open OpsUp.Interaction Program

/-! ## What a successful statement does -/

/-- `CREATE TABLE IF NOT EXISTS` as a function. -/
def DatabaseFile.withTable (db : DatabaseFile) (table : String × List ColumnDef) : DatabaseFile :=
  match db.tables table.1 with
  | some _ => db
  | none =>
      if distinct : (table.2.map ColumnDef.name).Nodup then
        db.setTable table.1 (.created table.2 distinct)
      else db

/-- `addServerColumn` as a function. -/
def DatabaseFile.withColumn (db : DatabaseFile) (column : AddedColumn) : DatabaseFile :=
  match db.tables "servers" with
  | none => db
  | some relation =>
      if fresh : column.name ∉ relation.names then
        db.setTable "servers" (relation.addColumn column.name column.definition column.default fresh)
      else db

/-- The columns that each migration introduces. -/
def introduced : List (List AddedColumn) := [legacyColumns, [hostKeyColumn], rdpColumns]

/-- What each migration does when it succeeds. -/
def effects : List (DatabaseFile → DatabaseFile) :=
  [fun db => legacyColumns.foldl DatabaseFile.withColumn (migrationsSQL.foldl .withTable db),
    fun db => db.withColumn hostKeyColumn,
    fun db => rdpColumns.foldl DatabaseFile.withColumn db]

/-- The effects that are left, the first of which has index `i`. -/
def applyFrom : Nat → List (DatabaseFile → DatabaseFile) → DatabaseFile → DatabaseFile
  | _, [], db => db
  | i, effect :: rest, db => applyFrom (i + 1) rest { effect db with userVersion := (i + 1 : Nat) }

/-- What a release with these effects makes of a database. -/
def upgraded (effects : List (DatabaseFile → DatabaseFile)) (db : DatabaseFile) : DatabaseFile :=
  applyFrom db.userVersion.toNat (effects.drop db.userVersion.toNat) db

/-! ## Programs within the transaction -/

/-- The program stays within the open transaction, and applies `effect` when it succeeds. -/
def Applies (program : Sql (Option String)) (effect : DatabaseFile → DatabaseFile) : Prop :=
  ∀ ⦃committed db events result final⦄,
    Executes sqlite program ⟨committed, some db⟩ events result final →
      ∃ after, final = ⟨committed, some after⟩ ∧ (result = none → after = effect db)

theorem applies_none : Applies (pure none) id := by
  intro committed db events result final run
  obtain ⟨-, -, rfl⟩ := executes_ret_iff.mp run
  exact ⟨db, rfl, fun _ => rfl⟩

/-- A failure ends the program where it is. -/
theorem stops_of_failed {err : String} {committed db : DatabaseFile} {events : List (Event sql)}
    {result : Option String} {final : SqlState} {expected : DatabaseFile}
    (run : Executes sqlite (pure (some err)) ⟨committed, some db⟩ events result final) :
    ∃ after, final = ⟨committed, some after⟩ ∧ (result = none → after = expected) := by
  obtain ⟨-, rfl, rfl⟩ := executes_ret_iff.mp run
  exact ⟨db, rfl, nofun⟩

theorem Applies.andThen {first second : Sql (Option String)}
    {before after : DatabaseFile → DatabaseFile} (hfirst : Applies first before)
    (hsecond : Applies second after) :
    Applies (andThen first second) fun db => after (before db) := by
  intro committed db events result final run
  obtain ⟨_, _, failed, middle, -, hrun, hrest⟩ := executes_bind_iff.mp run
  obtain ⟨between, rfl, hbetween⟩ := hfirst hrun
  cases failed with
  | some err => exact stops_of_failed hrest
  | none =>
      rw [hbetween rfl] at hrest
      exact hsecond hrest

/-- One statement that writes, or fails and changes nothing. -/
theorem applies_exec {command : SqlCommand} {effect : DatabaseFile → DatabaseFile}
    (report : command.Reply → Option String)
    (spec : ∀ committed db reply after, sqlite ⟨committed, some db⟩ command reply after →
      ∃ written, after = ⟨committed, some written⟩ ∧ (report reply = none → written = effect db)) :
    Applies (report <$> exec command) effect := by
  intro committed db events result final run
  obtain ⟨reply, middle, rest, -, answer, hrest⟩ := executes_call_iff.mp run
  obtain ⟨-, rfl, rfl⟩ := executes_ret_iff.mp hrest
  exact spec committed db reply _ answer

theorem applies_setUserVersion (version : Nat) :
    Applies (errorOf <$> exec (.setUserVersion version))
      fun db => { db with userVersion := version } := by
  refine applies_exec _ ?_
  rintro committed db reply after (⟨rfl, rfl⟩ | ⟨⟨err, rfl⟩, rfl⟩)
  · exact ⟨_, rfl, fun _ => rfl⟩
  · exact ⟨db, rfl, nofun⟩

theorem applies_createTable (table : String × List ColumnDef) :
    Applies (errorOf <$> exec (.createTable table.1 table.2)) fun db => db.withTable table := by
  refine applies_exec _ ?_
  rintro committed db reply after
    (⟨rfl, ⟨relation, hrelation, rfl⟩ | ⟨distinct, habsent, rfl⟩⟩ | ⟨⟨err, rfl⟩, rfl⟩)
  · refine ⟨db, rfl, fun _ => ?_⟩
    change db.tables table.1 = _ at hrelation
    simp only [DatabaseFile.withTable, hrelation]
  · refine ⟨_, rfl, fun _ => ?_⟩
    change db.tables table.1 = _ at habsent
    simp only [DatabaseFile.withTable, habsent, dif_pos distinct]
    rfl
  · exact ⟨db, rfl, nofun⟩

theorem applies_createTables (tables : List (String × List ColumnDef)) :
    Applies (createTables tables) fun db => tables.foldl .withTable db := by
  induction tables with
  | nil => exact applies_none
  | cons table rest ih => exact (applies_createTable table).andThen ih

/-- A delivery without an error tells whether the column is there. -/
theorem scanNames_ok (name : String) (names : List String) (found : Bool) :
    scanNames name (names.map .ok) found = .ok (found || decide (name ∈ names)) := by
  induction names generalizing found with
  | nil => simp [scanNames]
  | cons column rest ih =>
      simp only [List.map_cons, scanNames, ih, List.mem_cons, Bool.decide_or, eq_comm (a := column),
        Bool.or_assoc]

theorem scanNames_error (name : String) (names : List String) (err : String) (found : Bool) :
    scanNames name (names.map .ok ++ [.error err]) found = .error err := by
  induction names generalizing found with
  | nil => rfl
  | cons column rest ih => exact ih _

theorem withColumn_of_mem {db : DatabaseFile} {column : AddedColumn}
    (found : column.name ∈ db.serverNames) : db.withColumn column = db := by
  unfold DatabaseFile.serverNames at found
  unfold DatabaseFile.withColumn
  split
  · rfl
  · next relation hrelation =>
      rw [hrelation] at found
      exact dif_neg (not_not.mpr found)

theorem applies_addColumn (column : AddedColumn) :
    Applies (errorOf <$> exec (.addColumn column.name column.definition column.default))
      fun db => db.withColumn column := by
  refine applies_exec _ ?_
  rintro committed db reply after (⟨relation, free, rfl, hrelation, rfl⟩ | ⟨⟨err, rfl⟩, rfl⟩)
  · refine ⟨_, rfl, fun _ => ?_⟩
    change db.tables "servers" = _ at hrelation
    simp only [DatabaseFile.withColumn, hrelation, dif_pos free.fresh]
    rfl
  · exact ⟨db, rfl, nofun⟩

theorem applies_addServerColumn (column : AddedColumn) :
    Applies (addServerColumn column) fun db => db.withColumn column := by
  intro committed db events result final run
  obtain ⟨reply, middle, rest, -, ⟨rfl, answer⟩, hrest⟩ := executes_call_iff.mp run
  rcases answer with ⟨info, rfl, hlists⟩ | ⟨err, rfl⟩
  · rcases hlists with rfl | ⟨n, err, rfl⟩ | ⟨n, err, rfl⟩
    · simp only [Program.bind, scanNames_ok, Bool.false_or] at hrest
      split at hrest
      · next hfound =>
          obtain ⟨-, rfl, rfl⟩ := executes_ret_iff.mp hrest
          have hmem : column.name ∈ db.serverNames := of_decide_eq_true hfound
          exact ⟨db, rfl, fun _ => (withColumn_of_mem hmem).symm⟩
      · exact applies_addColumn column hrest
    · simp only [Program.bind, scanNames_ok] at hrest
      exact stops_of_failed hrest
    · simp only [Program.bind, scanNames_error] at hrest
      exact stops_of_failed hrest
  · exact stops_of_failed hrest

theorem applies_addServerColumns (columns : List AddedColumn) :
    Applies (addServerColumns columns) fun db => columns.foldl .withColumn db := by
  induction columns with
  | nil => exact applies_none
  | cons column rest ih => exact (applies_addServerColumn column).andThen ih

/-- Each migration has its effect. -/
theorem migrations_apply : List.Forall₂ Applies migrations effects :=
  .cons ((applies_createTables _).andThen (applies_addServerColumns _))
    (.cons (applies_addServerColumn _) (.cons (applies_addServerColumns _) .nil))

theorem applies_runMigrations {programs : List (Sql (Option String))}
    {changes : List (DatabaseFile → DatabaseFile)} (i : Nat)
    (apply : List.Forall₂ Applies programs changes) :
    Applies (runMigrations i programs) (applyFrom i changes) := by
  induction apply generalizing i with
  | nil => exact applies_none
  | cons head tail ih =>
      intro committed db events result final run
      obtain ⟨_, _, failed, middle, -, hrun, hrest⟩ := executes_bind_iff.mp run
      obtain ⟨between, rfl, hbetween⟩ := head hrun
      cases failed with
      | some err => exact stops_of_failed hrest
      | none =>
          rw [hbetween rfl] at hrest
          exact ((applies_setUserVersion (i + 1)).andThen (ih (i + 1))) hrest

/-! ## Whole runs -/

/-- The run ends with an error, or by the index that a negative version makes. -/
def GivesUp (db : DatabaseFile) (outcome : Outcome) : Prop :=
  (∃ err, outcome = .failed err) ∨ (outcome = .panicked ∧ db.userVersion < 0)

theorem executes_migrateWithin {programs : List (Sql (Option String))}
    {changes : List (DatabaseFile → DatabaseFile)} (apply : List.Forall₂ Applies programs changes)
    {db : DatabaseFile} {events : List (Event sql)} {outcome : Outcome} {final : SqlState}
    (run : Executes sqlite (migrateWithin programs) ⟨db, some db⟩ events outcome final) :
    (GivesUp db outcome ∧ final.committed = db) ∨
      (outcome = .done ∧ 0 ≤ db.userVersion ∧ db.userVersion ≤ programs.length ∧
        final.committed = upgraded changes db) := by
  obtain ⟨reply, middle, rest, -, ⟨rfl, answer⟩, hrest⟩ := executes_call_iff.mp run
  rcases answer with rfl | ⟨err, rfl⟩
  · change Executes sqlite (if db.userVersion > programs.length then _ else _) _ _ _ _ at hrest
    split at hrest
    · obtain ⟨-, rfl, rfl⟩ := executes_ret_iff.mp hrest
      exact Or.inl ⟨Or.inl ⟨_, rfl⟩, rfl⟩
    · next hsupported =>
        split at hrest
        · next hnegative =>
            obtain ⟨-, rfl, rfl⟩ := executes_ret_iff.mp hrest
            exact Or.inl ⟨Or.inr ⟨rfl, hnegative⟩, rfl⟩
        · next hnonnegative =>
            obtain ⟨_, last, failed, between, -, hmigrations, hlast⟩ := executes_bind_iff.mp hrest
            have hleft := List.forall₂_drop db.userVersion.toNat apply
            obtain ⟨after, rfl, hafter⟩ := applies_runMigrations _ hleft hmigrations
            cases failed with
            | some err =>
                obtain ⟨-, rfl, rfl⟩ := executes_ret_iff.mp hlast
                exact Or.inl ⟨Or.inl ⟨_, rfl⟩, rfl⟩
            | none =>
                obtain ⟨committing, _, _, -, answer, hend⟩ := executes_call_iff.mp hlast
                rcases answer with ⟨rfl, rfl⟩ | ⟨⟨err, rfl⟩, rfl⟩
                · obtain ⟨-, rfl, rfl⟩ := executes_ret_iff.mp hend
                  exact Or.inr ⟨rfl, Int.not_lt.mp hnonnegative, Int.not_lt.mp hsupported, hafter rfl⟩
                · obtain ⟨-, rfl, rfl⟩ := executes_ret_iff.mp hend
                  exact Or.inl ⟨Or.inl ⟨_, rfl⟩, rfl⟩
  · obtain ⟨-, rfl, rfl⟩ := executes_ret_iff.mp hrest
    exact Or.inl ⟨Or.inl ⟨_, rfl⟩, rfl⟩

/-- A run of `migrate` leaves the database as it was, or applies what is left of the
migrations; no transaction stays open. -/
theorem executes_migrate {programs : List (Sql (Option String))}
    {changes : List (DatabaseFile → DatabaseFile)} (apply : List.Forall₂ Applies programs changes)
    {db : DatabaseFile} {events : List (Event sql)} {outcome : Outcome} {final : SqlState}
    (run : Executes sqlite (migrate programs) (.idle db) events outcome final) :
    (GivesUp db outcome ∧ final = .idle db) ∨
      (outcome = .done ∧ 0 ≤ db.userVersion ∧ db.userVersion ≤ programs.length ∧
        final = .idle (upgraded changes db)) := by
  obtain ⟨reply, middle, rest, -, answer, hrest⟩ := executes_call_iff.mp run
  rcases answer with ⟨rfl, rfl⟩ | ⟨⟨err, rfl⟩, rfl⟩
  · have hbegun : Executes sqlite (migrateWithin programs >>= fun outcome =>
        exec .rollback >>= fun _ => pure outcome) ⟨db, some db⟩ rest outcome final := hrest
    obtain ⟨_, last, within, between, -, hwithin, hlast⟩ := executes_bind_iff.mp hbegun
    obtain ⟨_, _, _, -, answer, hend⟩ := executes_call_iff.mp hlast
    obtain rfl := answer
    obtain ⟨-, rfl, rfl⟩ := executes_ret_iff.mp hend
    rcases executes_migrateWithin apply hwithin with ⟨hfailed, hcommitted⟩ |
      ⟨hdone, hnonnegative, hsupported, hcommitted⟩
    · exact Or.inl ⟨hfailed, congrArg SqlState.idle hcommitted⟩
    · exact Or.inr ⟨hdone, hnonnegative, hsupported, congrArg SqlState.idle hcommitted⟩
  · obtain ⟨-, rfl, rfl⟩ := executes_ret_iff.mp hrest
    exact Or.inl ⟨Or.inl ⟨_, rfl⟩, rfl⟩

theorem GivesUp.not_done {db : DatabaseFile} (givesUp : GivesUp db .done) : False := by
  rcases givesUp with ⟨err, herr⟩ | ⟨hpanicked, -⟩
  · cases herr
  · cases hpanicked

/-- Only a negative version panics. -/
theorem GivesUp.failed {db : DatabaseFile} {outcome : Outcome} (givesUp : GivesUp db outcome)
    (nonnegative : 0 ≤ db.userVersion) : ∃ err, outcome = .failed err := by
  rcases givesUp with hfailed | ⟨-, hnegative⟩
  · exact hfailed
  · exact absurd nonnegative (Int.not_le.mpr hnegative)

/-! ## Upgrades compose -/

theorem applyFrom_append (front back : List (DatabaseFile → DatabaseFile)) (i : Nat)
    (db : DatabaseFile) :
    applyFrom i (front ++ back) db = applyFrom (i + front.length) back (applyFrom i front db) := by
  induction front generalizing i db with
  | nil => rfl
  | cons effect rest ih =>
      rw [List.cons_append, List.length_cons, ← Nat.add_assoc, Nat.add_right_comm]
      exact ih (i + 1) _

theorem applyFrom_userVersion (changes : List (DatabaseFile → DatabaseFile)) (i : Nat)
    {db : DatabaseFile} (version : db.userVersion = i) :
    (applyFrom i changes db).userVersion = (i + changes.length : Nat) := by
  induction changes generalizing i db with
  | nil => exact version
  | cons effect rest ih =>
      rw [List.length_cons, ← Nat.add_assoc, Nat.add_right_comm]
      exact ih (i + 1) rfl

theorem upgraded_eq (changes : List (DatabaseFile → DatabaseFile)) {db : DatabaseFile} {v : Nat}
    (version : db.userVersion = v) : upgraded changes db = applyFrom v (changes.drop v) db := by
  rw [upgraded, version, Int.toNat_natCast]

theorem upgraded_userVersion (changes : List (DatabaseFile → DatabaseFile)) {db : DatabaseFile}
    {v : Nat} (version : db.userVersion = v) (supported : v ≤ changes.length) :
    (upgraded changes db).userVersion = changes.length := by
  rw [upgraded_eq changes version, applyFrom_userVersion _ v version, List.length_drop,
    Nat.add_sub_cancel' supported]

/-- Upgrading to an earlier release first makes no difference. -/
theorem upgraded_take (changes : List (DatabaseFile → DatabaseFile)) {db : DatabaseFile} {v k : Nat}
    (version : db.userVersion = v) (first : v ≤ k) (second : k ≤ changes.length) :
    upgraded changes (upgraded (changes.take k) db) = upgraded changes db := by
  have hlength : (changes.take k).length = k := List.length_take_of_le second
  have hversion : (upgraded (changes.take k) db).userVersion = k := by
    rw [upgraded_userVersion _ version (hlength.symm ▸ first), hlength]
  have hsplit : changes.drop v = (changes.take k).drop v ++ changes.drop k := by
    conv_lhs => rw [← List.take_append_drop k changes]
    rw [List.drop_append_of_le_length (hlength.symm ▸ first)]
  have hrest : v + ((changes.take k).drop v).length = k := by
    rw [List.length_drop, hlength, Nat.add_sub_cancel' first]
  rw [upgraded_eq changes hversion, upgraded_eq (changes.take k) version, upgraded_eq changes version,
    hsplit, applyFrom_append, hrest]

/-- Successful upgrades by the releases with the first `k` migrations, one after the other. -/
inductive Upgrades : List Nat → DatabaseFile → DatabaseFile → Prop where
  | none (db : DatabaseFile) : Upgrades [] db db
  | release {k : Nat} {later : List Nat} {db middle after : DatabaseFile}
      {events : List (Event sql)} (known : k ≤ migrations.length)
      (run : Executes sqlite (migrate (migrations.take k)) (.idle db) events .done (.idle middle))
      (rest : Upgrades later middle after) : Upgrades (k :: later) db after

theorem Upgrades.upgraded_eq {releases : List Nat} {db after : DatabaseFile}
    (upgrades : Upgrades releases db after) : upgraded effects after = upgraded effects db := by
  induction upgrades with
  | none db => rfl
  | @release k later db middle after events known run rest ih =>
      have hlength : migrations.length = effects.length := migrations_apply.length_eq
      rcases executes_migrate (List.forall₂_take k migrations_apply) run with
        ⟨hfailed, -⟩ | ⟨-, hnonnegative, hsupported, hfinal⟩
      · exact hfailed.not_done.elim
      · obtain ⟨v, hv⟩ := Int.eq_ofNat_of_zero_le hnonnegative
        rw [hv, List.length_take_of_le known] at hsupported
        obtain rfl : middle = _ := congrArg SqlState.committed hfinal
        rw [ih]
        exact upgraded_take effects hv (Int.ofNat_le.mp hsupported) (hlength ▸ known)

/-! ## What is kept and what is added -/

/-- The name of a column of the current schema. -/
def Column.sqlName : Column → String
  | .id => "id"
  | .name => "name"
  | .host => "host"
  | .port => "port"
  | .username => "username"
  | .privateKey => "private_key"
  | .description => "description"
  | .groupName => "group_name"
  | .jumpServerId => "jump_server_id"
  | .createdAt => "created_at"
  | .updatedAt => "updated_at"
  | .authType => "auth_type"
  | .password => "password"
  | .hostKey => "host_key"
  | .protocol => "protocol"
  | .rdpDomain => "rdp_domain"
  | .rdpCertFingerprint => "rdp_cert_fingerprint"

/-- The columns of every release. -/
def baseNames : List String :=
  ["id", "name", "host", "port", "username", "private_key", "description", "created_at",
    "updated_at"]

def AddedColumn.declared (column : AddedColumn) : ColumnDef :=
  ⟨column.name, column.definition, .cell column.default⟩

/-- Columns of the migrations come after the old ones, and every row keeps its cells and
takes the declared defaults after them. -/
def Extended (old new : Relation) : Prop :=
  ∃ added : List AddedColumn, (∀ column ∈ added, column ∈ introduced.flatten) ∧
    new.columns = old.columns ++ added.map AddedColumn.declared ∧
    new.rows = old.rows.map fun row => row ++ added.map AddedColumn.default

theorem Extended.refl (relation : Relation) : Extended relation relation :=
  ⟨[], nofun, (List.append_nil _).symm, by simp⟩

theorem Extended.trans {first second third : Relation} (left : Extended first second)
    (right : Extended second third) : Extended first third := by
  obtain ⟨before, hbefore, hcolumns, hrows⟩ := left
  obtain ⟨after, hafter, hcolumns', hrows'⟩ := right
  refine ⟨before ++ after, ?_, ?_, ?_⟩
  · intro column hcolumn
    rcases List.mem_append.mp hcolumn with hold | hnew
    · exact hbefore column hold
    · exact hafter column hnew
  · rw [hcolumns', hcolumns, List.map_append, List.append_assoc]
  · rw [hrows', hrows, List.map_map, List.map_append]
    refine List.map_congr_left fun row _ => ?_
    exact List.append_assoc _ _ _

theorem Extended.names {old new : Relation} (extended : Extended old new) {name : String}
    (present : name ∈ old.names) : name ∈ new.names := by
  obtain ⟨added, -, hcolumns, -⟩ := extended
  rw [Relation.names, hcolumns, List.map_append]
  exact List.mem_append_left _ present

/-- `addServerColumn` on the relation alone. -/
def Relation.withColumn (relation : Relation) (column : AddedColumn) : Relation :=
  if fresh : column.name ∉ relation.names then
    relation.addColumn column.name column.definition column.default fresh
  else relation

theorem Relation.mem_withColumn (relation : Relation) (column : AddedColumn) :
    column.name ∈ (relation.withColumn column).names := by
  unfold Relation.withColumn
  split
  · rw [Relation.names, Relation.addColumn, List.map_append]
    exact List.mem_append_right _ (List.mem_singleton_self _)
  · next hfound => exact not_not.mp hfound

theorem Relation.extended_withColumn (relation : Relation) {column : AddedColumn}
    (known : column ∈ introduced.flatten) : Extended relation (relation.withColumn column) := by
  unfold Relation.withColumn
  split
  · refine ⟨[column], ?_, rfl, rfl⟩
    intro other hother
    obtain rfl := List.mem_singleton.mp hother
    exact known
  · exact .refl relation

theorem Relation.extended_withColumns (relation : Relation) {columns : List AddedColumn}
    (known : ∀ column ∈ columns, column ∈ introduced.flatten) :
    Extended relation (columns.foldl .withColumn relation) ∧
      ∀ column ∈ columns, column.name ∈ (columns.foldl .withColumn relation).names := by
  induction columns generalizing relation with
  | nil => exact ⟨.refl relation, nofun⟩
  | cons column rest ih =>
      have hfirst := relation.extended_withColumn (known column List.mem_cons_self)
      obtain ⟨hrest, hnames⟩ := ih (relation.withColumn column) fun other hother =>
        known other (List.mem_cons_of_mem _ hother)
      refine ⟨hfirst.trans hrest, fun other hother => ?_⟩
      rcases List.mem_cons.mp hother with rfl | htail
      · exact hrest.names (relation.mem_withColumn other)
      · exact hnames other htail

namespace DatabaseFile

theorem tables_withColumn (db : DatabaseFile) (column : AddedColumn) {relation : Relation}
    (present : db.tables "servers" = some relation) :
    (db.withColumn column).tables "servers" = some (relation.withColumn column) := by
  unfold DatabaseFile.withColumn Relation.withColumn
  rw [present]
  dsimp only
  split
  · exact Function.update_self "servers" _ db.tables
  · exact present

theorem tables_withColumns (db : DatabaseFile) (columns : List AddedColumn) {relation : Relation}
    (present : db.tables "servers" = some relation) :
    (columns.foldl withColumn db).tables "servers" = some (columns.foldl .withColumn relation) := by
  induction columns generalizing db relation with
  | nil => exact present
  | cons column rest ih => exact ih _ (db.tables_withColumn column present)

theorem tables_withColumns_of_ne (db : DatabaseFile) (columns : List AddedColumn) {name : String}
    (other : name ≠ "servers") : (columns.foldl withColumn db).tables name = db.tables name := by
  induction columns generalizing db with
  | nil => rfl
  | cons column rest ih =>
      rw [List.foldl_cons, ih]
      unfold DatabaseFile.withColumn
      split
      · rfl
      · split
        · exact Function.update_of_ne other _ _
        · rfl

theorem tables_withTable_of_some (db : DatabaseFile) (table : String × List ColumnDef)
    {name : String} {relation : Relation} (present : db.tables name = some relation) :
    (db.withTable table).tables name = some relation := by
  unfold DatabaseFile.withTable
  split
  · exact present
  · next habsent =>
      have hother : name ≠ table.1 := by
        rintro rfl
        rw [present] at habsent
        cases habsent
      split
      · exact (Function.update_of_ne hother _ _).trans present
      · exact present

theorem tables_withTable_of_ne (db : DatabaseFile) (table : String × List ColumnDef)
    {name : String} (other : name ≠ table.1) : (db.withTable table).tables name = db.tables name := by
  unfold DatabaseFile.withTable
  split
  · rfl
  · split
    · exact Function.update_of_ne other _ _
    · rfl

theorem tables_withTable_of_none (db : DatabaseFile) (table : String × List ColumnDef)
    (distinct : (table.2.map ColumnDef.name).Nodup) (absent : db.tables table.1 = none) :
    (db.withTable table).tables table.1 = some (.created table.2 distinct) := by
  unfold DatabaseFile.withTable
  rw [absent]
  dsimp only
  rw [dif_pos distinct]
  exact Function.update_self table.1 _ db.tables

theorem tables_withTables_of_some (db : DatabaseFile) (tables : List (String × List ColumnDef))
    {name : String} {relation : Relation} (present : db.tables name = some relation) :
    (tables.foldl withTable db).tables name = some relation := by
  induction tables generalizing db with
  | nil => exact present
  | cons table rest ih => exact ih _ (db.tables_withTable_of_some table present)

theorem tables_withTables_of_notMem (db : DatabaseFile) (tables : List (String × List ColumnDef))
    {name : String} (other : name ∉ tables.map Prod.fst) :
    (tables.foldl withTable db).tables name = db.tables name := by
  induction tables generalizing db with
  | nil => rfl
  | cons table rest ih =>
      rw [List.map_cons, List.mem_cons, not_or] at other
      rw [List.foldl_cons, ih _ other.2, db.tables_withTable_of_ne table other.1]

/-- The first release of all: `migrationsSQL` makes the servers table without a row. -/
theorem servers_created (db : DatabaseFile) (absent : db.tables "servers" = none) :
    ∃ relation, (migrationsSQL.foldl withTable db).tables "servers" = some relation ∧
      relation.columns = serversColumns ∧ relation.rows = [] := by
  have hdistinct : (serversColumns.map ColumnDef.name).Nodup := by decide
  have husers : (db.withTable ("users", usersColumns)).tables "servers" = none := by
    rw [tables_withTable_of_ne _ _ (by decide), absent]
  have hservers := tables_withTable_of_none _ ("servers", serversColumns) hdistinct husers
  exact ⟨_, tables_withTable_of_some _ _ hservers, rfl, rfl⟩

end DatabaseFile

/-- A database that some path of releases may have left at version `v`: its servers table
has the columns of every release and those of the first `v` migrations, or it is absent
before the first. -/
def Admissible (v : Nat) (db : DatabaseFile) : Prop :=
  (v = 0 ∧ db.tables "servers" = none) ∨
    ∃ relation, db.tables "servers" = some relation ∧ (∀ name ∈ baseNames, name ∈ relation.names) ∧
      ∀ column ∈ (introduced.take v).flatten, column.name ∈ relation.names

/-- No cell is lost, and nothing but declared columns comes in. -/
structure Preserved (db after : DatabaseFile) : Prop where
  servers : ∀ relation, db.tables "servers" = some relation →
    ∃ larger, after.tables "servers" = some larger ∧ Extended relation larger
  created : db.tables "servers" = none → ∀ relation, after.tables "servers" = some relation →
    relation.rows = []
  kept : ∀ name relation, name ≠ "servers" → db.tables name = some relation →
    after.tables name = some relation
  others : ∀ name, name ∉ migrationsSQL.map Prod.fst → after.tables name = db.tables name

theorem Preserved.refl (db : DatabaseFile) : Preserved db db where
  servers := fun relation present => ⟨relation, present, .refl relation⟩
  created := fun absent relation present => by
    rw [absent] at present
    cases present
  kept := fun _ _ _ present => present
  others := fun _ _ => rfl

theorem Preserved.trans {first second third : DatabaseFile} (left : Preserved first second)
    (right : Preserved second third) : Preserved first third where
  servers := by
    intro relation present
    obtain ⟨middle, hmiddle, hleft⟩ := left.servers relation present
    obtain ⟨larger, hlarger, hright⟩ := right.servers middle hmiddle
    exact ⟨larger, hlarger, hleft.trans hright⟩
  created := by
    intro absent relation present
    cases hmiddle : second.tables "servers" with
    | none => exact right.created hmiddle relation present
    | some middle =>
        obtain ⟨larger, hlarger, added, -, -, hrows⟩ := right.servers middle hmiddle
        obtain rfl := Option.some.inj (present.symm.trans hlarger)
        rw [hrows, left.created absent middle hmiddle]
        rfl
  kept := fun name relation other present =>
    right.kept name relation other (left.kept name relation other present)
  others := fun name unknown => (right.others name unknown).trans (left.others name unknown)

theorem preserved_withColumns (db : DatabaseFile) {columns : List AddedColumn}
    (known : ∀ column ∈ columns, column ∈ introduced.flatten) {version : Int} :
    Preserved db { columns.foldl DatabaseFile.withColumn db with userVersion := version } where
  servers := fun relation present =>
    ⟨_, db.tables_withColumns columns present, (relation.extended_withColumns known).1⟩
  created := by
    intro absent relation present
    have hnothing : columns.foldl DatabaseFile.withColumn db = db := by
      clear known present
      induction columns with
      | nil => rfl
      | cons column rest ih =>
          have hfirst : db.withColumn column = db := by
            unfold DatabaseFile.withColumn
            rw [absent]
          rw [List.foldl_cons, hfirst, ih]
    rw [hnothing] at present
    change db.tables "servers" = some relation at present
    rw [absent] at present
    cases present
  kept := by
    intro name relation other present
    exact (db.tables_withColumns_of_ne columns other).trans present
  others := by
    intro name unknown
    refine db.tables_withColumns_of_ne columns ?_
    rintro rfl
    exact unknown (by decide)

theorem preserved_withTables (db : DatabaseFile) :
    Preserved db (migrationsSQL.foldl .withTable db) where
  servers := fun relation present =>
    ⟨relation, db.tables_withTables_of_some migrationsSQL present, .refl relation⟩
  created := by
    intro absent relation present
    obtain ⟨made, hmade, -, hrows⟩ := db.servers_created absent
    obtain rfl := Option.some.inj (present.symm.trans hmade)
    exact hrows
  kept := fun _ _ _ present => db.tables_withTables_of_some migrationsSQL present
  others := fun _ unknown => db.tables_withTables_of_notMem migrationsSQL unknown

/-- One migration takes an admissible database to the next version. -/
theorem admissible_withColumns {v : Nat} {db : DatabaseFile} {columns : List AddedColumn}
    {relation : Relation} {version : Int} (present : db.tables "servers" = some relation)
    (known : ∀ column ∈ columns, column ∈ introduced.flatten)
    (base : ∀ name ∈ baseNames, name ∈ relation.names)
    (before : ∀ column ∈ (introduced.take v).flatten, column.name ∈ relation.names)
    (next : (introduced.take (v + 1)).flatten = (introduced.take v).flatten ++ columns) :
    Admissible (v + 1) { columns.foldl DatabaseFile.withColumn db with userVersion := version } := by
  obtain ⟨hextended, hnames⟩ := relation.extended_withColumns known
  refine Or.inr ⟨_, db.tables_withColumns columns present, ?_, ?_⟩
  · intro name hname
    exact hextended.names (base name hname)
  · intro column hcolumn
    rw [next] at hcolumn
    rcases List.mem_append.mp hcolumn with hold | hnew
    · exact hextended.names (before column hold)
    · exact hnames column hnew

theorem known_of_introduced (columns : List AddedColumn) (mem : columns ∈ introduced) :
    ∀ column ∈ columns, column ∈ introduced.flatten :=
  fun _ hcolumn => List.mem_flatten_of_mem mem hcolumn

theorem effects_step {v : Nat} {db : DatabaseFile} {effect : DatabaseFile → DatabaseFile}
    (mem : effects[v]? = some effect) (admissible : Admissible v db) (version : Int) :
    Admissible (v + 1) { effect db with userVersion := version } ∧
      Preserved db { effect db with userVersion := version } := by
  match v, mem with
  | 0, mem =>
      obtain rfl := Option.some.inj mem
      have hknown := known_of_introduced legacyColumns List.mem_cons_self
      refine ⟨?_, (preserved_withTables db).trans (preserved_withColumns _ hknown)⟩
      rcases admissible with ⟨-, habsent⟩ | ⟨relation, hpresent, hbase, -⟩
      · obtain ⟨relation, hmade, hcolumns, -⟩ := db.servers_created habsent
        refine admissible_withColumns hmade hknown ?_ nofun rfl
        rw [Relation.names, hcolumns]
        decide
      · have hkept := db.tables_withTables_of_some migrationsSQL hpresent
        exact admissible_withColumns hkept hknown hbase nofun rfl
  | 1, mem =>
      obtain rfl := Option.some.inj mem
      have hknown := known_of_introduced [hostKeyColumn]
        (List.mem_cons_of_mem _ List.mem_cons_self)
      refine ⟨?_, preserved_withColumns db hknown⟩
      rcases admissible with ⟨hzero, -⟩ | ⟨relation, hpresent, hbase, hbefore⟩
      · cases hzero
      · exact admissible_withColumns hpresent hknown hbase hbefore rfl
  | 2, mem =>
      obtain rfl := Option.some.inj mem
      have hknown := known_of_introduced rdpColumns
        (List.mem_cons_of_mem _ (List.mem_cons_of_mem _ List.mem_cons_self))
      refine ⟨?_, preserved_withColumns db hknown⟩
      rcases admissible with ⟨hzero, -⟩ | ⟨relation, hpresent, hbase, hbefore⟩
      · cases hzero
      · exact admissible_withColumns hpresent hknown hbase hbefore rfl

theorem applyFrom_spec (v : Nat) {db : DatabaseFile} {changes : List (DatabaseFile → DatabaseFile)}
    (left : effects.drop v = changes) (supported : v ≤ effects.length)
    (admissible : Admissible v db) :
    Admissible effects.length (applyFrom v changes db) ∧ Preserved db (applyFrom v changes db) := by
  induction changes generalizing v db with
  | nil =>
      have hlast : v = effects.length :=
        Nat.le_antisymm supported (List.drop_eq_nil_iff.mp left)
      exact ⟨hlast ▸ admissible, .refl db⟩
  | cons effect rest ih =>
      have hmem : effects[v]? = some effect := by
        rw [← Nat.add_zero v, ← List.getElem?_drop, left]
        rfl
      obtain ⟨hnext, hpreserved⟩ := effects_step hmem admissible (v + 1 : Nat)
      have hlt : v < effects.length := (List.getElem?_eq_some_iff.mp hmem).1
      have hrest : effects.drop (v + 1) = rest := by
        rw [← List.drop_drop, left]
        rfl
      obtain ⟨hlast, hkept⟩ := ih (v + 1) hrest hlt hnext
      exact ⟨hlast, hpreserved.trans hkept⟩

/-- The current schema: version and columns. -/
def Current (db : DatabaseFile) : Prop :=
  db.userVersion = migrations.length ∧ ∃ relation, db.tables "servers" = some relation ∧
    ∀ column : Column, relation.names.count column.sqlName = 1

theorem current_of_admissible {db : DatabaseFile} (version : db.userVersion = migrations.length)
    (admissible : Admissible migrations.length db) : Current db := by
  rcases admissible with ⟨hzero, -⟩ | ⟨relation, hpresent, hbase, hadded⟩
  · cases hzero
  · refine ⟨version, relation, hpresent, fun column => ?_⟩
    refine List.count_eq_one_of_mem relation.distinct ?_
    have hknown : column.sqlName ∈ baseNames ∨
        column.sqlName ∈ (introduced.take migrations.length).flatten.map AddedColumn.name := by
      cases column <;> decide
    rcases hknown with hname | hname
    · exact hbase _ hname
    · obtain ⟨added, hmem, hsame⟩ := List.mem_map.mp hname
      rw [← hsame]
      exact hadded added hmem

/--
The migrations converge and preserve data.  From any database of a known version a run
of `migrate` leaves the database as it was, or it reaches the current schema with every
cell kept and every added column at its default; then another run changes nothing, and
no path through earlier releases reaches anything else.  A newer version is refused.
-/
theorem migrate_converges {db : DatabaseFile} {events : List (Event sql)} {outcome : Outcome}
    {final : SqlState} (run : Executes sqlite (migrate migrations) (.idle db) events outcome final) :
    (∀ v : Nat, db.userVersion = v → v ≤ migrations.length → Admissible v db →
      ((∃ err, outcome = .failed err) ∧ final = .idle db) ∨
      (outcome = .done ∧ ∃ after, final = .idle after ∧ Current after ∧ Preserved db after ∧
        (∀ {events outcome last}, Executes sqlite (migrate migrations) (.idle after) events outcome
          last → last = .idle after) ∧
        ∀ {releases middle events last}, Upgrades releases db middle →
          Executes sqlite (migrate migrations) (.idle middle) events .done last →
            last = .idle after)) ∧
    (db.userVersion > migrations.length → (∃ err, outcome = .failed err) ∧ final = .idle db) := by
  have hspec := executes_migrate migrations_apply run
  have hlength : migrations.length = effects.length := migrations_apply.length_eq
  refine ⟨?_, ?_⟩
  · intro v version supported admissible
    rcases hspec with ⟨hfailed, hsame⟩ | ⟨hdone, -, -, hfinal⟩
    · exact Or.inl ⟨hfailed.failed (version ▸ Int.natCast_nonneg v), hsame⟩
    · obtain ⟨hlast, hpreserved⟩ := applyFrom_spec v rfl (hlength ▸ supported) admissible
      rw [← upgraded_eq effects version] at hlast hpreserved
      have hversion := upgraded_userVersion effects version (hlength ▸ supported)
      rw [← hlength] at hlast hversion
      refine Or.inr ⟨hdone, _, hfinal, current_of_admissible hversion hlast, hpreserved, ?_, ?_⟩
      · intro events outcome last again
        rcases executes_migrate migrations_apply again with ⟨-, hsame⟩ | ⟨-, -, -, hsame⟩
        · exact hsame
        · rw [hsame, upgraded_eq effects hversion, hlength, List.drop_length]
          rfl
      · intro releases middle events last upgrades again
        rcases executes_migrate migrations_apply again with ⟨hfailed, -⟩ | ⟨-, -, -, hsame⟩
        · exact hfailed.not_done.elim
        · rw [hsame, upgrades.upgraded_eq]
  · intro newer
    rcases hspec with ⟨hfailed, hsame⟩ | ⟨-, -, hsupported, -⟩
    · exact ⟨hfailed.failed (by omega), hsame⟩
    · exact absurd hsupported (Int.not_le.mpr newer)

/-! ## A database without failures -/

instance (relation : Relation) (name : String) : Decidable (relation.Free name) := by
  unfold Relation.Free
  infer_instance

/-- A statement that can succeed does. -/
def reliableSqlite (state : SqlState) : (command : SqlCommand) → command.Reply × SqlState
  | .begin => (.ok (), ⟨state.committed, some state.committed⟩)
  | .userVersion => (.ok state.current.userVersion, state)
  | .setUserVersion version => (.ok (), state.write { state.current with userVersion := version })
  | .createTable name columns =>
      match state.current.tables name with
      | some _ => (.ok (), state)
      | none =>
          if distinct : (columns.map ColumnDef.name).Nodup then
            (.ok (), state.write (state.current.setTable name (.created columns distinct)))
          else (.error "duplicate column name", state)
  | .tableInfo => (.ok ⟨state.current.serverNames.map .ok, none⟩, state)
  | .addColumn name definition default =>
      match state.current.tables "servers" with
      | none => (.error "no such table: servers", state)
      | some relation =>
          if free : relation.Free name then
            (.ok (), state.write (state.current.setTable "servers"
              (relation.addColumn name definition default free.fresh)))
          else (.error "duplicate column name", state)
  | .commit => (.ok (), .idle state.current)
  | .rollback => ((), .idle state.committed)

theorem reliableSqlite_answers (state : SqlState) (command : SqlCommand) :
    sqlite state command (reliableSqlite state command).1 (reliableSqlite state command).2 := by
  cases command with
  | begin => exact Or.inl ⟨rfl, rfl⟩
  | userVersion => exact ⟨rfl, Or.inl rfl⟩
  | setUserVersion version => exact Or.inl ⟨rfl, rfl⟩
  | createTable name columns =>
      dsimp only [reliableSqlite]
      split
      · next relation hpresent => exact Or.inl ⟨rfl, Or.inl ⟨relation, hpresent, rfl⟩⟩
      · next habsent =>
          split
          · next distinct => exact Or.inl ⟨rfl, Or.inr ⟨distinct, habsent, rfl⟩⟩
          · exact Or.inr ⟨⟨_, rfl⟩, rfl⟩
  | tableInfo => exact ⟨rfl, Or.inl ⟨_, rfl, Or.inl rfl⟩⟩
  | addColumn name definition default =>
      dsimp only [reliableSqlite]
      split
      · exact Or.inr ⟨⟨_, rfl⟩, rfl⟩
      · next relation hpresent =>
          split
          · next free => exact Or.inl ⟨relation, free, rfl, hpresent, rfl⟩
          · exact Or.inr ⟨⟨_, rfl⟩, rfl⟩
  | commit => exact Or.inl ⟨rfl, rfl⟩
  | rollback => rfl

/-- An unversioned database of a release that already had two of the later columns. -/
def legacyFile : DatabaseFile where
  userVersion := 0
  tables := fun name =>
    if name = "servers" then
      some ⟨serversColumns ++ [⟨"auth_type", "TEXT NOT NULL DEFAULT 'key'", .cell (.text "key")⟩],
        [[.integer 1, .text "old", .text "host", .integer 22, .text "root", .text "", .null,
          .text "", .null, .text "2024-01-01", .text "2024-01-01", .text "password"]],
        by decide, by decide⟩
    else none

theorem migrate_converges_legacyFile :
    ∃ events after, Executes sqlite (migrate migrations) (.idle legacyFile) events .done
      (.idle after) ∧ Current after ∧ Preserved legacyFile after := by
  have run := executes_run reliableSqlite_answers (migrate migrations) (.idle legacyFile)
  have hdone : (Program.run reliableSqlite (migrate migrations) (.idle legacyFile)).2.1 = .done := by
    decide +kernel
  rw [hdone] at run
  have hadmissible : Admissible 0 legacyFile := by
    refine Or.inr ⟨_, rfl, ?_, nofun⟩
    decide
  rcases (migrate_converges run).1 0 rfl (Nat.zero_le _) hadmissible with
    ⟨⟨err, hfailed⟩, -⟩ | ⟨-, after, hfinal, hcurrent, hpreserved, -, -⟩
  · cases hfailed
  · rw [hfinal] at run
    exact ⟨_, after, run, hcurrent, hpreserved⟩

end OpsUp.Database
