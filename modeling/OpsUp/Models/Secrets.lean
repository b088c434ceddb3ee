import Mathlib.Data.List.Forall2
import OpsUp.Interaction.TwoRuns
import OpsUp.Models.Server

/-!
# Records that differ in their secrets only

Two tables are alike when they agree in everything but the contents of non-empty
private keys and passwords.  Whether a secret is empty, and whether a password is
`NULL`, stays visible.  The model functions issue the same kind of statement on
alike tables, read alike records back and leave alike tables behind.
-/

namespace OpsUp.Database

open OpsUp.Storage

/-- One secret is empty exactly when the other is. -/
def SameSecret (first second : String) : Prop := first = "" ↔ second = ""

/-- Two rows that differ in the contents of their credentials only. -/
inductive Row.Alike (row : Row) : Row → Prop where
  | intro {privateKey : String} {password : Option String}
      (sameKey : SameSecret row.privateKey privateKey)
      (samePassword : Option.Rel SameSecret row.password password) :
      Row.Alike row { row with privateKey := privateKey, password := password }

/-- A row without its credentials. -/
def Row.shown (row : Row) : Row := { row with privateKey := "", password := none }

namespace Row.Alike

variable {first second : Row}

theorem rowId_eq (alike : first.Alike second) : rowId first = rowId second := by
  cases alike
  rfl

theorem shown_eq (alike : first.Alike second) : first.shown = second.shown := by
  cases alike
  rfl

theorem withId (alike : first.Alike second) (id : Int) :
    (Keyed.withId id first).Alike (Keyed.withId id second) := by
  cases alike with
  | intro sameKey samePassword => exact .intro sameKey samePassword

end Row.Alike

/-- The same rows up to credentials, in the same order, and the same next key. -/
structure TablesAlike (first second : ServersTable) : Prop where
  rows : List.Forall₂ Row.Alike first.rows second.rows
  sequence : first.sequence = second.sequence

namespace TablesAlike

variable {first second : ServersTable}

private theorem find?_alike {id : Int} {rows others : List Row}
    (alike : List.Forall₂ Row.Alike rows others) :
    Option.Rel Row.Alike (rows.find? fun row => rowId row = id)
      (others.find? fun row => rowId row = id) := by
  induction alike with
  | nil => exact .none
  | @cons head other _ _ hhead _ ih =>
      have hid : rowId head = rowId other := hhead.rowId_eq
      rw [List.find?_cons, List.find?_cons, hid]
      split
      · exact .some hhead
      · exact ih

theorem find (alike : TablesAlike first second) (id : Int) :
    Option.Rel Row.Alike (first.find id) (second.find id) :=
  find?_alike alike.rows

theorem insert (alike : TablesAlike first second) {row other : Row} (rows : row.Alike other) :
    TablesAlike (first.insert row) (second.insert other) := by
  constructor
  · apply List.rel_append alike.rows
    rw [alike.sequence]
    exact .cons (rows.withId _) .nil
  · rw [Table.insert_sequence, Table.insert_sequence, alike.sequence]

theorem update (alike : TablesAlike first second) (id : Int) {change other : Row → Row}
    (changes : ∀ {before after : Row}, before.Alike after →
      (change before).Alike (other after)) :
    TablesAlike (first.update id change) (second.update id other) := by
  constructor
  · apply List.rel_map _ alike.rows
    intro before after hrow
    simp only [hrow.rowId_eq]
    split
    · exact (changes hrow).withId id
    · exact hrow
  · exact alike.sequence

theorem delete (alike : TablesAlike first second) (id : Int) :
    TablesAlike (first.delete id) (second.delete id) := by
  constructor
  · apply List.rel_filter _ alike.rows
    intro before after hrow
    simp only [hrow.rowId_eq]
  · exact alike.sequence

theorem map_shown (alike : TablesAlike first second) :
    first.rows.map Row.shown = second.rows.map Row.shown := by
  rw [← List.forall₂_eq_eq_eq, List.forall₂_map_left_iff, List.forall₂_map_right_iff]
  exact alike.rows.imp fun _ _ hrow => hrow.shown_eq

end TablesAlike

end OpsUp.Database

namespace OpsUp.Models

open OpsUp.Database OpsUp.Interaction OpsUp.Storage

/-- Two records that differ in the contents of their credentials only. -/
inductive Server.Alike (server : Server) : Server → Prop where
  | intro {privateKey password : String} (sameKey : SameSecret server.privateKey privateKey)
      (samePassword : SameSecret server.password password) :
      Server.Alike server { server with privateKey := privateKey, password := password }

/-- The same error, or related values. -/
inductive SameOutcome {α β : Type} (related : α → β → Prop) :
    Except String α → Except String β → Prop where
  | error (text : String) : SameOutcome related (.error text) (.error text)
  | ok {first : α} {second : β} (values : related first second) :
      SameOutcome related (.ok first) (.ok second)

theorem SameOutcome.map {α β γ δ : Type} {related : α → β → Prop} {observed : γ → δ → Prop}
    {first : Except String α} {second : Except String β}
    (outcomes : SameOutcome related first second) {change : α → γ} {other : β → δ}
    (changes : ∀ left right, related left right → observed (change left) (other right)) :
    SameOutcome observed (first.map change) (second.map other) := by
  cases outcomes with
  | error text => exact .error text
  | ok values => exact .ok (changes _ _ values)

namespace Server.Alike

variable {first second : Server}

theorem toListItem_eq (alike : first.Alike second) : first.toListItem = second.toListItem := by
  cases alike
  rfl

theorem withProtocol (alike : first.Alike second) :
    first.withProtocol.Alike second.withProtocol := by
  cases alike with
  | intro sameKey samePassword =>
      unfold Server.withProtocol
      split
      · exact .intro sameKey samePassword
      · exact .intro sameKey samePassword

theorem id_eq (alike : first.Alike second) : first.id = second.id := by
  cases alike
  rfl

theorem withId (alike : first.Alike second) (id : Int) :
    Server.Alike { first with id := id } { second with id := id } := by
  cases alike with
  | intro sameKey samePassword => exact .intro sameKey samePassword

theorem overwrite (alike : first.Alike second) {row other : Row} (rows : row.Alike other) :
    (overwrite row first).Alike (Models.overwrite other second) := by
  cases alike with
  | intro sameKey samePassword =>
      cases rows
      exact .intro sameKey (.some samePassword)

theorem updatedRow (alike : first.Alike second) (now : String) {row other : Row}
    (rows : row.Alike other) :
    (updatedRow first now row).Alike (Models.updatedRow second now other) := by
  cases alike with
  | intro sameKey samePassword =>
      cases rows
      exact .intro sameKey (.some samePassword)

end Server.Alike

theorem scanRow_alike {row other : Row} (rows : row.Alike other) :
    SameOutcome Server.Alike (scanRow row) (scanRow other) := by
  cases rows with
  | intro sameKey samePassword =>
      unfold scanRow
      generalize row.password = stored at samePassword
      cases row.description with
      | none => cases samePassword <;> exact .error _
      | some description =>
          cases row.groupName with
          | none => cases samePassword <;> exact .error _
          | some group =>
              cases samePassword with
              | none => exact .error _
              | some samePassword => exact .ok (.intro sameKey samePassword)

theorem readServer_alike {first second : ServersTable} (tables : TablesAlike first second)
    (id : Int) :
    SameOutcome (Option.Rel Server.Alike) (readServer first id) (readServer second id) := by
  have hfind := tables.find id
  unfold readServer
  generalize first.find id = row at hfind
  generalize second.find id = other at hfind
  cases hfind with
  | none => exact .ok .none
  | some rows => exact (scanRow_alike rows).map fun _ _ servers => .some servers

/-- The columns of a listing show nothing of the credentials. -/
theorem selectServers_alike {first second : ServersTable} (tables : TablesAlike first second) :
    (first.rows.mergeSort listOrder).map (fun row => row.values listServersColumns) =
      (second.rows.mergeSort listOrder).map fun row => row.values listServersColumns := by
  have hshown : ∀ table : ServersTable,
      (table.rows.mergeSort listOrder).map (fun row => row.values listServersColumns) =
        ((table.rows.map Row.shown).mergeSort listOrder).map
          fun row => row.values listServersColumns := by
    intro table
    have hsorted : (table.rows.mergeSort listOrder).map Row.shown =
        (table.rows.map Row.shown).mergeSort listOrder :=
      List.map_mergeSort fun _ _ _ _ => rfl
    rw [← hsorted, List.map_map]
    rfl
  rw [hshown first, hshown second, tables.map_shown]

/-! ## The model functions on alike tables -/

/-- The database with a clock that names the time of each statement. -/
def ticking (clock : Nat → String) (state : Nat × ServersTable) (statement : Statement) :
    Except String statement.Answer × (Nat × ServersTable) :=
  let performed := perform (clock state.1) state.2 statement
  (performed.1, state.1 + 1, performed.2)

/-- Every run against the clock is a run on the database. -/
theorem executes_ticking {α : Type} (clock : Nat → String) (mayFail : Prop) (program : DB α)
    (state : Nat × ServersTable) :
    Program.Executes (servers mayFail) program state.2 (program.run (ticking clock) state).1
      (program.result (ticking clock) state) (program.final (ticking clock) state).2 :=
  Program.executes_result (ticking clock) Prod.snd (fun state _ => Or.inl ⟨clock state.1, rfl⟩)
    program state

/-- After as many statements, alike tables. -/
structure StatesAlike (first second : Nat × ServersTable) : Prop where
  ticks : first.1 = second.1
  tables : TablesAlike first.2 second.2

/-- Programs that return related values on alike tables. -/
abbrev RunAlike {α β : Type} (clock : Nat → String) (related : α → β → Prop)
    (first : DB α) (second : DB β) : Prop :=
  Program.RunAlike (ticking clock) StatesAlike related first second

variable {clock : Nat → String}

theorem getServer_runAlike (id : Int) :
    RunAlike clock (SameOutcome (Option.Rel Server.Alike)) (getServer id) (getServer id) := by
  intro left right states
  constructor
  · have hread := readServer_alike states.tables id
    rw [← scanSelected_eq, ← scanSelected_eq] at hread
    exact hread
  · exact ⟨congrArg Nat.succ states.ticks, states.tables⟩

theorem listServers_runAlike : RunAlike clock Eq listServers listServers := by
  intro left right states
  constructor
  · exact congrArg scanListedServers (selectServers_alike states.tables)
  · exact ⟨congrArg Nat.succ states.ticks, states.tables⟩

theorem createServer_runAlike {first second : Server} (servers : first.Alike second) :
    RunAlike clock (SameOutcome Server.Alike) (createServer first) (createServer second) := by
  intro left right states
  have hservers := servers.withProtocol
  simp only [createServer, Program.result_call, Program.final_call, ticking, perform,
    assignAll_insertValues, Program.result_ret, Program.final_ret]
  constructor
  · rw [states.tables.sequence]
    exact .ok (hservers.withId _)
  · constructor
    · exact congrArg Nat.succ states.ticks
    · rw [states.ticks]
      exact states.tables.insert (hservers.overwrite (.intro Iff.rfl (.some Iff.rfl)))

theorem updateServer_runAlike {first second : Server} (servers : first.Alike second) :
    RunAlike clock (SameOutcome Server.Alike) (updateServer first) (updateServer second) := by
  intro left right states
  have hservers := servers.withProtocol
  simp only [updateServer, Program.result_call, Program.final_call, ticking, perform_update,
    Program.result_ret, Program.final_ret]
  constructor
  · exact .ok hservers
  · constructor
    · exact congrArg Nat.succ states.ticks
    · rw [states.ticks, hservers.id_eq]
      exact states.tables.update _ (hservers.updatedRow _)

theorem deleteServer_runAlike (id : Int) :
    RunAlike clock (SameOutcome Eq) (deleteServer id) (deleteServer id) := by
  intro left right states
  constructor
  · exact .ok rfl
  · exact ⟨congrArg Nat.succ states.ticks, states.tables.delete id⟩

end OpsUp.Models
