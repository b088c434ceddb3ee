import Mathlib.Data.List.Nodup
import Mathlib.Tactic.Common

/-!
# Tables with an integer primary key

A table is a list of rows with pairwise distinct keys, together with the last key
it has handed out.  Both facts are fields, so every operation below proves once
that it keeps them: an inserted row always receives a key above every key the
table has ever used, which is what `AUTOINCREMENT` promises.
-/

namespace OpsUp.Storage

/-- Rows that carry their primary key. -/
class Keyed (ρ : Type) where
  rowId : ρ → Int
  withId : Int → ρ → ρ
  rowId_withId : ∀ id row, rowId (withId id row) = id
  withId_rowId : ∀ row, withId (rowId row) row = row

export Keyed (rowId withId)

attribute [simp] Keyed.rowId_withId Keyed.withId_rowId

@[ext]
structure Table (ρ : Type) [Keyed ρ] where
  rows : List ρ
  /-- The largest key ever handed out. -/
  sequence : Int
  distinct : (rows.map rowId).Nodup
  issued : ∀ row ∈ rows, rowId row ≤ sequence
  nonneg : 0 ≤ sequence

namespace Table

variable {ρ : Type} [Keyed ρ] {table : Table ρ} {row other : ρ} {id key : Int}

/-- No rows; keys up to `sequence` may have been used before. -/
def empty (sequence : Nat) : Table ρ where
  rows := []
  sequence := sequence
  distinct := by simp
  issued := by simp
  nonneg := Int.natCast_nonneg sequence

def find (table : Table ρ) (id : Int) : Option ρ :=
  table.rows.find? fun row => rowId row = id

/-- Insert a row under the next key. -/
def insert (table : Table ρ) (row : ρ) : Table ρ where
  rows := table.rows ++ [withId (table.sequence + 1) row]
  sequence := table.sequence + 1
  distinct := by
    rw [List.map_append, List.nodup_append]
    refine ⟨table.distinct, by simp, ?_⟩
    intro first hfirst second hsecond
    obtain ⟨old, hold, rfl⟩ := List.mem_map.mp hfirst
    have hissued := table.issued old hold
    simp only [List.map_cons, List.map_nil, Keyed.rowId_withId, List.mem_singleton] at hsecond
    omega
  issued := by
    intro stored hstored
    rcases List.mem_append.mp hstored with hold | hnew
    · have hissued := table.issued stored hold
      omega
    · have hkey : rowId stored = table.sequence + 1 := by
        rw [List.mem_singleton.mp hnew, Keyed.rowId_withId]
      omega
  nonneg := by
    have hnonneg := table.nonneg
    omega

/-- Change the row with the given key, if there is one; its key stays. -/
def update (table : Table ρ) (id : Int) (change : ρ → ρ) : Table ρ where
  rows := table.rows.map fun row => if rowId row = id then withId id (change row) else row
  sequence := table.sequence
  distinct := by
    have hkeys : (table.rows.map fun row =>
        if rowId row = id then withId id (change row) else row).map rowId =
          table.rows.map rowId := by
      rw [List.map_map]
      refine List.map_congr_left fun row _ => ?_
      simp only [Function.comp_apply]
      split
      · next hid => rw [Keyed.rowId_withId, hid]
      · rfl
    rw [hkeys]
    exact table.distinct
  issued := by
    intro stored hstored
    obtain ⟨old, hold, rfl⟩ := List.mem_map.mp hstored
    have hissued := table.issued old hold
    split
    · next hid => rwa [Keyed.rowId_withId, ← hid]
    · exact hissued
  nonneg := table.nonneg

def delete (table : Table ρ) (id : Int) : Table ρ where
  rows := table.rows.filter fun row => rowId row ≠ id
  sequence := table.sequence
  distinct := table.distinct.sublist (List.Sublist.map rowId List.filter_sublist)
  issued := fun stored hstored => table.issued stored (List.mem_of_mem_filter hstored)
  nonneg := table.nonneg

/-! ## Looking up -/

theorem find_mem (found : table.find id = some row) : row ∈ table.rows :=
  List.mem_of_find?_eq_some found

theorem find_rowId (found : table.find id = some row) : rowId row = id := by
  simpa using List.find?_some found

theorem find_le_sequence (found : table.find id = some row) : id ≤ table.sequence := by
  have hissued := table.issued row (find_mem found)
  rwa [find_rowId found] at hissued

private theorem find?_of_mem {rows : List ρ} (distinct : (rows.map rowId).Nodup)
    (member : row ∈ rows) :
    rows.find? (fun stored => rowId stored = rowId row) = some row := by
  induction rows with
  | nil => cases member
  | cons head tail ih =>
      rw [List.map_cons, List.nodup_cons] at distinct
      rcases List.mem_cons.mp member with rfl | htail
      · simp
      · have hne : rowId head ≠ rowId row := fun heq =>
          distinct.1 (heq ▸ List.mem_map_of_mem htail)
        rw [List.find?_cons_of_neg (by simpa using hne)]
        exact ih distinct.2 htail

/-- Keys identify rows. -/
theorem find_of_mem (member : row ∈ table.rows) : table.find (rowId row) = some row :=
  find?_of_mem table.distinct member

theorem find_eq_some_iff : table.find id = some row ↔ row ∈ table.rows ∧ rowId row = id := by
  constructor
  · exact fun found => ⟨find_mem found, find_rowId found⟩
  · rintro ⟨member, rfl⟩
    exact find_of_mem member

theorem find_eq_none_iff : table.find id = none ↔ ∀ row ∈ table.rows, rowId row ≠ id := by
  simp [find]

@[simp]
theorem find_empty (sequence : Nat) : (empty sequence : Table ρ).find id = none := rfl

@[simp]
theorem rows_empty (sequence : Nat) : (empty sequence : Table ρ).rows = [] := rfl

/-- A key above the sequence has never been used. -/
theorem find_fresh (fresh : table.sequence < id) : table.find id = none := by
  rw [find_eq_none_iff]
  intro stored hstored heq
  have hissued := table.issued stored hstored
  omega

/-! ## What each operation does -/

@[simp]
theorem insert_sequence : (table.insert row).sequence = table.sequence + 1 := rfl

@[simp]
theorem update_sequence (change : ρ → ρ) :
    (table.update id change).sequence = table.sequence := rfl

@[simp]
theorem delete_sequence : (table.delete id).sequence = table.sequence := rfl

theorem mem_insert_iff : other ∈ (table.insert row).rows ↔
    other ∈ table.rows ∨ other = withId (table.sequence + 1) row := by
  simp [insert]

theorem mem_update_iff {change : ρ → ρ} : other ∈ (table.update id change).rows ↔
    (other ∈ table.rows ∧ rowId other ≠ id) ∨
      ∃ old, table.find id = some old ∧ other = withId id (change old) := by
  simp only [update, List.mem_map, find_eq_some_iff]
  constructor
  · rintro ⟨old, hold, rfl⟩
    by_cases hid : rowId old = id
    · exact Or.inr ⟨old, ⟨hold, hid⟩, by rw [if_pos hid]⟩
    · exact Or.inl (by rw [if_neg hid]; exact ⟨hold, hid⟩)
  · rintro (⟨hother, hid⟩ | ⟨old, ⟨hold, hid⟩, rfl⟩)
    · exact ⟨other, hother, by rw [if_neg hid]⟩
    · exact ⟨old, hold, by rw [if_pos hid]⟩

theorem mem_delete_iff : other ∈ (table.delete id).rows ↔
    other ∈ table.rows ∧ rowId other ≠ id := by
  simp [delete]

theorem find_insert : (table.insert row).find key =
    if key = table.sequence + 1 then some (withId key row) else table.find key := by
  split
  · next hkey =>
      subst hkey
      rw [find_eq_some_iff, mem_insert_iff]
      exact ⟨Or.inr rfl, Keyed.rowId_withId _ _⟩
  · next hkey =>
      apply Option.ext
      intro found
      rw [find_eq_some_iff, find_eq_some_iff, mem_insert_iff]
      constructor
      · rintro ⟨hold | rfl, hid⟩
        · exact ⟨hold, hid⟩
        · exact absurd (hid.symm.trans (Keyed.rowId_withId _ _)) hkey
      · exact fun ⟨hold, hid⟩ => ⟨Or.inl hold, hid⟩

theorem find_update {change : ρ → ρ} : (table.update id change).find key =
    if key = id then (table.find id).map (fun old => withId id (change old))
    else table.find key := by
  apply Option.ext
  intro found
  rw [find_eq_some_iff, mem_update_iff]
  split
  · next hkey =>
      subst hkey
      constructor
      · rintro ⟨⟨-, hne⟩ | ⟨old, hold, rfl⟩, hid⟩
        · exact absurd hid hne
        · rw [hold]; rfl
      · intro hfound
        obtain ⟨old, hold, rfl⟩ := Option.map_eq_some_iff.mp hfound
        exact ⟨Or.inr ⟨old, hold, rfl⟩, Keyed.rowId_withId _ _⟩
  · next hkey =>
      rw [find_eq_some_iff]
      constructor
      · rintro ⟨⟨hmem, -⟩ | ⟨old, -, rfl⟩, hid⟩
        · exact ⟨hmem, hid⟩
        · exact absurd (hid.symm.trans (Keyed.rowId_withId _ _)) hkey
      · rintro ⟨hmem, rfl⟩
        exact ⟨Or.inl ⟨hmem, hkey⟩, rfl⟩

theorem find_update_self {change : ρ → ρ} (found : table.find id = some row) :
    (table.update id change).find id = some (withId id (change row)) := by
  rw [find_update, if_pos rfl, found]
  rfl

theorem find_update_other {change : ρ → ρ} (different : key ≠ id) :
    (table.update id change).find key = table.find key := by
  rw [find_update, if_neg different]

/-- Updating a key that is not there changes nothing. -/
theorem update_absent {change : ρ → ρ} (absent : table.find id = none) :
    table.update id change = table := by
  apply Table.ext
  · simp only [update]
    conv_rhs => rw [← List.map_id table.rows]
    refine List.map_congr_left fun stored hstored => ?_
    rw [if_neg (find_eq_none_iff.mp absent stored hstored), id_eq]
  · rfl

/-- Only the row that is there is changed. -/
theorem update_const (found : table.find id = some row) (change : ρ → ρ) :
    table.update id (fun _ => change row) = table.update id change := by
  apply Table.ext
  · simp only [update]
    refine List.map_congr_left fun stored hstored => ?_
    split
    · next hid =>
        have hstoredFound := find_of_mem hstored
        rw [hid, found] at hstoredFound
        rw [Option.some.inj hstoredFound]
    · rfl
  · rfl

end Table

end OpsUp.Storage
