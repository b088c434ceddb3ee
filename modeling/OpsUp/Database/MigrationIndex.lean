import OpsUp.Database.MigrationRuns

/-!
# The index of the migration loop

The loop of `migrate` starts at whatever version the file names and looks its migrations up
by index.  Here the index is an integer, and every index that is looked up is recorded.
-/

namespace OpsUp.Database

open OpsUp.Interaction OpsUp.Interaction.Program

/-- `migrations[i]`; an index out of range is a panic. -/
def migrationAt (migrations : List (Sql (Option String))) (i : Int) : Option (Sql (Option String)) :=
  if i < 0 then none else migrations[i.toNat]?

inductive LoopEnd where
  | finished
  | failed (err : String)
  | panicked
  deriving DecidableEq

/-- The loop from index `i` on, with the indices that it looks up. -/
def migrationLoop (migrations : List (Sql (Option String))) (i : Int) : Sql (LoopEnd × List Int) :=
  if _ : i < migrations.length then
    match migrationAt migrations i with
    | none => pure (.panicked, [i])
    | some migration => do
        match ← migration with
        | some err => pure (.failed ("migration " ++ toString (i + 1) ++ ": " ++ err), [i])
        | none =>
            match ← exec (.setUserVersion (i + 1).toNat) with
            | .error err => pure (.failed err, [i])
            | .ok () =>
                let (ended, indices) ← migrationLoop migrations (i + 1)
                pure (ended, i :: indices)
  else pure (.finished, [])
termination_by (migrations.length - i).toNat
decreasing_by omega

/-- What follows the loop. -/
def afterLoop : LoopEnd × List Int → Sql (Outcome × List Int)
  | (.panicked, indices) => pure (.panicked, indices)
  | (.failed err, indices) => pure (.failed err, indices)
  | (.finished, indices) => do
      match ← exec .commit with
      | .error err => pure (.failed err, indices)
      | .ok () => pure (.done, indices)

def migrateWithinIndexed (migrations : List (Sql (Option String))) : Sql (Outcome × List Int) := do
  match ← exec .userVersion with
  | .error err => pure (.failed err, [])
  | .ok version =>
      if version > migrations.length then pure (.failed (errNewer version migrations.length), [])
      else migrationLoop migrations version >>= afterLoop

/-- `migrate`, with the indices that it looks up. -/
def migrateIndexed (migrations : List (Sql (Option String))) : Sql (Outcome × List Int) := do
  match ← exec .begin with
  | .error err => pure (.failed err, [])
  | .ok () => do
      let result ← migrateWithinIndexed migrations
      let _ ← exec .rollback
      pure result

variable {programs : List (Sql (Option String))} {i : Nat}

/-! ## The same program -/

theorem migrationAt_natCast (i : Nat) : migrationAt programs i = programs[i]? := by
  rw [migrationAt, if_neg (by omega), Int.toNat_natCast]

theorem migrationLoop_of_le {i : Int} (ended : programs.length ≤ i) :
    migrationLoop programs i = pure (.finished, []) := by
  rw [migrationLoop, dif_neg (Int.not_lt.mpr ended)]

/-- One round of the loop. -/
theorem migrationLoop_of_lt {migration : Sql (Option String)}
    (found : programs[i]? = some migration) :
    migrationLoop programs i = (migration >>= fun failed =>
      match failed with
      | some err => pure (.failed ("migration " ++ toString (i + 1) ++ ": " ++ err), [(i : Int)])
      | none => exec (.setUserVersion (i + 1)) >>= fun reply =>
          match reply with
          | .error err => pure (.failed err, [(i : Int)])
          | .ok () => migrationLoop programs ((i + 1 : Nat) : Int) >>= fun (ended, indices) =>
              pure (ended, (i : Int) :: indices)) := by
  have hlt : i < programs.length := (List.getElem?_eq_some_iff.mp found).1
  have hnext : (i : Int) + 1 = ((i + 1 : Nat) : Int) := by omega
  rw [migrationLoop, dif_pos (by omega), migrationAt_natCast, found]
  dsimp only
  refine congrArg (migration >>= ·) (funext fun failed => ?_)
  cases failed with
  | some err => rw [hnext]; rfl
  | none =>
      refine congrArg (@Program.call sql _ (SqlCommand.setUserVersion (i + 1)))
        (funext fun reply => ?_)
      cases reply with
      | error err => rfl
      | ok _ => rfl

/-- From an index that is not negative the loop is the one over the migrations that are left. -/
theorem migrationLoop_bind {α : Type} {rest : LoopEnd × List Int → Sql α}
    {after : Option String → Sql α} (finished : ∀ indices, rest (.finished, indices) = after none)
    (failed : ∀ err indices, rest (.failed err, indices) = after (some err)) (i : Nat) :
    migrationLoop programs i >>= rest = runMigrations i (programs.drop i) >>= after := by
  induction hleft : programs.drop i generalizing i rest with
  | nil =>
      have hover := List.drop_eq_nil_iff.mp hleft
      rw [migrationLoop_of_le (by omega)]
      exact finished []
  | cons migration others ih =>
      have hfound : programs[i]? = some migration := by
        rw [← List.head?_drop, hleft]
        rfl
      have hothers : programs.drop (i + 1) = others := by
        rw [← List.tail_drop, hleft]
        rfl
      rw [migrationLoop_of_lt hfound, runMigrations, LawfulMonad.bind_assoc, LawfulMonad.bind_assoc]
      refine congrArg (migration >>= ·) (funext fun result => ?_)
      cases result with
      | some err => exact failed _ _
      | none =>
          refine congrArg (Program.call _) (funext fun reply => ?_)
          cases reply with
          | error err => exact failed _ _
          | ok _ =>
              change (migrationLoop programs ((i + 1 : Nat) : Int) >>= _) >>= rest = _
              rw [LawfulMonad.bind_assoc]
              have hrest := @ih (fun (ended, indices) => rest (ended, (i : Int) :: indices))
                (fun _ => finished _) (fun _ _ => failed _ _) (i + 1) hothers
              exact hrest

/-- A negative index is looked up, and that is the end. -/
theorem migrationLoop_of_neg {version : Int} (negative : version < 0) :
    migrationLoop programs version = pure (.panicked, [version]) := by
  rw [migrationLoop, dif_pos (by omega), migrationAt, if_pos negative]

theorem migrateWithinIndexed_fst (programs : List (Sql (Option String))) :
    Prod.fst <$> migrateWithinIndexed programs = migrateWithin programs := by
  refine congrArg (@Program.call sql _ SqlCommand.userVersion) (funext fun reply => ?_)
  cases reply with
  | error err => rfl
  | ok version =>
      change Prod.fst <$> (if version > programs.length then _ else _ : Sql (Outcome × List Int)) =
        (if version > programs.length then _ else _ : Sql Outcome)
      split
      · rfl
      · split
        · next hnegative =>
            rw [migrationLoop_of_neg hnegative]
            rfl
        · next hnonnegative =>
            obtain ⟨i, rfl⟩ := Int.eq_ofNat_of_zero_le (Int.not_lt.mp hnonnegative)
            rw [map_bind]
            exact migrationLoop_bind (fun _ => congrArg (Program.call _) (funext fun reply => by
              cases reply with
              | error err => rfl
              | ok _ => rfl)) (fun _ _ => rfl) i

/-- The indices are all that is added. -/
theorem migrateIndexed_fst (programs : List (Sql (Option String))) :
    Prod.fst <$> migrateIndexed programs = migrate programs := by
  refine congrArg (@Program.call sql _ SqlCommand.begin) (funext fun reply => ?_)
  cases reply with
  | error err => rfl
  | ok _ =>
      change Prod.fst <$> (migrateWithinIndexed programs >>= fun result =>
          exec .rollback >>= fun _ => pure result) =
        migrateWithin programs >>= fun outcome => exec .rollback >>= fun _ => pure outcome
      rw [← migrateWithinIndexed_fst, bind_map_left, map_bind]
      rfl

/-! ## Indices in range -/

/-- What the loop may do from an index that is not negative. -/
theorem executes_migrationLoop {start : Int} (nonnegative : 0 ≤ start) {events : List (Event sql)}
    {ended : LoopEnd} {indices : List Int} {state final : SqlState}
    (run : Executes sqlite (migrationLoop programs start) state events (ended, indices) final) :
    ended ≠ .panicked ∧ ∀ i ∈ indices, 0 ≤ i ∧ i < programs.length := by
  obtain ⟨i, rfl⟩ := Int.eq_ofNat_of_zero_le nonnegative
  clear nonnegative
  induction hleft : programs.drop i generalizing i state events ended indices final with
  | nil =>
      have hover := List.drop_eq_nil_iff.mp hleft
      rw [migrationLoop_of_le (by omega)] at run
      obtain ⟨-, hresult, -⟩ := executes_ret_iff.mp run
      obtain ⟨rfl, rfl⟩ := Prod.mk.inj hresult
      exact ⟨by simp, by simp⟩
  | cons migration others ih =>
      have hfound : programs[i]? = some migration := by
        rw [← List.head?_drop, hleft]
        rfl
      have hothers : programs.drop (i + 1) = others := by
        rw [← List.tail_drop, hleft]
        rfl
      have hi : i < programs.length := (List.getElem?_eq_some_iff.mp hfound).1
      have hsingle : ∀ place ∈ [(i : Int)], 0 ≤ place ∧ place < programs.length := by
        intro place hplace
        obtain rfl := List.mem_singleton.mp hplace
        omega
      rw [migrationLoop_of_lt hfound] at run
      obtain ⟨_, _, failed, middle, -, -, hrest⟩ := executes_bind_iff.mp run
      cases failed with
      | some err =>
          obtain ⟨-, hresult, -⟩ := executes_ret_iff.mp hrest
          obtain ⟨rfl, rfl⟩ := Prod.mk.inj hresult
          exact ⟨by simp, hsingle⟩
      | none =>
          obtain ⟨reply, _, _, -, -, hreplied⟩ := executes_call_iff.mp hrest
          cases reply with
          | error err =>
              obtain ⟨-, hresult, -⟩ := executes_ret_iff.mp hreplied
              obtain ⟨rfl, rfl⟩ := Prod.mk.inj hresult
              exact ⟨by simp, hsingle⟩
          | ok _ =>
              have hnext : Executes sqlite (migrationLoop programs ((i + 1 : Nat) : Int) >>=
                  fun (ended, indices) => pure (ended, (i : Int) :: indices)) _ _ (ended, indices)
                  final := hreplied
              obtain ⟨_, _, ⟨last, more⟩, _, -, hloop, hend⟩ := executes_bind_iff.mp hnext
              obtain ⟨-, hresult, -⟩ := executes_ret_iff.mp hend
              obtain ⟨rfl, rfl⟩ := Prod.mk.inj hresult
              obtain ⟨hended, hmore⟩ := ih (i + 1) hloop hothers
              refine ⟨hended, fun place hplace => ?_⟩
              rcases List.mem_cons.mp hplace with hfirst | hlater
              · exact hsingle place (List.mem_singleton.mpr hfirst)
              · exact hmore place hlater

theorem executes_afterLoop {result : LoopEnd × List Int} {outcome : Outcome} {indices : List Int}
    {events : List (Event sql)} {state final : SqlState}
    (run : Executes sqlite (afterLoop result) state events (outcome, indices) final) :
    indices = result.2 ∧ (result.1 ≠ .panicked → outcome ≠ .panicked) := by
  obtain ⟨ended, looked⟩ := result
  cases ended with
  | panicked =>
      obtain ⟨-, hresult, -⟩ := executes_ret_iff.mp run
      exact ⟨(Prod.mk.inj hresult).2, fun hnot => absurd rfl hnot⟩
  | failed err =>
      obtain ⟨-, hresult, -⟩ := executes_ret_iff.mp run
      obtain ⟨rfl, rfl⟩ := Prod.mk.inj hresult
      exact ⟨rfl, fun _ => by simp⟩
  | finished =>
      obtain ⟨reply, _, _, -, -, hend⟩ := executes_call_iff.mp run
      cases reply with
      | error err =>
          obtain ⟨-, hresult, -⟩ := executes_ret_iff.mp hend
          obtain ⟨rfl, rfl⟩ := Prod.mk.inj hresult
          exact ⟨rfl, fun _ => by simp⟩
      | ok _ =>
          obtain ⟨-, hresult, -⟩ := executes_ret_iff.mp hend
          obtain ⟨rfl, rfl⟩ := Prod.mk.inj hresult
          exact ⟨rfl, fun _ => by simp⟩

/-- What is claimed of the end of a run: no panic, every index in range, and an error with the
database as it was when the version is out of range. -/
structure InRange (programs : List (Sql (Option String))) (db : DatabaseFile) (outcome : Outcome)
    (indices : List Int) (final : SqlState) : Prop where
  returns : outcome ≠ .panicked
  indices : ∀ i ∈ indices, 0 ≤ i ∧ i < programs.length
  refused : ¬ (0 ≤ db.userVersion ∧ db.userVersion ≤ programs.length) →
    (∃ err, outcome = .failed err) ∧ final = .idle db

theorem inRange_failed {db : DatabaseFile} (err : String) :
    InRange programs db (.failed err) [] (.idle db) where
  returns := by simp
  indices := by simp
  refused := fun _ => ⟨⟨err, rfl⟩, rfl⟩

/-- On a version that is not negative all is well. -/
theorem inRange_of_nonneg {db : DatabaseFile} (nonnegative : 0 ≤ db.userVersion)
    {events : List (Event sql)} {outcome : Outcome} {indices : List Int} {final : SqlState}
    (run : Executes sqlite (migrateIndexed programs) (.idle db) events (outcome, indices) final) :
    InRange programs db outcome indices final := by
  obtain ⟨begun, _, _, -, answer, hrest⟩ := executes_call_iff.mp run
  rcases answer with ⟨rfl, rfl⟩ | ⟨⟨err, rfl⟩, rfl⟩
  · have hbegun : Executes sqlite (migrateWithinIndexed programs >>= fun result =>
        exec .rollback >>= fun _ => pure result) ⟨db, some db⟩ _ (outcome, indices) final := hrest
    obtain ⟨_, _, result, between, -, hwithin, hlast⟩ := executes_bind_iff.mp hbegun
    obtain ⟨_, _, _, -, hrolled, hend⟩ := executes_call_iff.mp hlast
    obtain rfl := hrolled
    obtain ⟨-, rfl, rfl⟩ := executes_ret_iff.mp hend
    obtain ⟨reply, _, _, -, ⟨rfl, answer⟩, hversion⟩ := executes_call_iff.mp hwithin
    rcases answer with rfl | ⟨err, rfl⟩
    · change Executes sqlite (if db.userVersion > programs.length then _ else _) _ _ _ _ at hversion
      split at hversion
      · obtain ⟨-, hresult, rfl⟩ := executes_ret_iff.mp hversion
        obtain ⟨rfl, rfl⟩ := Prod.mk.inj hresult
        exact inRange_failed _
      · next hsupported =>
          obtain ⟨_, _, looped, _, -, hloop, hafter⟩ := executes_bind_iff.mp hversion
          obtain ⟨hended, hindices⟩ := executes_migrationLoop nonnegative hloop
          obtain ⟨rfl, hreturns⟩ := executes_afterLoop hafter
          refine ⟨hreturns hended, hindices, fun hout => ?_⟩
          exact absurd ⟨nonnegative, Int.not_lt.mp hsupported⟩ hout
    · obtain ⟨-, hresult, rfl⟩ := executes_ret_iff.mp hversion
      obtain ⟨rfl, rfl⟩ := Prod.mk.inj hresult
      exact inRange_failed err
  · obtain ⟨-, hresult, rfl⟩ := executes_ret_iff.mp hrest
    obtain ⟨rfl, rfl⟩ := Prod.mk.inj hresult
    exact inRange_failed err

/-- On a negative version a run that reads it panics. -/
theorem migrateIndexed_panics {db : DatabaseFile} (negative : db.userVersion < 0)
    (programs : List (Sql (Option String))) :
    ∃ events, Executes sqlite (migrateIndexed programs) (.idle db) events
      (.panicked, [db.userVersion]) (.idle db) := by
  have hsupported : ¬ db.userVersion > programs.length := by omega
  have hwithin : Executes sqlite (migrateWithinIndexed programs) ⟨db, some db⟩
      [⟨.userVersion, .ok db.userVersion⟩] (.panicked, [db.userVersion]) ⟨db, some db⟩ := by
    refine executes_call_iff.mpr ⟨.ok db.userVersion, ⟨db, some db⟩, [], rfl, ⟨rfl, Or.inl rfl⟩, ?_⟩
    change Executes sqlite (if db.userVersion > programs.length then _ else _) _ _ _ _
    rw [if_neg hsupported, migrationLoop_of_neg negative]
    exact .refl _ _
  have hrolled : Executes sqlite (exec .rollback >>= fun _ => pure (Outcome.panicked, [db.userVersion]))
      ⟨db, some db⟩ [⟨.rollback, ()⟩] (.panicked, [db.userVersion]) (.idle db) :=
    executes_call_iff.mpr ⟨(), .idle db, [], rfl, rfl, .refl _ _⟩
  have hbegun : Executes sqlite (migrateWithinIndexed programs >>= fun result =>
      exec .rollback >>= fun _ => pure result) ⟨db, some db⟩
      ([⟨.userVersion, .ok db.userVersion⟩] ++ [⟨.rollback, ()⟩]) (.panicked, [db.userVersion])
      (.idle db) :=
    executes_bind_iff.mpr ⟨_, _, _, _, rfl, hwithin, hrolled⟩
  exact ⟨⟨.begin, .ok ()⟩ :: _, .call (Or.inl ⟨rfl, rfl⟩) hbegun⟩

theorem sqlite_total (state : SqlState) (command : SqlCommand) :
    ∃ reply after, sqlite state command reply after :=
  ⟨_, _, reliableSqlite_answers state command⟩

/-- `migrate` always ends; and it ends as claimed, in every run, exactly when the version that the
file names is not negative. -/
theorem migrate_inRange_iff (programs : List (Sql (Option String))) (db : DatabaseFile) :
    (Terminates sqlite (migrateIndexed programs) (.idle db) ∧
        ∀ events outcome indices final,
          Executes sqlite (migrateIndexed programs) (.idle db) events (outcome, indices) final →
            InRange programs db outcome indices final) ↔
      0 ≤ db.userVersion := by
  constructor
  · rintro ⟨-, hruns⟩
    by_contra hnegative
    obtain ⟨events, hrun⟩ := migrateIndexed_panics (Int.not_le.mp hnegative) programs
    exact (hruns _ _ _ _ hrun).returns rfl
  · intro hnonnegative
    refine ⟨terminates_of_total sqlite_total _ _, ?_⟩
    intro events outcome indices final run
    exact inRange_of_nonneg hnonnegative run

/-- A file whose version is -1. -/
def negativeFile : DatabaseFile := { legacyFile with userVersion := -1 }

theorem migrate_negativeFile_panics :
    ∃ events, Executes sqlite (migrateIndexed migrations) (.idle negativeFile) events
        (.panicked, [-1]) (.idle negativeFile) ∧
      ¬ InRange migrations negativeFile .panicked [-1] (.idle negativeFile) := by
  have hnegative : negativeFile.userVersion < 0 := by decide
  obtain ⟨events, hrun⟩ := migrateIndexed_panics hnegative migrations
  exact ⟨events, hrun, fun hclaimed => hclaimed.returns rfl⟩

end OpsUp.Database
