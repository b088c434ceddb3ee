import OpsUp.Interaction.Interference
import Mathlib.Data.List.Count
import Mathlib.Logic.Function.Basic
import Mathlib.Algebra.Order.Ring.Nat

/-!
# Closes that run once

A resource is closed through a guard whose body runs once: a first action, the
close of the resource below it, and a last action.  Any number of threads may
close any of the guards at the same time; a thread that finds a body running waits
for it.  Each action happens at most once, a closed guard has everything below it
closed, and threads that go on closing always come to an end.
-/

namespace OpsUp.Interaction

/-- The state of a once-guard: its body has never begun, is running, or has returned. -/
inductive Once where
  | idle | running | done
  deriving DecidableEq, Repr

namespace Once

def started : Once → Nat
  | .idle => 0
  | .running => 1
  | .done => 1

def active : Once → Nat
  | .idle => 0
  | .running => 1
  | .done => 0

def finished : Once → Nat
  | .idle => 0
  | .running => 0
  | .done => 1

end Once

/-- What a closing thread does next. -/
inductive CloseOp (G : Type) where
  /-- Wait for a running body; begin the body unless it has run. -/
  | enter (guard : G)
  | first (guard : G)
  | last (guard : G)
  /-- The body has returned. -/
  | leave (guard : G)
  deriving DecidableEq, Repr

def CloseOp.guard {G : Type} : CloseOp G → G
  | .enter guard => guard
  | .first guard => guard
  | .last guard => guard
  | .leave guard => guard

/-- The guard that is closed within the body of another, if there is one. -/
structure Layers (G : Type) where
  inner : G → Option G
  rank : G → Nat
  descends : ∀ {guard below}, inner guard = some below → rank below < rank guard

structure Guards (G : Type) where
  once : G → Once
  /-- How often the first action has been taken. -/
  firsts : G → Nat
  lasts : G → Nat

/-- The guards and the threads that are closing them, each with what it has still to do. -/
structure Closing (G : Type) where
  guards : Guards G
  threads : List (List (CloseOp G))

variable {G : Type} [DecidableEq G]

/-- Doing the first operation of a thread pushes further ones in its place. -/
inductive Advances (layers : Layers G) (guards : Guards G) :
    CloseOp G → Guards G → List (CloseOp G) → Prop where
  | begin {guard : G} (idle : guards.once guard = .idle) :
      Advances layers guards (.enter guard)
        { guards with once := Function.update guards.once guard .running } [.first guard]
  | skip {guard : G} (done : guards.once guard = .done) :
      Advances layers guards (.enter guard) guards []
  | first (guard : G) :
      Advances layers guards (.first guard)
        { guards with firsts := Function.update guards.firsts guard (guards.firsts guard + 1) }
        ((layers.inner guard).toList.map .enter ++ [.last guard])
  | last (guard : G) :
      Advances layers guards (.last guard)
        { guards with lasts := Function.update guards.lasts guard (guards.lasts guard + 1) }
        [.leave guard]
  | leave (guard : G) :
      Advances layers guards (.leave guard)
        { guards with once := Function.update guards.once guard .done } []

section Advances

variable {layers : Layers G} {guards later : Guards G} {op : CloseOp G}
  {pushed rest : List (CloseOp G)} {guard : G}

/-- A guard that is done stays done. -/
theorem Advances.done (advances : Advances layers guards op later pushed) (done : guards.once guard = .done) :
    later.once guard = .done := by
  cases advances with
  | @begin entered idle =>
      by_cases hguard : guard = entered
      · subst hguard
        rw [idle] at done
        cases done
      · simpa [Function.update_of_ne hguard] using done
  | skip _ => exact done
  | first _ => exact done
  | last _ => exact done
  | leave left =>
      by_cases hguard : guard = left
      · simp [hguard]
      · simpa [Function.update_of_ne hguard] using done

/-- Only leaving its body makes a guard done. -/
theorem Advances.newly_done (advances : Advances layers guards op later pushed) (done : later.once guard = .done) :
    guards.once guard = .done ∨ op = .leave guard := by
  cases advances with
  | @begin entered idle =>
      by_cases hguard : guard = entered
      · simp [hguard] at done
      · left
        simpa [Function.update_of_ne hguard] using done
  | skip _ => exact Or.inl done
  | first _ => exact Or.inl done
  | last _ => exact Or.inl done
  | leave left =>
      by_cases hguard : guard = left
      · exact Or.inr (hguard ▸ rfl)
      · left
        simpa [Function.update_of_ne hguard] using done

/-- A body that has begun has begun for good. -/
theorem Advances.begun (advances : Advances layers guards op later pushed)
    (begun : guards.once guard ≠ .idle) : later.once guard ≠ .idle := by
  cases advances with
  | begin _ =>
      intro idle
      simp only [Function.update_apply] at idle
      split at idle
      · cases idle
      · exact begun idle
  | skip _ => exact begun
  | first _ => exact begun
  | last _ => exact begun
  | leave _ =>
      intro idle
      simp only [Function.update_apply] at idle
      split at idle
      · cases idle
      · exact begun idle

/-- A guard that a thread is about to close is closed, or the thread is still about to. -/
theorem Advances.closes (advances : Advances layers guards op later pushed)
    (mentions : ∃ other ∈ op :: rest, other.guard = guard) :
    later.once guard = .done ∨ ∃ other ∈ pushed ++ rest, other.guard = guard := by
  obtain ⟨other, hother, hguard⟩ := mentions
  rcases List.mem_cons.mp hother with rfl | hrest
  · subst hguard
    cases advances with
    | begin _ => exact Or.inr ⟨_, List.mem_cons_self, rfl⟩
    | skip done => exact Or.inl done
    | first entered =>
        exact Or.inr ⟨.last entered, List.mem_append_left _ (List.mem_append_right _
          List.mem_cons_self), rfl⟩
    | last _ => exact Or.inr ⟨_, List.mem_cons_self, rfl⟩
    | leave left => exact Or.inl (Function.update_self _ _ _)
  · exact Or.inr ⟨other, List.mem_append_right _ hrest, hguard⟩

end Advances

namespace Closing

/-- One thread does its first operation. -/
inductive Step (layers : Layers G) (closing : Closing G) : CloseOp G → Closing G → Prop where
  | step {front back : List (List (CloseOp G))} {op : CloseOp G} {rest pushed : List (CloseOp G)}
      {guards : Guards G} (place : closing.threads = front ++ (op :: rest) :: back)
      (advances : Advances layers closing.guards op guards pushed) :
      Step layers closing op ⟨guards, front ++ (pushed ++ rest) :: back⟩

/-- What all threads have still to do. -/
def pending (closing : Closing G) : List (CloseOp G) := closing.threads.flatten

/-- A further thread closes the guard. -/
def spawn (closing : Closing G) (guard : G) : Closing G :=
  { closing with threads := closing.threads ++ [[.enter guard]] }

/-- Nothing has been closed and nobody is closing. -/
def Untouched (closing : Closing G) : Prop :=
  closing.pending = [] ∧ ∀ guard, closing.guards.once guard = .idle

/--
What a thread has still to do only leaves a body when the guard below it is closed
by then; `closed` holds of the guards that are closed already.
-/
def Nested (layers : Layers G) : (G → Prop) → List (CloseOp G) → Prop
  | _, [] => True
  | closed, op :: rest =>
      (∀ guard, op = .last guard ∨ op = .leave guard →
        ∀ below, layers.inner guard = some below → closed below) ∧
      Nested layers (fun guard => closed guard ∨ guard = op.guard) rest

/-- The invariant of closing. -/
structure Sound (layers : Layers G) (closing : Closing G) : Prop where
  firsts : ∀ guard, closing.guards.firsts guard + closing.pending.count (.first guard) =
    (closing.guards.once guard).started
  active : ∀ guard, closing.pending.count (.first guard) + closing.pending.count (.last guard) +
    closing.pending.count (.leave guard) = (closing.guards.once guard).active
  lasts : ∀ guard, closing.guards.lasts guard =
    closing.pending.count (.leave guard) + (closing.guards.once guard).finished
  below : ∀ guard, closing.guards.once guard = .done →
    ∀ below, layers.inner guard = some below → closing.guards.once below = .done
  nested : ∀ thread ∈ closing.threads,
    Nested layers (fun guard => closing.guards.once guard = .done) thread
  ordered : ∀ thread ∈ closing.threads,
    thread.Pairwise fun earlier later => layers.rank earlier.guard < layers.rank later.guard

variable {layers : Layers G} {closing after : Closing G} {op : CloseOp G} {guard : G}

/-! ## One step -/

theorem Step.count (step : Step layers closing op after) : ∃ pushed,
    Advances layers closing.guards op after.guards pushed ∧
    ∀ other, after.pending.count other + [op].count other =
      closing.pending.count other + pushed.count other := by
  cases step with
  | @step front back _ rest pushed guards place advances =>
      refine ⟨pushed, advances, fun other => ?_⟩
      simp only [pending, place, List.flatten_append, List.flatten_cons, List.count_append,
        List.count_cons, List.count_nil]
      omega

omit [DecidableEq G] in
theorem Nested.mono {closed more : G → Prop} {ops : List (CloseOp G)}
    (nested : Nested layers closed ops) (imp : ∀ guard, closed guard → more guard) :
    Nested layers more ops := by
  induction ops generalizing closed more with
  | nil => trivial
  | cons op rest ih =>
      obtain ⟨hop, hrest⟩ := nested
      constructor
      · exact fun guard hguard below hbelow => imp below (hop guard hguard below hbelow)
      · exact ih hrest fun guard => Or.imp_left (imp guard)


/-- A step keeps the three counts of every guard. -/
theorem Sound.counts (sound : Sound layers closing) (step : Step layers closing op after)
    (guard : G) :
    after.guards.firsts guard + after.pending.count (.first guard) =
        (after.guards.once guard).started ∧
      after.pending.count (.first guard) + after.pending.count (.last guard) +
        after.pending.count (.leave guard) = (after.guards.once guard).active ∧
      after.guards.lasts guard =
        after.pending.count (.leave guard) + (after.guards.once guard).finished := by
  obtain ⟨pushed, advances, hcount⟩ := step.count
  have hfirsts := sound.firsts guard
  have hactive := sound.active guard
  have hlasts := sound.lasts guard
  have hfirst := hcount (.first guard)
  have hlast := hcount (.last guard)
  have hleave := hcount (.leave guard)
  obtain ⟨guards, threads⟩ := after
  dsimp only at advances ⊢
  cases advances with
  | @begin entered idle =>
      by_cases hguard : guard = entered
      · subst hguard
        simp [idle, Once.started, Once.active, Once.finished, List.count_singleton] at *
        omega
      · simp [Function.update_of_ne hguard, List.count_singleton, Ne.symm hguard] at *
        omega
  | skip _ =>
      simp [List.count_singleton] at *
      omega
  | first entered => 
      have henter : ∀ other : CloseOp G, (∀ below, other ≠ .enter below) →
        ((layers.inner entered).toList.map CloseOp.enter).count other = 0 := by
          intro other hother
          cases layers.inner entered <;> simp [(hother _).symm]
      by_cases hguard : guard = entered
      · subst hguard
        simp [henter, List.count_singleton] at *
        omega
      · simp [henter, Function.update_of_ne hguard, List.count_singleton, Ne.symm hguard] at *
        omega
  | last entered => 
      by_cases hguard : guard = entered
      · subst hguard
        simp [List.count_singleton] at *
        omega
      · simp [Function.update_of_ne hguard, List.count_singleton, Ne.symm hguard] at *
        omega
  | leave entered =>
      by_cases hguard : guard = entered
      · subst hguard
        cases honce : closing.guards.once guard <;>
        simp [honce, Once.started, Once.active, Once.finished, List.count_singleton] at * <;>
        omega
      · simp [Function.update_of_ne hguard, List.count_singleton, Ne.symm hguard] at *
        omega

/-- What is pushed is nested as well. -/
theorem Nested.advances {guards later : Guards G} {pushed rest : List (CloseOp G)}
    (nested : Nested layers (fun guard => guards.once guard = .done) (op :: rest))
    (advances : Advances layers guards op later pushed) :
    Nested layers (fun guard => later.once guard = .done) (pushed ++ rest) := by
  have hdone : ∀ guard, guards.once guard = .done → later.once guard = .done :=
    fun _ => advances.done
  obtain ⟨hop, hrest⟩ := nested
  cases advances with
  | begin idle =>
      refine ⟨fun _ h => ?_, hrest.mono fun guard => Or.imp_left (hdone guard)⟩
      rcases h with h | h <;> cases h
  | skip done =>
      apply hrest.mono
      rintro guard (hguard | rfl)
      · exact hguard
      · exact done
  | first entered =>
      cases hinner : layers.inner entered with
      | none =>
          refine ⟨fun guard h below hbelow => ?_, hrest⟩
          rcases h with h | h
          · cases h
            rw [hinner] at hbelow
            cases hbelow
          · cases h
      | some under =>
          refine ⟨fun _ h => ?_, fun guard h below hbelow => ?_, hrest.mono ?_⟩
          · rcases h with h | h <;> cases h
          · rcases h with h | h
            · cases h
              rw [hinner] at hbelow
              exact Or.inr (Option.some.inj hbelow).symm
            · cases h
          · rintro guard (hguard | hguard)
            · exact Or.inl (Or.inl hguard)
            · exact Or.inr hguard
  | last entered =>
      refine ⟨fun guard h below hbelow => ?_, hrest⟩
      rcases h with h | h
      · cases h
      · cases h
        exact hop entered (Or.inl rfl) below hbelow
  | leave left =>
      apply hrest.mono
      rintro guard (hguard | rfl)
      · exact hdone guard hguard
      · exact Function.update_self _ _ _

/-- What is pushed lies below what follows. -/
theorem ordered_advances {guards later : Guards G} {pushed rest : List (CloseOp G)}
    (ordered : (op :: rest).Pairwise fun earlier later =>
      layers.rank earlier.guard < layers.rank later.guard)
    (advances : Advances layers guards op later pushed) :
    (pushed ++ rest).Pairwise fun earlier later =>
      layers.rank earlier.guard < layers.rank later.guard := by
  obtain ⟨hop, hrest⟩ := List.pairwise_cons.mp ordered
  cases advances with
  | begin _ => exact List.pairwise_cons.mpr ⟨hop, hrest⟩
  | skip _ => exact hrest
  | first entered =>
      have hlast : (CloseOp.last entered :: rest).Pairwise fun earlier later =>
          layers.rank earlier.guard < layers.rank later.guard :=
        List.pairwise_cons.mpr ⟨hop, hrest⟩
      cases hinner : layers.inner entered with
      | none => exact hlast
      | some under =>
          refine List.pairwise_cons.mpr ⟨fun later hlater => ?_, hlast⟩
          have hunder := layers.descends hinner
          rcases List.mem_cons.mp hlater with rfl | hlater
          · exact hunder
          · exact Nat.lt_trans hunder (hop later hlater)
  | last _ => exact List.pairwise_cons.mpr ⟨hop, hrest⟩
  | leave _ => exact hrest

theorem Sound.step (sound : Sound layers closing) (step : Step layers closing op after) :
    Sound layers after where
  firsts := fun guard => (sound.counts step guard).1
  active := fun guard => (sound.counts step guard).2.1
  lasts := fun guard => (sound.counts step guard).2.2
  below := by
    intro guard hguard below hbelow
    obtain ⟨place, advances⟩ := step
    rcases advances.newly_done hguard with hdone | rfl
    · exact advances.done (sound.below guard hdone below hbelow)
    · have hthread := sound.nested _ (place ▸ List.mem_append_right _ List.mem_cons_self)
      exact advances.done (hthread.1 guard (Or.inr rfl) below hbelow)
  nested := by
    obtain ⟨place, advances⟩ := step
    intro thread hthread
    have hold : ∀ thread ∈ closing.threads, _ := sound.nested
    rw [place] at hold
    rcases List.mem_append.mp hthread with hfront | hback
    · exact (hold thread (List.mem_append_left _ hfront)).mono fun _ => advances.done
    · rcases List.mem_cons.mp hback with rfl | hback
      · exact (hold _ (List.mem_append_right _ List.mem_cons_self)).advances advances
      · exact (hold thread (List.mem_append_right _ (List.mem_cons_of_mem _ hback))).mono
          fun _ => advances.done
  ordered := by
    obtain ⟨place, advances⟩ := step
    intro thread hthread
    have hold : ∀ thread ∈ closing.threads, _ := sound.ordered
    rw [place] at hold
    rcases List.mem_append.mp hthread with hfront | hback
    · exact hold thread (List.mem_append_left _ hfront)
    · rcases List.mem_cons.mp hback with rfl | hback
      · exact ordered_advances (hold _ (List.mem_append_right _ List.mem_cons_self)) advances
      · exact hold thread (List.mem_append_right _ (List.mem_cons_of_mem _ hback))

/-! ## Further threads -/

/-- Threads that begin to close a guard may be added, and finished ones left out. -/
theorem Sound.admits (sound : Sound layers closing) {threads : List (List (CloseOp G))}
    (known : ∀ thread ∈ threads, thread ∈ closing.threads ∨ ∃ guard, thread = [.enter guard])
    (same : ∀ op : CloseOp G, (∀ guard, op ≠ .enter guard) →
      threads.flatten.count op = closing.pending.count op) :
    Sound layers ⟨closing.guards, threads⟩ where
  firsts := fun guard => same (.first guard) nofun ▸ sound.firsts guard
  active := fun guard => by
    have hactive := sound.active guard
    rw [← same (.first guard) nofun, ← same (.last guard) nofun, ← same (.leave guard) nofun]
      at hactive
    exact hactive
  lasts := fun guard => same (.leave guard) nofun ▸ sound.lasts guard
  below := sound.below
  nested := by
    intro thread hthread
    rcases known thread hthread with hold | ⟨guard, rfl⟩
    · exact sound.nested thread hold
    · refine ⟨fun _ h => ?_, trivial⟩
      rcases h with h | h <;> cases h
  ordered := by
    intro thread hthread
    rcases known thread hthread with hold | ⟨guard, rfl⟩
    · exact sound.ordered thread hold
    · exact List.pairwise_singleton _ _

theorem Sound.spawn (sound : Sound layers closing) (guard : G) :
    Sound layers (closing.spawn guard) := by
  apply sound.admits
  · intro thread hthread
    rcases List.mem_append.mp hthread with hold | hnew
    · exact Or.inl hold
    · exact Or.inr ⟨guard, List.mem_singleton.mp hnew⟩
  · intro op hop
    simp [pending, (hop guard).symm]

theorem Untouched.sound (untouched : closing.Untouched)
    (fresh : ∀ guard, closing.guards.firsts guard = 0 ∧ closing.guards.lasts guard = 0) :
    Sound layers closing where
  firsts := fun guard => by simp [untouched.1, untouched.2 guard, Once.started, (fresh guard).1]
  active := fun guard => by simp [untouched.1, untouched.2 guard, Once.active]
  lasts := fun guard => by simp [untouched.1, untouched.2 guard, Once.finished, (fresh guard).2]
  below := fun guard hguard => by
    rw [untouched.2 guard] at hguard
    cases hguard
  nested := fun thread hthread => by
    rw [List.flatten_eq_nil_iff.mp untouched.1 thread hthread]
    trivial
  ordered := fun thread hthread => by
    rw [List.flatten_eq_nil_iff.mp untouched.1 thread hthread]
    exact .nil

/-! ## What has been done -/

theorem Sound.lasts_le_one (sound : Sound layers closing) (guard : G) :
    closing.guards.lasts guard ≤ 1 := by
  have hactive := sound.active guard
  have hlasts := sound.lasts guard
  cases honce : closing.guards.once guard <;>
    simp only [honce, Once.active, Once.finished] at hactive hlasts <;> omega

/-- A closed guard has taken its last action exactly once. -/
theorem Sound.lasts_of_done (sound : Sound layers closing)
    (done : closing.guards.once guard = .done) : closing.guards.lasts guard = 1 := by
  have hactive := sound.active guard
  have hlasts := sound.lasts guard
  simp only [done, Once.active, Once.finished] at hactive hlasts
  omega

/-- When nobody is closing, no body is running. -/
theorem Sound.not_running (sound : Sound layers closing) (rest : closing.pending = []) :
    closing.guards.once guard ≠ .running := by
  intro running
  have hactive := sound.active guard
  simp [rest, running, Once.active] at hactive

/-! ## Going on -/

/-- A thread can go on unless it waits for a running body. -/
theorem goes_on_or_waits {rest : List (CloseOp G)} (member : op :: rest ∈ closing.threads) :
    (∃ next after, Step layers closing next after) ∨
      ∃ entered, op = .enter entered ∧ closing.guards.once entered = .running := by
  obtain ⟨front, back, place⟩ := List.append_of_mem member
  cases op with
  | enter entered =>
      cases honce : closing.guards.once entered with
      | idle => exact Or.inl ⟨_, _, .step place (.begin honce)⟩
      | done => exact Or.inl ⟨_, _, .step place (.skip honce)⟩
      | running => exact Or.inr ⟨entered, rfl, honce⟩
  | first entered => exact Or.inl ⟨_, _, .step place (.first entered)⟩
  | last entered => exact Or.inl ⟨_, _, .step place (.last entered)⟩
  | leave entered => exact Or.inl ⟨_, _, .step place (.leave entered)⟩

/-- Some thread is within a running body. -/
theorem Sound.within (sound : Sound layers closing)
    (running : closing.guards.once guard = .running) :
    ∃ op ∈ closing.pending, op.guard = guard ∧ ∀ entered, op ≠ .enter entered := by
  have hactive := sound.active guard
  simp only [running, Once.active] at hactive
  by_cases hfirst : (.first guard) ∈ closing.pending
  · exact ⟨_, hfirst, rfl, nofun⟩
  · by_cases hlast : (.last guard) ∈ closing.pending
    · exact ⟨_, hlast, rfl, nofun⟩
    · refine ⟨.leave guard, List.count_pos_iff.mp ?_, rfl, nofun⟩
      rw [List.count_eq_zero_of_not_mem hfirst, List.count_eq_zero_of_not_mem hlast] at hactive
      omega

/-- While some body is running, some thread can go on. -/
theorem Sound.running_steps (sound : Sound layers closing)
    (running : closing.guards.once guard = .running) :
    ∃ op after, Step layers closing op after := by
  induction hrank : layers.rank guard using Nat.strongRecOn generalizing guard with
  | _ rank ih =>
      obtain ⟨op, hpending, hguard, henter⟩ := sound.within running
      obtain ⟨thread, hthread, hop⟩ := List.mem_flatten.mp hpending
      cases thread with
      | nil => cases hop
      | cons head rest =>
          rcases goes_on_or_waits hthread with steps | ⟨entered, rfl, hentered⟩
          · exact steps
          · -- it waits for a body further below
            rcases List.mem_cons.mp hop with rfl | hrest
            · exact absurd rfl (henter entered)
            · have hbelow := (List.pairwise_cons.mp (sound.ordered _ hthread)).1 op hrest
              rw [hguard, hrank] at hbelow
              exact ih _ hbelow hentered rfl

/-- While something is left to do, some thread can go on. -/
theorem Sound.pending_steps (sound : Sound layers closing) (busy : closing.pending ≠ []) :
    ∃ op after, Step layers closing op after := by
  obtain ⟨op, hpending⟩ := List.exists_mem_of_ne_nil _ busy
  obtain ⟨thread, hthread, hop⟩ := List.mem_flatten.mp hpending
  cases thread with
  | nil => cases hop
  | cons head rest =>
      rcases goes_on_or_waits hthread with steps | ⟨entered, -, hentered⟩
      · exact steps
      · exact sound.running_steps hentered

/-- How much an operation and what it pushes can still do. -/
def weight (layers : Layers G) : CloseOp G → Nat
  | .enter guard => 4 * layers.rank guard + 4
  | .first guard => 4 * layers.rank guard + 3
  | .last _ => 2
  | .leave _ => 1

def work (layers : Layers G) (closing : Closing G) : Nat :=
  (closing.pending.map (weight layers)).sum

omit [DecidableEq G] in
theorem work_spawn (guard : G) :
    (closing.spawn guard).work layers = closing.work layers + (4 * layers.rank guard + 4) := by
  simp [work, pending, Closing.spawn, weight]

theorem Step.work_lt (step : Step layers closing op after) :
    after.work layers < closing.work layers := by
  cases step with
  | @step front back _ rest pushed guards place advances =>
      have hpushed : (pushed.map (weight layers)).sum < weight layers op := by
        cases advances with
        | begin _ => simp [weight]
        | skip _ => simp [weight]
        | first entered =>
            cases hinner : layers.inner entered with
            | none => simp [weight]
            | some below =>
                have hbelow := layers.descends hinner
                simp [weight]
                omega
        | last _ => simp [weight]
        | leave _ => simp [weight]
      simp only [work, pending, place, List.flatten_append, List.flatten_cons, List.map_append,
        List.map_cons, List.sum_append, List.sum_cons]
      omega

/-- A close that has been asked for is not forgotten. -/
theorem Step.asked (step : Step layers closing op after)
    (asked : closing.guards.once guard ≠ .idle ∨ .enter guard ∈ closing.pending) :
    after.guards.once guard ≠ .idle ∨ .enter guard ∈ after.pending := by
  obtain ⟨pushed, advances, hcount⟩ := step.count
  rcases asked with begun | hpending
  · exact Or.inl (advances.begun begun)
  · by_cases hop : op = .enter guard
    · left
      subst hop
      generalize after.guards = later at advances
      cases advances with
      | begin _ => simp
      | skip done => simp [done]
    · right
      have hpositive := List.count_pos_iff.mpr hpending
      have hsame := hcount (.enter guard)
      rw [List.count_singleton, if_neg (by simpa using hop)] at hsame
      exact List.count_pos_iff.mp (by omega)

/-- Within a body the guard below is asked to close. -/
theorem Step.asks_below {below : G} (step : Step layers closing (.first guard) after)
    (inner : layers.inner guard = some below) : .enter below ∈ after.pending := by
  cases step with
  | step place advances =>
      cases advances with
      | first _ => simp [pending, inner]

/-! ## The first thread -/

/-- A step leaves the first thread as it is, or is its own. -/
theorem Step.head {own : List (CloseOp G)} {others : List (List (CloseOp G))}
    (step : Step layers closing op after) (place : closing.threads = own :: others) :
    ∃ next rest, after.threads = next :: rest ∧
      (next = own ∨ ∃ tail pushed, own = op :: tail ∧ next = pushed ++ tail ∧
        Advances layers closing.guards op after.guards pushed) := by
  cases step with
  | @step front back _ tail pushed guards found advances =>
      rw [place] at found
      cases front with
      | nil =>
          obtain ⟨rfl, rfl⟩ := List.cons.inj found
          exact ⟨_, _, rfl, Or.inr ⟨tail, pushed, rfl, rfl, advances⟩⟩
      | cons head front =>
          obtain ⟨rfl, rfl⟩ := List.cons.inj found
          exact ⟨_, _, rfl, Or.inl rfl⟩

end Closing

end OpsUp.Interaction
