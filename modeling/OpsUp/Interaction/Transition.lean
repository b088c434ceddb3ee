import Mathlib.Data.List.Induction

/-!
# Executable transition systems

Several activities over one state are a partial step function: an action names the
activity that goes on and what it meets, and `none` says that it cannot happen now.
A run is a list of actions; every interleaving is one such list.
-/

namespace OpsUp.Interaction

variable {σ τ α β : Type}

/-- The state after some actions, when each of them can happen. -/
def play (step : σ → α → Option σ) : σ → List α → Option σ
  | state, [] => some state
  | state, action :: rest =>
      match step state action with
      | none => none
      | some next => play step next rest

/-- Every action of the run is permitted in the state that it meets. -/
def Always (permitted : σ → α → Prop) (step : σ → α → Option σ) : σ → List α → Prop
  | _, [] => True
  | state, action :: rest =>
      permitted state action ∧
        ∀ next, step state action = some next → Always permitted step next rest

section Play

variable {step : σ → α → Option σ} {start final : σ} {actions front back : List α} {action : α}

@[simp]
theorem play_nil : play step start [] = some start := rfl

theorem play_cons_iff :
    play step start (action :: back) = some final ↔
      ∃ next, step start action = some next ∧ play step next back = some final := by
  cases hstep : step start action with
  | none => simp [play, hstep]
  | some next => simp [play, hstep]

theorem play_append_iff :
    play step start (front ++ back) = some final ↔
      ∃ middle, play step start front = some middle ∧ play step middle back = some final := by
  induction front generalizing start with
  | nil => simp
  | cons action rest ih =>
      simp only [List.cons_append, play_cons_iff, ih]
      constructor
      · rintro ⟨next, hstep, middle, hrest, hback⟩
        exact ⟨middle, ⟨next, hstep, hrest⟩, hback⟩
      · rintro ⟨middle, ⟨next, hstep, hrest⟩, hback⟩
        exact ⟨next, hstep, middle, hrest, hback⟩

theorem play_concat_iff :
    play step start (front ++ [action]) = some final ↔
      ∃ middle, play step start front = some middle ∧ step middle action = some final := by
  rw [play_append_iff]
  refine exists_congr fun middle => and_congr_right fun _ => ?_
  cases hstep : step middle action with
  | none => simp [play, hstep]
  | some next => simp [play, hstep]

/-- The invariant rule: what holds at first and is extended by every step holds after
every run. -/
theorem play_invariant (invariant : List α → σ → Prop) (initial : invariant [] start)
    (extend : ∀ {before : List α} {state next : σ} {action : α},
      play step start before = some state → invariant before state →
        step state action = some next → invariant (before ++ [action]) next)
    (run : play step start actions = some final) : invariant actions final := by
  induction actions using List.reverseRecOn generalizing final with
  | nil =>
      obtain rfl := Option.some.inj run
      exact initial
  | append_singleton front action ih =>
      obtain ⟨middle, hfront, hstep⟩ := play_concat_iff.mp run
      exact extend hfront (ih hfront) hstep

/-- An invariant of the state alone. -/
theorem play_preserves (invariant : σ → Prop) (initial : invariant start)
    (preserve : ∀ {state next : σ} {action : α}, invariant state →
      step state action = some next → invariant next)
    (run : play step start actions = some final) : invariant final :=
  play_invariant (fun _ state => invariant state) initial
    (fun _ held hstep => preserve held hstep) run

/-- An invariant that every permitted action preserves. -/
theorem play_preserves_of_always (invariant : σ → Prop) (permitted : σ → α → Prop)
    (initial : invariant start)
    (preserve : ∀ {state next : σ} {action : α}, permitted state action → invariant state →
      step state action = some next → invariant next)
    (run : play step start actions = some final) (always : Always permitted step start actions) :
    invariant final := by
  induction actions generalizing start with
  | nil =>
      obtain rfl := Option.some.inj run
      exact initial
  | cons action rest ih =>
      obtain ⟨next, hstep, hrest⟩ := play_cons_iff.mp run
      obtain ⟨hpermitted, hafter⟩ := always
      exact ih (preserve hpermitted initial hstep) hrest (hafter next hstep)

/-- Actions that are permitted in every state. -/
theorem always_of_forall {permitted : α → Prop} (all : ∀ action ∈ actions, permitted action) :
    Always (fun _ => permitted) step start actions := by
  induction actions generalizing start with
  | nil => exact trivial
  | cons action rest ih =>
      refine ⟨all action (by simp), fun next _ => ih fun other hother => ?_⟩
      exact all other (List.mem_cons_of_mem _ hother)

theorem always_concat_iff {permitted : σ → α → Prop} :
    Always permitted step start (front ++ [action]) ↔
      Always permitted step start front ∧
        ∀ middle, play step start front = some middle → permitted middle action := by
  induction front generalizing start with
  | nil => simp [Always]
  | cons first rest ih =>
      simp only [List.cons_append, Always, ih, play_cons_iff]
      constructor
      · rintro ⟨hfirst, hrest⟩
        refine ⟨⟨hfirst, fun next hstep => (hrest next hstep).1⟩, ?_⟩
        rintro middle ⟨next, hstep, hplay⟩
        exact (hrest next hstep).2 middle hplay
      · rintro ⟨⟨hfirst, hrest⟩, hlast⟩
        refine ⟨hfirst, fun next hstep => ⟨hrest next hstep, fun middle hplay => ?_⟩⟩
        exact hlast middle ⟨next, hstep, hplay⟩

/-- An invariant that the actions of a permitted kind preserve. -/
theorem play_preserves_of_forall (invariant : σ → Prop) (permitted : α → Prop)
    (initial : invariant start)
    (preserve : ∀ {state next : σ} {action : α}, permitted action → invariant state →
      step state action = some next → invariant next)
    (run : play step start actions = some final) (all : ∀ action ∈ actions, permitted action) :
    invariant final :=
  play_preserves_of_always invariant (fun _ => permitted) initial preserve run
    (always_of_forall all)

end Play

end OpsUp.Interaction
