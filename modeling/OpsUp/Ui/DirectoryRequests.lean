import OpsUp.Ui.Directory

/-!
# The latest listing request

A request that was overtaken, or whose directory was closed or left, is aborted, or meets
a ref that tells it so; the latest request of a directory that stayed open meets the state
in which it was made.
-/

namespace OpsUp.Ui

/-- The rows that an outcome shows. -/
def Outcome.rows {ε : Type} : Outcome ε → List ε
  | .response data => data.getD []
  | .failure _ => []

def Outcome.succeeded {ε : Type} : Outcome ε → Bool
  | .response _ => true
  | .failure _ => false

namespace Directory

open OpsUp.Interaction

variable {ε : Type} {s t : Directory ε}

/-! ## What the operations do to the requests -/

theorem requests_abort {id : Nat} {request : Request ε}
    (made : s.abort.requests id = some request) :
    ∃ before, s.requests id = some before ∧
      request = { before with aborted := before.aborted || decide (s.controller = some id) } := by
  unfold abort at made
  cases hcontroller : s.controller with
  | none =>
      rw [hcontroller] at made
      exact ⟨request, made, by simp⟩
  | some latest =>
      rw [hcontroller] at made
      dsimp only at made
      rw [Function.update_apply] at made
      split at made
      · next hid =>
          subst hid
          obtain ⟨before, hbefore, rfl⟩ := Option.map_eq_some_iff.mp made
          exact ⟨before, hbefore, by simp⟩
      · next hid =>
          have hother : ¬ latest = id := fun hsame => hid hsame.symm
          exact ⟨request, made, by simp [hother]⟩

/-- Only the requests change. -/
theorem abort_eq (s : Directory ε) : s.abort = { s with requests := s.abort.requests } := by
  unfold abort
  split <;> rfl

theorem requests_leave {id : Nat} {request : Request ε}
    (made : s.leave.requests id = some request) :
    ∃ before, s.requests id = some before ∧ request = { before with left := true } := by
  obtain ⟨before, hbefore, rfl⟩ := Option.map_eq_some_iff.mp made
  exact ⟨before, hbefore, rfl⟩

theorem requests_loadFiles {serverId : Int} {path : String} {id : Nat} {request : Request ε}
    (made : (s.loadFiles serverId path).requests id = some request) :
    (id = s.generation + 1 ∧ request =
      { serverId := serverId, path := path, aborted := false, outcome := none,
        shown := s.visible.isOpen, left := false }) ∨
    s.abort.requests id = some request := by
  unfold loadFiles at made
  rw [abort_eq] at made
  dsimp only at made
  rw [Function.update_apply] at made
  split at made
  · next hid => exact .inl ⟨hid, (Option.some.inj made).symm⟩
  · exact .inr made

/-! ## The invariant -/

/-- The effect has yet to run again. -/
def Pending (s : Directory ε) : Prop :=
  ∃ deps, s.effect = some deps ∧ deps ≠ (s.visible.isOpen, s.visible.serverId)

/-- Requests that are not the latest are aborted, and so are those that were left, at the
latest when the effect runs. -/
structure Tracked (s : Directory ε) : Prop where
  fresh : ∀ id request, s.requests id = some request → id ≤ s.generation
  superseded : ∀ id request, s.requests id = some request → s.controller ≠ some id →
    request.aborted = true
  same : ∀ id request, s.requests id = some request → request.left = false →
    request.serverId = s.visible.serverId
  gone : ∀ id request, s.requests id = some request → request.left = true →
    request.aborted = true ∨
      (s.visible.isOpen = false ∨ s.visible.serverId ≠ request.serverId) ∧ s.Pending

/-- The latest request of a directory that stayed open. -/
structure Awaited (id : Nat) (request : Request ε) (s : Directory ε) : Prop where
  aborted : request.aborted = false
  generation : s.generation = id
  isOpen : s.visible.isOpen = true
  path : s.currentPath = request.path
  waiting : request.outcome = none → s.files = [] ∧ s.ready = false ∧ s.loading = true

structure Served (s : Directory ε) : Prop extends Tracked s where
  staying : ∀ id request, s.controller = some id → s.requests id = some request →
    request.shown = true → request.left = false → Awaited id request s

theorem Tracked.loadFiles (tracked : Tracked s) (path : String) :
    Served (s.loadFiles s.visible.serverId path) := by
  have hold : ∀ {id : Nat} {request : Request ε}, s.abort.requests id = some request →
      id ≤ s.generation ∧ request.aborted = true ∧
        (request.left = false → request.serverId = s.visible.serverId) := by
    intro id request hrequest
    obtain ⟨before, hbefore, rfl⟩ := requests_abort hrequest
    refine ⟨tracked.fresh id before hbefore, ?_, tracked.same id before hbefore⟩
    by_cases hlatest : s.controller = some id
    · simp [hlatest]
    · simp [tracked.superseded id before hbefore hlatest]
  have hserver : (s.loadFiles s.visible.serverId path).visible.serverId = s.visible.serverId := by
    unfold Directory.loadFiles
    rw [abort_eq]
  have hgeneration : (s.loadFiles s.visible.serverId path).generation = s.generation + 1 := by
    unfold Directory.loadFiles
    rw [abort_eq]
  have hcontroller : (s.loadFiles s.visible.serverId path).controller = some (s.generation + 1) := by
    unfold Directory.loadFiles
    rw [abort_eq]
  refine ⟨⟨?_, ?_, ?_, ?_⟩, ?_⟩
  · intro id request hmade
    rw [hgeneration]
    rcases requests_loadFiles hmade with ⟨rfl, -⟩ | hbefore
    · exact Nat.le_refl _
    · exact Nat.le_succ_of_le (hold hbefore).1
  · intro id request hmade hother
    rw [hcontroller] at hother
    rcases requests_loadFiles hmade with ⟨rfl, -⟩ | hbefore
    · exact absurd rfl hother
    · exact (hold hbefore).2.1
  · intro id request hmade hstayed
    rw [hserver]
    rcases requests_loadFiles hmade with ⟨-, rfl⟩ | hbefore
    · rfl
    · exact (hold hbefore).2.2 hstayed
  · intro id request hmade hleft
    rcases requests_loadFiles hmade with ⟨-, rfl⟩ | hbefore
    · cases hleft
    · exact .inl (hold hbefore).2.1
  · intro id request hlatest hmade hshown _
    rw [hcontroller] at hlatest
    obtain rfl := Option.some.inj hlatest
    rcases requests_loadFiles hmade with ⟨-, rfl⟩ | hbefore
    · unfold Directory.loadFiles
      rw [abort_eq]
      exact ⟨rfl, rfl, hshown, rfl, fun _ => ⟨rfl, rfl, rfl⟩⟩
    · exact absurd (hold hbefore).1 (Nat.not_succ_le_self _)

/-! ## Effects and renders -/

theorem cleanup_eq (s : Directory ε) :
    s.cleanup = { s with generation := s.generation + 1, requests := s.cleanup.requests } := by
  unfold cleanup
  rw [abort_eq]

theorem Tracked.requests_cleanup (tracked : Tracked s) {id : Nat} {request : Request ε}
    (made : s.cleanup.requests id = some request) :
    ∃ before, s.requests id = some before ∧ request = { before with aborted := true } := by
  obtain ⟨before, hbefore, rfl⟩ := requests_abort made
  refine ⟨before, hbefore, ?_⟩
  by_cases hlatest : s.controller = some id
  · simp [hlatest]
  · simp [tracked.superseded id before hbefore hlatest]

/-- An effect that runs first cleans up after the last run, if there was one. -/
theorem runEffects_cases (s : Directory ε) :
    (s.effect = some (s.visible.isOpen, s.visible.serverId) ∧ s.runEffects = s) ∨
      ∃ t, ((s.effect = none ∧
            t = { s with effect := some (s.visible.isOpen, s.visible.serverId) }) ∨
          (s.Pending ∧
            t = { s.cleanup with effect := some (s.visible.isOpen, s.visible.serverId) })) ∧
        s.runEffects =
          if s.visible.isOpen = true then t.loadFiles t.visible.serverId "/" else t := by
  unfold runEffects
  cases heffect : s.effect with
  | none =>
      refine .inr ⟨_, .inl ⟨rfl, rfl⟩, ?_⟩
      rfl
  | some deps =>
      by_cases hsame : deps = (s.visible.isOpen, s.visible.serverId)
      · refine .inl ⟨congrArg some hsame, ?_⟩
        rw [hsame]
        exact if_pos rfl
      · refine .inr ⟨_, .inr ⟨⟨deps, heffect, hsame⟩, rfl⟩, ?_⟩
        rw [cleanup_eq]
        exact if_neg fun heq => hsame (Option.some.inj heq)

theorem effect_loadFiles (serverId : Int) (path : String) (s : Directory ε) :
    (s.loadFiles serverId path).effect = s.effect ∧
      (s.loadFiles serverId path).visible = { s.visible with path := path } := by
  unfold loadFiles
  rw [abort_eq]
  exact ⟨rfl, rfl⟩

theorem runEffects_settled (s : Directory ε) :
    s.runEffects.visible.isOpen = s.visible.isOpen ∧
      s.runEffects.visible.serverId = s.visible.serverId ∧
      s.runEffects.effect = some (s.visible.isOpen, s.visible.serverId) := by
  rcases s.runEffects_cases with ⟨heffect, hrun⟩ | ⟨t, hcleaned, hrun⟩
  · rw [hrun]
    exact ⟨rfl, rfl, heffect⟩
  · have ht : t.visible = s.visible ∧ t.effect = some (s.visible.isOpen, s.visible.serverId) := by
      rcases hcleaned with ⟨-, rfl⟩ | ⟨-, rfl⟩
      · exact ⟨rfl, rfl⟩
      · rw [cleanup_eq]
        exact ⟨rfl, rfl⟩
    rw [hrun]
    split
    · obtain ⟨heffect, hvisible⟩ := effect_loadFiles t.visible.serverId "/" t
      rw [heffect, hvisible]
      dsimp only
      rw [ht.1, ht.2]
      exact ⟨rfl, rfl, rfl⟩
    · rw [ht.1, ht.2]
      exact ⟨rfl, rfl, rfl⟩

/-- The first effect has nothing to clean up. -/
theorem Served.firstEffect (served : Served s) (first : s.effect = none) (deps : Bool × Int) :
    Served { s with effect := some deps } := by
  refine ⟨⟨served.fresh, served.superseded, served.same, ?_⟩, ?_⟩
  · intro id request hmade hleft
    rcases served.gone id request hmade hleft with haborted | ⟨-, ran, hran, -⟩
    · exact .inl haborted
    · rw [first] at hran
      cases hran
  · intro id request hlatest hmade hshown hstayed
    have hawaited := served.staying id request hlatest hmade hshown hstayed
    exact ⟨hawaited.aborted, hawaited.generation, hawaited.isOpen, hawaited.path, hawaited.waiting⟩

/-- After a clean-up every request is aborted. -/
theorem Tracked.cleanup (tracked : Tracked s) (effect : Option (Bool × Int)) :
    Tracked { s.cleanup with effect := effect } := by
  rw [cleanup_eq]
  refine ⟨?_, ?_, ?_, ?_⟩
  · intro id request hmade
    obtain ⟨before, hbefore, -⟩ := tracked.requests_cleanup hmade
    exact Nat.le_succ_of_le (tracked.fresh id before hbefore)
  · intro id request hmade _
    obtain ⟨before, -, rfl⟩ := tracked.requests_cleanup hmade
    rfl
  · intro id request hmade hstayed
    obtain ⟨before, hbefore, rfl⟩ := tracked.requests_cleanup hmade
    exact tracked.same id before hbefore hstayed
  · intro id request hmade _
    obtain ⟨before, -, rfl⟩ := tracked.requests_cleanup hmade
    exact .inl rfl

/-- A closed directory awaits nothing. -/
theorem Served.cleanup_closed (served : Served s) (closed : s.visible.isOpen = false)
    (effect : Option (Bool × Int)) : Served { s.cleanup with effect := effect } := by
  refine ⟨served.toTracked.cleanup effect, ?_⟩
  intro id request hlatest hmade hshown hstayed
  rw [cleanup_eq] at hlatest
  obtain ⟨before, hbefore, rfl⟩ := served.requests_cleanup hmade
  have hopen := (served.staying id before hlatest hbefore hshown hstayed).isOpen
  rw [closed] at hopen
  cases hopen

theorem Served.runEffects (served : Served s) : Served s.runEffects := by
  rcases s.runEffects_cases with ⟨-, hrun⟩ | ⟨t, ⟨hnone, rfl⟩ | ⟨-, rfl⟩, hrun⟩
  · rw [hrun]
    exact served
  · have hfirst := served.firstEffect hnone (s.visible.isOpen, s.visible.serverId)
    rw [hrun]
    split
    · exact hfirst.toTracked.loadFiles "/"
    · exact hfirst
  · rw [hrun]
    split
    · exact (served.toTracked.cleanup _).loadFiles "/"
    · next hclosed => exact served.cleanup_closed (Bool.eq_false_iff.mpr hclosed) _

/-- A render that closes the directory or changes the server. -/
theorem Served.leave_commit (served : Served s)
    (ran : s.effect = some (s.visible.isOpen, s.visible.serverId)) {isOpen : Bool}
    {serverId : Int} (leaves : (s.visible.isOpen ∧ ¬ isOpen) ∨ s.visible.serverId ≠ serverId) :
    Served (s.leave.commit isOpen serverId) := by
  have hpending : Pending (s.leave.commit isOpen serverId) := by
    refine ⟨_, ran, fun hsame => ?_⟩
    have hopen : s.visible.isOpen = isOpen := congrArg Prod.fst hsame
    rcases leaves with ⟨hwas, hnow⟩ | hchanged
    · exact hnow (hopen.symm.trans hwas)
    · exact hchanged (congrArg Prod.snd hsame)
  refine ⟨⟨?_, ?_, ?_, ?_⟩, ?_⟩
  · intro id request hmade
    obtain ⟨before, hbefore, -⟩ := requests_leave hmade
    exact served.fresh id before hbefore
  · intro id request hmade hother
    obtain ⟨before, hbefore, rfl⟩ := requests_leave hmade
    exact served.superseded id before hbefore hother
  · intro id request hmade hstayed
    obtain ⟨before, -, rfl⟩ := requests_leave hmade
    cases hstayed
  · intro id request hmade _
    obtain ⟨before, hbefore, rfl⟩ := requests_leave hmade
    cases hleft : before.left with
    | true =>
        rcases served.gone id before hbefore hleft with haborted | ⟨-, deps, hdeps, hchanged⟩
        · exact .inl haborted
        · rw [ran] at hdeps
          exact absurd (Option.some.inj hdeps).symm hchanged
    | false =>
        have hserver := served.same id before hbefore hleft
        refine .inr ⟨?_, hpending⟩
        rcases leaves with ⟨-, hnow⟩ | hchanged
        · exact .inl (Bool.eq_false_iff.mpr hnow)
        · refine .inr fun hsame => hchanged ?_
          exact (hserver.symm.trans hsame.symm)
  · intro id request _ hmade _ hstayed
    obtain ⟨before, -, rfl⟩ := requests_leave hmade
    cases hstayed

/-- A render with the server as before, and no less open. -/
theorem Served.stay_commit (served : Served s)
    (ran : s.effect = some (s.visible.isOpen, s.visible.serverId)) {isOpen : Bool}
    {serverId : Int} (stays : ¬ ((s.visible.isOpen ∧ ¬ isOpen) ∨ s.visible.serverId ≠ serverId)) :
    Served (s.commit isOpen serverId) := by
  obtain ⟨hopen, hserver⟩ := not_or.mp stays
  obtain rfl : s.visible.serverId = serverId := Classical.not_not.mp hserver
  refine ⟨⟨served.fresh, served.superseded, served.same, ?_⟩, ?_⟩
  · intro id request hmade hleft
    rcases served.gone id request hmade hleft with haborted | ⟨-, deps, hdeps, hchanged⟩
    · exact .inl haborted
    · rw [ran] at hdeps
      exact absurd (Option.some.inj hdeps).symm hchanged
  · intro id request hlatest hmade hshown hstayed
    have hawaited := served.staying id request hlatest hmade hshown hstayed
    refine ⟨hawaited.aborted, hawaited.generation, ?_, hawaited.path, hawaited.waiting⟩
    exact Classical.not_not.mp fun hclosed => hopen ⟨hawaited.isOpen, hclosed⟩

theorem Served.render (served : Served s) (isOpen : Bool) (serverId : Int) :
    Served (s.render isOpen serverId) := by
  obtain ⟨hopen, hserver, heffect⟩ := s.runEffects_settled
  rw [← hopen, ← hserver] at heffect
  unfold Directory.render
  dsimp only
  split
  · next hleaves => exact served.runEffects.leave_commit heffect hleaves
  · next hstays => exact served.runEffects.stay_commit heffect hstays

theorem Served.unmount (served : Served s) : Served s.unmount := by
  have hmade : ∀ {id : Nat} {request : Request ε}, s.unmount.requests id = some request →
      id ≤ s.unmount.generation ∧ request.aborted = true ∧ request.left = true := by
    intro id request hrequest
    obtain ⟨cleaned, hcleaned, rfl⟩ := requests_leave hrequest
    obtain ⟨before, hbefore, rfl⟩ := served.runEffects.toTracked.requests_cleanup hcleaned
    refine ⟨?_, rfl, rfl⟩
    have hgeneration : s.unmount.generation = s.runEffects.generation + 1 := by
      unfold Directory.unmount leave
      rw [cleanup_eq]
    rw [hgeneration]
    exact Nat.le_succ_of_le (served.runEffects.fresh id before hbefore)
  refine ⟨⟨?_, ?_, ?_, ?_⟩, ?_⟩
  · exact fun id request hrequest => (hmade hrequest).1
  · exact fun id request hrequest _ => (hmade hrequest).2.1
  · intro id request hrequest hstayed
    rw [(hmade hrequest).2.2] at hstayed
    cases hstayed
  · exact fun id request hrequest _ => .inl (hmade hrequest).2.1
  · intro id request _ hrequest _ hstayed
    rw [(hmade hrequest).2.2] at hstayed
    cases hstayed

/-! ## Completions -/

/-- The state in which a completed request goes on. -/
def completed (id : Nat) (request : Request ε) (outcome : Outcome ε) (s : Directory ε) :
    Directory ε :=
  { s with
    requests := Function.update s.requests id (some { request with outcome := some outcome }) }

theorem complete_eq_some_iff {id : Nat} {outcome : Outcome ε} :
    s.complete id outcome = some t ↔
      ∃ request, s.requests id = some request ∧ request.outcome = none ∧
        ((s.completed id request outcome).settle id request outcome).finish id request = t := by
  unfold complete
  cases hmade : s.requests id with
  | none => simp
  | some request =>
      cases houtcome : request.outcome with
      | none => simp [completed, houtcome]
      | some before => simp [houtcome]

theorem settle_of_not_current {id : Nat} {request : Request ε} (outcome : Outcome ε)
    (stale : ¬ s.current id request) :
    (s.settle id request outcome).finish id request = s := by
  have hsettle : s.settle id request outcome = s := by
    cases outcome with
    | response data => exact if_neg stale
    | failure error => exact if_neg stale
  rw [hsettle]
  exact if_neg stale

theorem settle_of_current {id : Nat} {request : Request ε} (outcome : Outcome ε)
    (current : s.current id request) :
    (s.settle id request outcome).finish id request =
      match outcome with
      | .response data => { s with files := data.getD [], ready := true, loading := false }
      | .failure error =>
          { s with
            errors := s.errors ++ [if error = "" then "加载文件列表失败" else error]
            loading := false } := by
  cases outcome with
  | response data =>
      have hsettle : s.settle id request (.response data) =
          { s with files := data.getD [], ready := true } := if_pos current
      rw [hsettle]
      exact if_pos current
  | failure error =>
      have hsettle : s.settle id request (.failure error) =
          { s with errors := s.errors ++ [if error = "" then "加载文件列表失败" else error] } :=
        if_pos current
      rw [hsettle]
      exact if_pos current

/-- A request that was overtaken, or whose directory was closed or left, does nothing. -/
theorem Tracked.stale (tracked : Tracked s) {id : Nat} {request : Request ε}
    (made : s.requests id = some request)
    (stale : s.controller ≠ some id ∨ request.left = true ∨ s.visible.isOpen = false) :
    ¬ s.current id request := by
  rintro ⟨hsignal, -, hopen, hserver⟩
  rcases stale with hother | hleft | hclosed
  · rw [tracked.superseded id request made hother] at hsignal
    cases hsignal
  · rcases tracked.gone id request made hleft with haborted | ⟨hclosed | hchanged, -⟩
    · rw [haborted] at hsignal
      cases hsignal
    · rw [hclosed] at hopen
      cases hopen
    · exact hchanged hserver
  · rw [hclosed] at hopen
    cases hopen

theorem requests_completed {id other : Nat} {request found : Request ε} {outcome : Outcome ε}
    (made : (s.completed id request outcome).requests other = some found) :
    (other = id ∧ found = { request with outcome := some outcome }) ∨
      (other ≠ id ∧ s.requests other = some found) := by
  dsimp only [completed] at made
  rw [Function.update_apply] at made
  split at made
  · next hid => exact .inl ⟨hid, (Option.some.inj made).symm⟩
  · next hid => exact .inr ⟨hid, made⟩

/-- Whatever becomes of the state, the request that completed is not awaited any more. -/
theorem Served.complete_to (served : Served s) {id : Nat} {request : Request ε}
    (made : s.requests id = some request) {outcome : Outcome ε} (files : List ε)
    (ready loading : Bool) (errors : List String)
    (same : s.controller ≠ some id →
      files = s.files ∧ ready = s.ready ∧ loading = s.loading ∧ errors = s.errors) :
    Served { s.completed id request outcome with
      files := files, ready := ready, loading := loading, errors := errors } := by
  have hmade : ∀ {other : Nat} {found : Request ε},
      (s.completed id request outcome).requests other = some found →
      ∃ before, s.requests other = some before ∧
        found = { before with outcome := found.outcome } := by
    intro other found hfound
    rcases requests_completed hfound with ⟨rfl, rfl⟩ | ⟨-, hbefore⟩
    · exact ⟨request, made, rfl⟩
    · exact ⟨found, hbefore, rfl⟩
  refine ⟨⟨?_, ?_, ?_, ?_⟩, ?_⟩
  · intro other found hfound
    obtain ⟨before, hbefore, -⟩ := hmade hfound
    exact served.fresh other before hbefore
  · intro other found hfound hother
    obtain ⟨before, hbefore, hflags⟩ := hmade hfound
    rw [hflags]
    exact served.superseded other before hbefore hother
  · intro other found hfound hstayed
    obtain ⟨before, hbefore, hflags⟩ := hmade hfound
    rw [hflags] at hstayed ⊢
    exact served.same other before hbefore hstayed
  · intro other found hfound hleft
    obtain ⟨before, hbefore, hflags⟩ := hmade hfound
    rw [hflags] at hleft ⊢
    exact served.gone other before hbefore hleft
  · intro other found hlatest hfound hshown hstayed
    rcases requests_completed hfound with ⟨rfl, rfl⟩ | ⟨hid, hbefore⟩
    · have hawaited := served.staying other request hlatest made hshown hstayed
      exact ⟨hawaited.aborted, hawaited.generation, hawaited.isOpen, hawaited.path, nofun⟩
    · have hawaited := served.staying other found hlatest hbefore hshown hstayed
      obtain ⟨rfl, rfl, rfl, -⟩ := same fun hsame =>
        hid (Option.some.inj (hlatest.symm.trans hsame))
      exact ⟨hawaited.aborted, hawaited.generation, hawaited.isOpen, hawaited.path,
        hawaited.waiting⟩

theorem Served.complete (served : Served s) {id : Nat} {outcome : Outcome ε}
    (step : s.complete id outcome = some t) : Served t := by
  obtain ⟨request, hmade, -, rfl⟩ := complete_eq_some_iff.mp step
  by_cases hcurrent : (s.completed id request outcome).current id request
  · have hlatest : ¬ s.controller ≠ some id :=
      fun hother => served.stale hmade (.inl hother) hcurrent
    rw [settle_of_current outcome hcurrent]
    cases outcome with
    | response data =>
        exact served.complete_to hmade _ _ _ _ fun hother => absurd hother hlatest
    | failure error =>
        exact served.complete_to hmade _ _ _ _ fun hother => absurd hother hlatest
  · rw [settle_of_not_current outcome hcurrent]
    exact served.complete_to hmade _ _ _ _ fun _ => ⟨rfl, rfl, rfl, rfl⟩

/-! ## Runs -/

theorem served_mount (isOpen : Bool) (serverId : Int) :
    Served (mount isOpen serverId : Directory ε) :=
  ⟨⟨nofun, nofun, nofun, nofun⟩, nofun⟩

theorem Served.refresh (served : Served s) (r : Render ε) : Served (s.refresh r) := by
  unfold Directory.refresh
  split
  · next hcurrent =>
      obtain ⟨-, -, hserver, -⟩ := hcurrent
      rw [← hserver]
      exact served.toTracked.loadFiles r.currentPath
  · exact served

theorem Served.step (served : Served s) {action : DirectoryAction ε}
    (present : ∀ index path, action ≠ .earlierLoadFiles index path)
    (step : s.step action = some t) : Served t := by
  cases stepped_of_step step with
  | render => exact served.render _ _
  | effects => exact served.runEffects
  | unmount => exact served.unmount
  | loadFiles => exact served.toTracked.loadFiles _
  | earlierLoadFiles => exact absurd rfl (present _ _)
  | refresh => exact served.refresh _
  | complete completes => exact served.complete completes

/-- What the completion of a request does to what is shown. -/
theorem Served.completion (served : Served s) {id : Nat} {request : Request ε}
    {outcome : Outcome ε} (made : s.requests id = some request)
    (step : s.complete id outcome = some t) :
    (s.controller ≠ some id ∨ request.left = true ∨ s.visible.isOpen = false →
      t.files = s.files ∧ t.ready = s.ready ∧ t.loading = s.loading ∧ t.errors = s.errors) ∧
    (s.controller = some id → request.shown = true → request.left = false →
      t.currentPath = request.path ∧ t.loading = false ∧
        t.files = outcome.rows ∧ t.ready = outcome.succeeded) := by
  obtain ⟨found, hfound, hwaiting, rfl⟩ := complete_eq_some_iff.mp step
  obtain rfl := Option.some.inj (made.symm.trans hfound)
  constructor
  · intro hstale
    have hcurrent : ¬ (s.completed id request outcome).current id request :=
      served.stale made hstale
    rw [settle_of_not_current outcome hcurrent]
    exact ⟨rfl, rfl, rfl, rfl⟩
  · intro hlatest hshown hstayed
    have hawaited := served.staying id request hlatest made hshown hstayed
    have hcurrent : (s.completed id request outcome).current id request :=
      ⟨hawaited.aborted, hawaited.generation, hawaited.isOpen,
        (served.same id request made hstayed).symm⟩
    obtain ⟨hfiles, hready, -⟩ := hawaited.waiting hwaiting
    rw [settle_of_current outcome hcurrent]
    cases outcome with
    | response data => exact ⟨hawaited.path, rfl, rfl, rfl⟩
    | failure error => exact ⟨hawaited.path, rfl, hfiles, hready⟩

/--
In every run with calls of the current render's `loadFiles`, a request that was overtaken,
or whose directory was closed or left, changes nothing when it completes; the latest
request of a directory that stayed open shows its own path and its own outcome.
-/
theorem latestRequest_wins {isOpen : Bool} {serverId : Int} {actions : List (DirectoryAction ε)}
    (run : play Directory.step (mount isOpen serverId) actions = some s)
    (present : ∀ action ∈ actions, ∀ index path, action ≠ .earlierLoadFiles index path) :
    ∀ id request outcome t, s.requests id = some request →
      s.step (.complete id outcome) = some t →
      (s.controller ≠ some id ∨ request.left = true ∨ s.visible.isOpen = false →
        t.files = s.files ∧ t.ready = s.ready ∧ t.loading = s.loading ∧ t.errors = s.errors) ∧
      (s.controller = some id → request.shown = true → request.left = false →
        t.currentPath = request.path ∧ t.loading = false ∧
          t.files = outcome.rows ∧ t.ready = outcome.succeeded) := by
  have hserved : Served s := by
    refine play_preserves_of_forall Served
      (fun action => ∀ index path, action ≠ .earlierLoadFiles index path)
      (served_mount isOpen serverId) ?_ run present
    exact fun hpresent hserved hstep => hserved.step hpresent hstep
  intro id request outcome t hmade hstep
  exact hserved.completion hmade hstep

/-- Two listings, of which the first completes last. -/
def overtaken : List (DirectoryAction String) :=
  [.effects, .loadFiles "/new", .complete 2 (.response (some ["row"]))]

theorem latestRequest_wins_overtaken :
    ∃ s t : Directory String, play Directory.step (mount true 1) overtaken = some s ∧
      s.step (.complete 1 (.response (some ["old"]))) = some t ∧ s.files = ["row"] ∧
      t.files = ["row"] := by
  have hview : (play Directory.step (mount true 1 : Directory String) overtaken).map
      (fun s => (s.files, s.controller, (s.requests 1).isSome,
        (s.step (.complete 1 (.response (some ["old"])))).isSome)) =
        some (["row"], some 2, true, true) := rfl
  obtain ⟨s, hrun, hstate⟩ := Option.map_eq_some_iff.mp hview
  simp only [Prod.mk.injEq] at hstate
  obtain ⟨hfiles, hcontroller, hmade, hstep⟩ := hstate
  obtain ⟨request, hrequest⟩ := Option.isSome_iff_exists.mp hmade
  obtain ⟨t, ht⟩ := Option.isSome_iff_exists.mp hstep
  have hovertaken : s.controller ≠ some 1 := by
    rw [hcontroller]
    decide
  have hpresent : ∀ action ∈ overtaken, ∀ index path, action ≠ .earlierLoadFiles index path := by
    simp [overtaken]
  obtain ⟨hunchanged, -⟩ :=
    latestRequest_wins hrun hpresent 1 request (.response (some ["old"])) t hrequest ht
  exact ⟨s, t, hrun, ht, hfiles, (hunchanged (.inl hovertaken)).1.trans hfiles⟩

end Directory

end OpsUp.Ui
