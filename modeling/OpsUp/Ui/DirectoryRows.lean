import OpsUp.Ui.DirectoryRequests

/-!
# The rows of the file manager

A render offers its rows for use while its capture is current.  The capture compares the
generation, which the clean-up advances only after the render, and the server, which the
render itself has written into the ref; so a render for another server takes the rows of
the server before until its effects run.
-/

namespace OpsUp.Ui

namespace Directory

open OpsUp.Interaction

variable {ε : Type} {s t : Directory ε}

/-- The files of the render are the response to a request for its server and its path. -/
def Listed (s : Directory ε) (r : Render ε) : Prop :=
  ∃ id request data, s.requests id = some request ∧
    request.outcome = some (.response data) ∧ r.files = data.getD [] ∧
    request.serverId = r.serverId ∧ request.path = r.currentPath

/-- No render gives another server to a directory that stays open and, its effects run,
is ready. -/
def Steady (s : Directory ε) : DirectoryAction ε → Prop
  | .render isOpen serverId =>
      s.visible.isOpen = true → isOpen = true → s.runEffects.ready = true →
        serverId = s.visible.serverId
  | _ => True

/-! ## Responses stay -/

/-- A response that was received is still known. -/
def Remembers (s t : Directory ε) : Prop :=
  ∀ id request data, s.requests id = some request → request.outcome = some (.response data) →
    ∃ later, t.requests id = some later ∧ later.outcome = some (.response data) ∧
      later.serverId = request.serverId ∧ later.path = request.path

theorem Remembers.listed (remembers : Remembers s t) {r : Render ε} (listed : Listed s r) :
    Listed t r := by
  obtain ⟨id, request, data, hmade, houtcome, hfiles, hserver, hpath⟩ := listed
  obtain ⟨later, hlater, houtcome', hserver', hpath'⟩ :=
    remembers id request data hmade houtcome
  exact ⟨id, later, data, hlater, houtcome', hfiles, hserver'.trans hserver, hpath'.trans hpath⟩

theorem remembers_abort (s : Directory ε) : Remembers s s.abort := by
  intro id request data hmade houtcome
  unfold abort
  cases s.controller with
  | none => exact ⟨request, hmade, houtcome, rfl, rfl⟩
  | some latest =>
      dsimp only
      rw [Function.update_apply]
      split
      · next hid =>
          rw [← hid, hmade]
          exact ⟨_, rfl, houtcome, rfl, rfl⟩
      · exact ⟨request, hmade, houtcome, rfl, rfl⟩

theorem remembers_leave (s : Directory ε) : Remembers s s.leave := by
  intro id request data hmade houtcome
  dsimp only [leave]
  rw [hmade]
  exact ⟨_, rfl, houtcome, rfl, rfl⟩

theorem remembers_completed {id : Nat} {request : Request ε} (made : s.requests id = some request)
    (waiting : request.outcome = none) (outcome : Outcome ε) :
    Remembers s (s.completed id request outcome) := by
  intro other found data hfound houtcome
  have hid : other ≠ id := by
    rintro rfl
    obtain rfl := Option.some.inj (made.symm.trans hfound)
    rw [waiting] at houtcome
    cases houtcome
  refine ⟨found, ?_, houtcome, rfl, rfl⟩
  dsimp only [completed]
  rw [Function.update_of_ne hid]
  exact hfound

/-! ## Where ready rows come from -/

/-- The server is the one that the last render showed, or the directory has been closed
and the effect has yet to run. -/
def Shown (s : Directory ε) (serverId : Int) : Prop :=
  (s.visible.isOpen = true ∧ serverId = s.visible.serverId) ∨
    (s.visible.isOpen = false ∧ s.Pending)

/-- The files are the response to the request of the rendered generation. -/
def Sourced (s : Directory ε) : Prop :=
  ∃ request data, s.requests s.renderedGeneration = some request ∧
    request.outcome = some (.response data) ∧ s.files = data.getD [] ∧
    request.path = s.currentPath ∧
    (s.renderedGeneration = s.generation → Shown s request.serverId)

structure Rows (s : Directory ε) : Prop where
  fresh : ∀ id request, s.requests id = some request → id ≤ s.generation
  rendered_le : s.renderedGeneration ≤ s.generation
  latest : ∀ request, s.requests s.generation = some request →
    s.renderedGeneration = s.generation ∧ s.currentPath = request.path
  path : s.visible.path = s.currentPath
  source : s.ready = true → Sourced s
  renders : ∀ r ∈ s.rendered, r.renderedGeneration ≤ s.generation ∧
    (r.ready = true → r.renderedGeneration = s.generation → Listed s r)

theorem Rows.loadFiles (rows : Rows s) (serverId : Int) (path : String) :
    Rows (s.loadFiles serverId path) := by
  have hold : ∀ {id : Nat} {request : Request ε}, s.abort.requests id = some request →
      id ≤ s.generation := by
    intro id request hmade
    obtain ⟨before, hbefore, -⟩ := requests_abort hmade
    exact rows.fresh id before hbefore
  have hfields : (s.loadFiles serverId path).generation = s.generation + 1 ∧
      (s.loadFiles serverId path).renderedGeneration = s.generation + 1 ∧
      (s.loadFiles serverId path).currentPath = path ∧
      (s.loadFiles serverId path).visible.path = path ∧
      (s.loadFiles serverId path).ready = false ∧
      (s.loadFiles serverId path).rendered = s.rendered := by
    unfold Directory.loadFiles
    rw [abort_eq]
    exact ⟨rfl, rfl, rfl, rfl, rfl, rfl⟩
  obtain ⟨hgeneration, hrenderedGeneration, hcurrentPath, hpath, hready, hrendered⟩ := hfields
  refine ⟨?_, ?_, ?_, hpath.trans hcurrentPath.symm, ?_, ?_⟩
  · intro id request hmade
    rw [hgeneration]
    rcases requests_loadFiles hmade with ⟨rfl, -⟩ | hbefore
    · exact Nat.le_refl _
    · exact Nat.le_succ_of_le (hold hbefore)
  · exact Nat.le_of_eq (hrenderedGeneration.trans hgeneration.symm)
  · intro request hmade
    rw [hgeneration] at hmade
    refine ⟨hrenderedGeneration.trans hgeneration.symm, ?_⟩
    rcases requests_loadFiles hmade with ⟨-, rfl⟩ | hbefore
    · exact hcurrentPath
    · exact absurd (hold hbefore) (Nat.not_succ_le_self _)
  · intro hshown
    rw [hready] at hshown
    cases hshown
  · intro r hr
    rw [hrendered] at hr
    rw [hgeneration]
    have hle := (rows.renders r hr).1
    exact ⟨Nat.le_succ_of_le hle, fun _ heq => absurd (heq ▸ hle) (Nat.not_succ_le_self _)⟩

/-- After a clean-up no capture is current. -/
theorem Rows.cleanup (rows : Rows s) (effect : Option (Bool × Int)) :
    Rows { s.cleanup with effect := effect } := by
  have hold : ∀ {id : Nat} {request : Request ε}, s.cleanup.requests id = some request →
      id ≤ s.generation := by
    intro id request hmade
    obtain ⟨before, hbefore, -⟩ := requests_abort hmade
    exact rows.fresh id before hbefore
  have hnone : s.cleanup.requests (s.generation + 1) = none := by
    cases hnext : s.cleanup.requests (s.generation + 1) with
    | none => rfl
    | some request => exact absurd (hold hnext) (Nat.not_succ_le_self _)
  have hremembers : Remembers s s.cleanup :=
    remembers_abort { s with generation := s.generation + 1 }
  rw [cleanup_eq]
  refine ⟨?_, Nat.le_succ_of_le rows.rendered_le, ?_, rows.path, ?_, ?_⟩
  · exact fun id request hmade => Nat.le_succ_of_le (hold hmade)
  · intro request hmade
    exact absurd (hnone.symm.trans hmade) nofun
  · intro hready
    obtain ⟨request, data, hmade, houtcome, hfiles, hpath, -⟩ := rows.source hready
    obtain ⟨later, hlater, houtcome', -, hpath'⟩ :=
      hremembers _ request data hmade houtcome
    refine ⟨later, data, hlater, houtcome', hfiles, hpath'.trans hpath, fun heq => ?_⟩
    exact absurd (heq ▸ rows.rendered_le) (Nat.not_succ_le_self _)
  · intro r hr
    have hle := (rows.renders r hr).1
    exact ⟨Nat.le_succ_of_le hle, fun _ heq => absurd (heq ▸ hle) (Nat.not_succ_le_self _)⟩

theorem Rows.firstEffect (rows : Rows s) (first : s.effect = none) (deps : Bool × Int) :
    Rows { s with effect := some deps } := by
  refine ⟨rows.fresh, rows.rendered_le, rows.latest, rows.path, ?_, rows.renders⟩
  intro hready
  obtain ⟨request, data, hmade, houtcome, hfiles, hpath, hshown⟩ := rows.source hready
  refine ⟨request, data, hmade, houtcome, hfiles, hpath, fun heq => ?_⟩
  rcases hshown heq with hopen | ⟨-, ran, hran, -⟩
  · exact .inl hopen
  · rw [first] at hran
    cases hran

theorem Rows.runEffects (rows : Rows s) : Rows s.runEffects := by
  rcases s.runEffects_cases with ⟨-, hrun⟩ | ⟨t, ⟨hnone, rfl⟩ | ⟨-, rfl⟩, hrun⟩
  · rw [hrun]
    exact rows
  · have hfirst := rows.firstEffect hnone (s.visible.isOpen, s.visible.serverId)
    rw [hrun]
    split
    · exact hfirst.loadFiles _ "/"
    · exact hfirst
  · have hcleaned := rows.cleanup (some (s.visible.isOpen, s.visible.serverId))
    rw [hrun]
    split
    · exact hcleaned.loadFiles _ "/"
    · exact hcleaned

theorem Rows.leave (rows : Rows s) : Rows s.leave := by
  refine ⟨?_, rows.rendered_le, ?_, rows.path, ?_, ?_⟩
  · intro id request hmade
    obtain ⟨before, hbefore, -⟩ := requests_leave hmade
    exact rows.fresh id before hbefore
  · intro request hmade
    obtain ⟨before, hbefore, rfl⟩ := requests_leave hmade
    exact rows.latest before hbefore
  · intro hready
    obtain ⟨request, data, hmade, houtcome, hfiles, hpath, hshown⟩ := rows.source hready
    obtain ⟨later, hlater, houtcome', hserver', hpath'⟩ :=
      s.remembers_leave _ request data hmade houtcome
    refine ⟨later, data, hlater, houtcome', hfiles, hpath'.trans hpath, fun heq => ?_⟩
    rw [hserver']
    exact hshown heq
  · intro r hr
    obtain ⟨hle, hlisted⟩ := rows.renders r hr
    exact ⟨hle, fun hready heq => s.remembers_leave.listed (hlisted hready heq)⟩

/-- A steady render after its effects. -/
theorem Rows.commit (rows : Rows s)
    (ran : s.effect = some (s.visible.isOpen, s.visible.serverId)) {isOpen : Bool}
    {serverId : Int} (steady : s.visible.isOpen = true → isOpen = true → s.ready = true →
      serverId = s.visible.serverId) : Rows (s.commit isOpen serverId) := by
  -- the effects have run, so that current rows are those of the server before
  have hcurrent : ∀ {source : Int}, Shown s source →
      s.visible.isOpen = true ∧ source = s.visible.serverId := by
    rintro source (hopen | ⟨-, deps, hdeps, hchanged⟩)
    · exact hopen
    · rw [ran] at hdeps
      exact absurd (Option.some.inj hdeps).symm hchanged
  refine ⟨rows.fresh, rows.rendered_le, rows.latest, rows.path, ?_, ?_⟩
  · intro hready
    obtain ⟨request, data, hmade, houtcome, hfiles, hpath, hshown⟩ := rows.source hready
    refine ⟨request, data, hmade, houtcome, hfiles, hpath, fun heq => ?_⟩
    obtain ⟨hopen, hserver⟩ := hcurrent (hshown heq)
    cases isOpen with
    | true => exact .inl ⟨rfl, hserver.trans (steady hopen rfl hready).symm⟩
    | false =>
        refine .inr ⟨rfl, _, ran, fun hsame => ?_⟩
        rw [hopen] at hsame
        cases congrArg Prod.fst hsame
  · intro r hr
    rcases List.mem_append.mp hr with hbefore | hnew
    · exact rows.renders r hbefore
    · obtain rfl := List.mem_singleton.mp hnew
      refine ⟨rows.rendered_le, fun hready heq => ?_⟩
      simp only [Bool.and_eq_true] at hready
      obtain ⟨⟨hsready, hopened⟩, -⟩ := hready
      obtain ⟨request, data, hmade, houtcome, hfiles, hpath, hshown⟩ := rows.source hsready
      obtain ⟨hopen, hserver⟩ := hcurrent (hshown heq)
      exact ⟨_, request, data, hmade, houtcome, hfiles,
        hserver.trans (steady hopen hopened hsready).symm, hpath⟩

theorem Rows.render (rows : Rows s) {isOpen : Bool} {serverId : Int}
    (steady : Steady s (.render isOpen serverId)) : Rows (s.render isOpen serverId) := by
  obtain ⟨hopen, hserver, heffect⟩ := s.runEffects_settled
  have hsteady : s.runEffects.visible.isOpen = true → isOpen = true →
      s.runEffects.ready = true → serverId = s.runEffects.visible.serverId := by
    rw [hopen, hserver]
    exact steady
  rw [← hopen, ← hserver] at heffect
  unfold Directory.render
  dsimp only
  split
  · exact rows.runEffects.leave.commit heffect hsteady
  · exact rows.runEffects.commit heffect hsteady

theorem Rows.unmount (rows : Rows s) : Rows s.unmount := by
  have hleft : Rows s.runEffects.cleanup.leave :=
    (rows.runEffects.cleanup s.runEffects.cleanup.effect).leave
  exact ⟨hleft.fresh, hleft.rendered_le, hleft.latest, hleft.path, hleft.source, hleft.renders⟩

/-- A request that completes while it is current brings the rows. -/
theorem Rows.complete (rows : Rows s) {id : Nat} {outcome : Outcome ε}
    (step : s.complete id outcome = some t) : Rows t := by
  obtain ⟨request, hmade, hwaiting, rfl⟩ := complete_eq_some_iff.mp step
  have hremembers := s.remembers_completed hmade hwaiting outcome
  have hfresh : ∀ other found, (s.completed id request outcome).requests other = some found →
      other ≤ s.generation := by
    intro other found hfound
    rcases requests_completed hfound with ⟨rfl, -⟩ | ⟨-, hbefore⟩
    · exact rows.fresh other request hmade
    · exact rows.fresh other found hbefore
  have hlatest : ∀ found,
      (s.completed id request outcome).requests s.generation = some found →
      s.renderedGeneration = s.generation ∧ s.currentPath = found.path := by
    intro found hfound
    rcases requests_completed hfound with ⟨hid, rfl⟩ | ⟨-, hbefore⟩
    · exact rows.latest request (hid ▸ hmade)
    · exact rows.latest found hbefore
  have hrenders : ∀ r ∈ s.rendered, r.renderedGeneration ≤ s.generation ∧
      (r.ready = true → r.renderedGeneration = s.generation →
        Listed (s.completed id request outcome) r) := by
    intro r hr
    obtain ⟨hle, hlisted⟩ := rows.renders r hr
    exact ⟨hle, fun hready heq => hremembers.listed (hlisted hready heq)⟩
  have hsource : s.ready = true → Sourced (s.completed id request outcome) := by
    intro hready
    obtain ⟨found, data, hfound, houtcome, hfiles, hpath, hshown⟩ := rows.source hready
    obtain ⟨later, hlater, houtcome', hserver', hpath'⟩ :=
      hremembers _ found data hfound houtcome
    refine ⟨later, data, hlater, houtcome', hfiles, hpath'.trans hpath, fun heq => ?_⟩
    rw [hserver']
    exact hshown heq
  by_cases hcurrent : (s.completed id request outcome).current id request
  · rw [settle_of_current outcome hcurrent]
    obtain ⟨-, hgeneration, hopen, hserver⟩ := hcurrent
    have hid : s.generation = id := hgeneration
    obtain ⟨hrendered, hpath⟩ := rows.latest request (hid ▸ hmade)
    cases outcome with
    | response data =>
        refine ⟨hfresh, rows.rendered_le, hlatest, rows.path, fun _ => ?_, hrenders⟩
        refine ⟨{ request with outcome := some (.response data) }, data, ?_, rfl, rfl,
          hpath.symm, fun _ => .inl ⟨hopen, hserver.symm⟩⟩
        dsimp only [completed]
        rw [hrendered, hid, Function.update_self]
    | failure error => exact ⟨hfresh, rows.rendered_le, hlatest, rows.path, hsource, hrenders⟩
  · rw [settle_of_not_current outcome hcurrent]
    exact ⟨hfresh, rows.rendered_le, hlatest, rows.path, hsource, hrenders⟩

/-! ## Runs -/

theorem rows_mount (isOpen : Bool) (serverId : Int) :
    Rows (mount isOpen serverId : Directory ε) := by
  refine ⟨nofun, Nat.le_refl 0, nofun, rfl, nofun, ?_⟩
  intro r hr
  obtain rfl := List.mem_singleton.mp hr
  exact ⟨Nat.le_refl 0, nofun⟩

theorem Rows.refresh (rows : Rows s) (r : Render ε) : Rows (s.refresh r) := by
  unfold Directory.refresh
  split
  · exact rows.loadFiles r.serverId r.currentPath
  · exact rows

theorem Rows.step (rows : Rows s) {action : DirectoryAction ε} (steady : Steady s action)
    (step : s.step action = some t) : Rows t := by
  cases stepped_of_step step with
  | render => exact rows.render steady
  | effects => exact rows.runEffects
  | unmount => exact rows.unmount
  | loadFiles => exact rows.loadFiles _ _
  | earlierLoadFiles => exact rows.loadFiles _ _
  | refresh => exact rows.refresh _
  | complete completes => exact rows.complete completes

/-! ## The renders that take other rows -/

/-- While the directory is open and its effects have run, the rendered generation is the
current one. -/
def Settled (s : Directory ε) : Prop :=
  s.mounted = true → s.visible.isOpen = true → ¬ s.Pending → s.renderedGeneration = s.generation

theorem settled_loadFiles (serverId : Int) (path : String) (s : Directory ε) :
    Settled (s.loadFiles serverId path) := by
  intro _ _ _
  unfold loadFiles
  rw [abort_eq]

theorem Settled.runEffects (settled : Settled s) : Settled s.runEffects := by
  rcases s.runEffects_cases with ⟨-, hrun⟩ | ⟨t, ht, hrun⟩
  · rw [hrun]
    exact settled
  · rw [hrun]
    split
    · exact settled_loadFiles _ _ t
    · next hclosed =>
        have hvisible : t.visible = s.visible := by
          rcases ht with ⟨-, rfl⟩ | ⟨-, rfl⟩
          · rfl
          · rw [cleanup_eq]
        intro _ hopen
        rw [hvisible] at hopen
        exact absurd hopen hclosed

theorem Settled.commit (settled : Settled s)
    (ran : s.effect = some (s.visible.isOpen, s.visible.serverId)) (isOpen : Bool)
    (serverId : Int) : Settled (s.commit isOpen serverId) := by
  intro hmounted hopen hran
  have hsame : (s.visible.isOpen, s.visible.serverId) = (isOpen, serverId) :=
    Classical.not_not.mp fun hchanged => hran ⟨_, ran, hchanged⟩
  refine settled hmounted ((congrArg Prod.fst hsame).trans hopen) ?_
  rintro ⟨deps, hdeps, hchanged⟩
  rw [ran] at hdeps
  exact hchanged (Option.some.inj hdeps).symm

theorem Settled.render (settled : Settled s) (isOpen : Bool) (serverId : Int) :
    Settled (s.render isOpen serverId) := by
  obtain ⟨hopen, hserver, heffect⟩ := s.runEffects_settled
  rw [← hopen, ← hserver] at heffect
  have hleft : Settled s.runEffects.leave := settled.runEffects
  unfold Directory.render
  dsimp only
  split
  · exact hleft.commit heffect isOpen serverId
  · exact settled.runEffects.commit heffect isOpen serverId

theorem Settled.complete (settled : Settled s) {id : Nat} {outcome : Outcome ε}
    (step : s.complete id outcome = some t) : Settled t := by
  obtain ⟨request, -, -, rfl⟩ := complete_eq_some_iff.mp step
  by_cases hcurrent : (s.completed id request outcome).current id request
  · rw [settle_of_current outcome hcurrent]
    cases outcome with
    | response data => exact settled
    | failure error => exact settled
  · rw [settle_of_not_current outcome hcurrent]
    exact settled

theorem Settled.refresh (settled : Settled s) (r : Render ε) : Settled (s.refresh r) := by
  unfold Directory.refresh
  split
  · exact settled_loadFiles _ _ s
  · exact settled

theorem Settled.step (settled : Settled s) {action : DirectoryAction ε}
    (step : s.step action = some t) : Settled t := by
  cases stepped_of_step step with
  | render => exact settled.render _ _
  | effects => exact settled.runEffects
  | unmount => exact fun hmounted => absurd hmounted nofun
  | loadFiles => exact settled_loadFiles _ _ s
  | earlierLoadFiles => exact settled_loadFiles _ _ s
  | refresh => exact settled.refresh _
  | complete completes => exact settled.complete completes

theorem mounted_runEffects (s : Directory ε) : s.runEffects.mounted = s.mounted := by
  rcases s.runEffects_cases with ⟨-, hrun⟩ | ⟨t, ht, hrun⟩
  · rw [hrun]
  · have hmounted : t.mounted = s.mounted := by
      rcases ht with ⟨-, rfl⟩ | ⟨-, rfl⟩
      · rfl
      · rw [cleanup_eq]
    rw [hrun]
    split
    · unfold loadFiles
      rw [abort_eq]
      exact hmounted
    · exact hmounted

/-- A render that is not steady offers the rows of the server before. -/
theorem Rows.misled (rows : Rows s) (settled : Settled s) (mounted : s.mounted = true)
    {isOpen : Bool} {serverId : Int} (unsteady : ¬ Steady s (.render isOpen serverId)) :
    ∃ r ∈ (s.render isOpen serverId).rendered, r.ready = true ∧
      (s.render isOpen serverId).isCurrent r ∧
      ∃ request data, (s.render isOpen serverId).requests r.renderedGeneration = some request ∧
        request.outcome = some (.response data) ∧ r.files = data.getD [] ∧
        request.serverId ≠ r.serverId := by
  dsimp only [Steady] at unsteady
  simp only [Classical.not_imp] at unsteady
  obtain ⟨hwas, rfl, hready, hchanged⟩ := unsteady
  obtain ⟨hopen, hserver, heffect⟩ := s.runEffects_settled
  have hran : ¬ s.runEffects.Pending := by
    rintro ⟨deps, hdeps, hother⟩
    rw [heffect, ← hopen, ← hserver] at hdeps
    exact hother (Option.some.inj hdeps).symm
  have hgeneration : s.runEffects.renderedGeneration = s.runEffects.generation :=
    settled.runEffects (s.mounted_runEffects.trans mounted) (hopen.trans hwas) hran
  obtain ⟨request, data, hmade, houtcome, hfiles, hpath, hshown⟩ := rows.runEffects.source hready
  obtain ⟨later, hlater, houtcome', hserver', -⟩ :=
    s.runEffects.remembers_leave _ request data hmade houtcome
  have hrender : s.render true serverId = s.runEffects.leave.commit true serverId :=
    if_pos (.inr fun hsame => hchanged (hsame.symm.trans hserver))
  rw [hrender]
  refine ⟨_, List.mem_append_right _ (List.mem_singleton_self _), ?_,
    ⟨hgeneration.symm, rfl, rfl, rows.runEffects.path⟩, later, data, hlater, houtcome', hfiles, ?_⟩
  · change (s.runEffects.ready && true && decide (serverId = serverId)) = true
    rw [hready, decide_eq_true rfl]
    rfl
  · rw [hserver']
    rcases hshown hgeneration with ⟨-, hsource⟩ | ⟨-, hpending⟩
    · rw [hsource, hserver]
      exact fun hsame => hchanged hsame.symm
    · exact absurd hpending hran

/--
In a run whose renders are all steady, the rows of a ready render with a current capture
are the response to a request for its server and its path; and the first render that is
not steady is ready, with a current capture and the rows of another server.
-/
theorem actionableRows_listed {isOpen : Bool} {serverId : Int}
    {actions : List (DirectoryAction ε)}
    (run : play Directory.step (mount isOpen serverId) actions = some s)
    (steady : Always Steady Directory.step (mount isOpen serverId) actions) :
    (∀ r ∈ s.rendered, r.ready = true → s.isCurrent r → Listed s r) ∧
    ∀ opened other t, s.step (.render opened other) = some t → ¬ Steady s (.render opened other) →
      ∃ r ∈ t.rendered, r.ready = true ∧ t.isCurrent r ∧
        ∃ request data, t.requests r.renderedGeneration = some request ∧
          request.outcome = some (.response data) ∧ r.files = data.getD [] ∧
          request.serverId ≠ r.serverId := by
  have hheld : Rows s ∧ Settled s := by
    refine play_preserves_of_always (fun u => Rows u ∧ Settled u) Steady
      ⟨rows_mount isOpen serverId, fun _ _ _ => rfl⟩ ?_ run steady
    rintro u next action hsteady ⟨hrows, hsettled⟩ hstep
    exact ⟨hrows.step hsteady hstep, hsettled.step hstep⟩
  obtain ⟨hrows, hsettled⟩ := hheld
  constructor
  · intro r hr hready hcurrent
    exact (hrows.renders r hr).2 hready hcurrent.1.symm
  · intro opened other t hstep hunsteady
    dsimp only [Directory.step] at hstep
    split at hstep
    · next hmounted =>
        obtain rfl := Option.some.inj hstep
        exact hrows.misled hsettled hmounted hunsteady
    · cases hstep

/-- The directory of server 1 is listed, and shown again. -/
def relisted : List (DirectoryAction String) :=
  [.effects, .complete 1 (.response (some ["row"])), .render true 1]

theorem actionableRows_listed_relisted :
    ∃ (s : Directory String) (r : Render String),
      play Directory.step (mount true 1) relisted = some s ∧ r ∈ s.rendered ∧
        r.files = ["row"] ∧ Listed s r := by
  have hsteady : Always Steady Directory.step (mount true 1 : Directory String) relisted := by
    refine ⟨trivial, fun s hs => ⟨trivial, fun t ht => ⟨?_, fun _ _ => trivial⟩⟩⟩
    obtain rfl := Option.some.inj hs
    obtain rfl := Option.some.inj ht
    exact fun _ _ _ => rfl
  obtain ⟨s, hrun, hstate⟩ : ∃ s, play Directory.step (mount true 1 : Directory String) relisted =
      some s ∧ ⟨true, 1, ["row"], "/", false, 1, true⟩ ∈ s.rendered ∧ s.generation = 1 ∧
        s.visible = ⟨true, 1, "/"⟩ :=
    ⟨_, rfl, List.mem_append_right _ (List.mem_singleton.mpr rfl), rfl, rfl⟩
  obtain ⟨hrendered, hgeneration, hvisible⟩ := hstate
  refine ⟨s, _, hrun, hrendered, rfl, ?_⟩
  refine (actionableRows_listed hrun hsteady).1 _ hrendered rfl ⟨hgeneration, ?_⟩
  rw [hvisible]
  exact ⟨rfl, rfl, rfl⟩

/-- The rows of server 1 are offered as those of server 2. -/
theorem actionableRows_misled :
    ¬ ∀ (actions : List (DirectoryAction String)) (s : Directory String),
      play Directory.step (mount true 1) actions = some s →
      ∀ r ∈ s.rendered, r.ready = true → s.isCurrent r → Listed s r := by
  intro claim
  have hlisted := claim
    [.effects, .complete 1 (.response (some ["row"])), .render true 2] _ rfl
    ⟨true, 2, ["row"], "/", false, 1, true⟩ (List.mem_append_right _ (List.mem_singleton.mpr rfl))
    rfl ⟨rfl, rfl, rfl, rfl⟩
  obtain ⟨id, request, data, hmade, -, -, hserver, -⟩ := hlisted
  obtain ⟨before, hbefore, rfl⟩ := Option.map_eq_some_iff.mp hmade
  change Function.update (Function.update (fun _ => none) 1 _) 1
    (some ⟨1, "/", false, _, true, false⟩) id = some before at hbefore
  by_cases hid : id = 1
  · rw [hid, Function.update_self] at hbefore
    obtain rfl := Option.some.inj hbefore
    exact absurd hserver (by decide)
  · rw [Function.update_of_ne hid, Function.update_of_ne hid] at hbefore
    cases hbefore

end Directory

end OpsUp.Ui
