import OpsUp.Interaction.Transition
import Mathlib.Logic.Function.Basic

/-!
# The directory of the file manager

`useDirectory` lists a directory of the shown server.  A render writes the props into a
ref before its effects run, and the clean-up of the effects before them runs only then;
in between, requests may complete and the callbacks of the render may be called.  React
runs the effects of one render before it renders again.
-/

namespace OpsUp.Ui

open OpsUp.Interaction

/-- How a listing request ends. -/
inductive Outcome (ε : Type) where
  /-- `response.data` -/
  | response (data : Option (List ε))
  /-- `error.response?.data?.error`, empty when it is missing -/
  | failure (error : String)

/-- A call of `filesApi.listFiles` and its abort signal. -/
structure Request (ε : Type) where
  serverId : Int
  path : String
  aborted : Bool
  outcome : Option (Outcome ε)
  /-- the directory was open when the request was made -/
  shown : Bool
  /-- since then it was closed, or the server changed -/
  left : Bool

/-- `visible.current` -/
structure Visible where
  isOpen : Bool
  serverId : Int
  path : String

/-- A committed render: its props, the state that it read, and what the hook returned. -/
structure Render (ε : Type) where
  isOpen : Bool
  serverId : Int
  files : List ε
  currentPath : String
  loading : Bool
  renderedGeneration : Nat
  ready : Bool

/-- The state, the refs and the requests of the hook. -/
structure Directory (ε : Type) where
  files : List ε
  currentPath : String
  loading : Bool
  ready : Bool
  renderedGeneration : Nat
  generation : Nat
  /-- the request that `controller.current` aborts -/
  controller : Option Nat
  visible : Visible
  /-- the requests, each under its generation -/
  requests : Nat → Option (Request ε)
  /-- the arguments of `message.error` -/
  errors : List String
  rendered : List (Render ε)
  /-- the dependencies of the effect that ran last -/
  effect : Option (Bool × Int)
  mounted : Bool

inductive DirectoryAction (ε : Type) where
  | render (isOpen : Bool) (serverId : Int)
  /-- the effects of the last render run, if they have not yet -/
  | effects
  | unmount
  /-- the `loadFiles` of the current render is called -/
  | loadFiles (path : String)
  /-- the one of any render is called -/
  | earlierLoadFiles (index : Nat) (path : String)
  /-- `capture().refresh()` of any render -/
  | refresh (index : Nat)
  | complete (id : Nat) (outcome : Outcome ε)

namespace Directory

variable {ε : Type}

/-! ## Requests -/

/-- `controller.current?.abort()` -/
def abort (s : Directory ε) : Directory ε :=
  match s.controller with
  | none => s
  | some id =>
      { s with
        requests := Function.update s.requests id
          ((s.requests id).map fun request => { request with aborted := true }) }

def loadFiles (serverId : Int) (path : String) (s : Directory ε) : Directory ε :=
  let s := s.abort
  let id := s.generation + 1
  { s with
    controller := some id
    generation := id
    renderedGeneration := id
    visible := { s.visible with path := path }
    currentPath := path
    files := []
    ready := false
    loading := true
    requests := Function.update s.requests id (some {
      serverId := serverId
      path := path
      aborted := false
      outcome := none
      shown := s.visible.isOpen
      left := false }) }

/-- `current()` of a request -/
def current (id : Nat) (request : Request ε) (s : Directory ε) : Prop :=
  request.aborted = false ∧ s.generation = id ∧ s.visible.isOpen = true ∧
    s.visible.serverId = request.serverId

instance (id : Nat) (request : Request ε) (s : Directory ε) : Decidable (s.current id request) :=
  inferInstanceAs (Decidable (_ ∧ _ ∧ _ ∧ _))

/-- What the request goes on to do: `then` or `catch`. -/
def settle (id : Nat) (request : Request ε) (outcome : Outcome ε) (s : Directory ε) :
    Directory ε :=
  match outcome with
  | .response data =>
      if s.current id request then { s with files := data.getD [], ready := true } else s
  | .failure error =>
      if s.current id request then
        { s with errors := s.errors ++ [if error = "" then "加载文件列表失败" else error] }
      else s

/-- `finally` -/
def finish (id : Nat) (request : Request ε) (s : Directory ε) : Directory ε :=
  if s.current id request then { s with loading := false } else s

/-- A request completes once. -/
def complete (id : Nat) (outcome : Outcome ε) (s : Directory ε) : Option (Directory ε) :=
  match s.requests id with
  | none => none
  | some request =>
      match request.outcome with
      | some _ => none
      | none =>
          let s := { s with
            requests := Function.update s.requests id
              (some { request with outcome := some outcome }) }
          some ((s.settle id request outcome).finish id request)

/-! ## Effects and renders -/

/-- The clean-up of the effect. -/
def cleanup (s : Directory ε) : Directory ε :=
  { s with generation := s.generation + 1 }.abort

/-- The effect runs when its dependencies have changed, after the clean-up of its last
run. -/
def runEffects (s : Directory ε) : Directory ε :=
  let deps := (s.visible.isOpen, s.visible.serverId)
  if s.effect = some deps then s
  else
    let s := if s.effect = none then s else s.cleanup
    let s := { s with effect := some deps }
    if s.visible.isOpen then s.loadFiles s.visible.serverId "/" else s

/-- What a render returns and what it writes into the ref. -/
def commit (isOpen : Bool) (serverId : Int) (s : Directory ε) : Directory ε :=
  let s := { s with visible := { s.visible with isOpen := isOpen, serverId := serverId } }
  { s with
    rendered := s.rendered ++ [{
      isOpen := isOpen
      serverId := serverId
      files := s.files
      currentPath := s.currentPath
      loading := s.loading
      renderedGeneration := s.renderedGeneration
      ready := s.ready && isOpen && decide (s.visible.serverId = serverId) }] }

/-- No request that was made so far stays with the directory it was made for. -/
def leave (s : Directory ε) : Directory ε :=
  { s with requests := fun id => (s.requests id).map fun request => { request with left := true } }

def render (isOpen : Bool) (serverId : Int) (s : Directory ε) : Directory ε :=
  let s := s.runEffects
  if (s.visible.isOpen ∧ ¬ isOpen) ∨ s.visible.serverId ≠ serverId then
    s.leave.commit isOpen serverId
  else s.commit isOpen serverId

def unmount (s : Directory ε) : Directory ε :=
  { s.runEffects.cleanup.leave with mounted := false }

/-- After the first render. -/
def mount (isOpen : Bool) (serverId : Int) : Directory ε :=
  commit isOpen serverId {
    files := []
    currentPath := "/"
    loading := false
    ready := false
    renderedGeneration := 0
    generation := 0
    controller := none
    visible := ⟨isOpen, serverId, "/"⟩
    requests := fun _ => none
    errors := []
    rendered := []
    effect := none
    mounted := true }

/-! ## Captures -/

/-- `capture().isCurrent()` of a render -/
def isCurrent (r : Render ε) (s : Directory ε) : Prop :=
  s.generation = r.renderedGeneration ∧ s.visible.isOpen = true ∧
    s.visible.serverId = r.serverId ∧ s.visible.path = r.currentPath

instance (r : Render ε) (s : Directory ε) : Decidable (s.isCurrent r) :=
  inferInstanceAs (Decidable (_ ∧ _ ∧ _ ∧ _))

/-- `capture().refresh()` of a render -/
def refresh (r : Render ε) (s : Directory ε) : Directory ε :=
  if s.isCurrent r then s.loadFiles r.serverId r.currentPath else s

def step (s : Directory ε) : DirectoryAction ε → Option (Directory ε)
  | .render isOpen serverId => if s.mounted then some (s.render isOpen serverId) else none
  | .effects => if s.mounted then some s.runEffects else none
  | .unmount => if s.mounted then some s.unmount else none
  | .loadFiles path =>
      if s.mounted then some (s.loadFiles s.visible.serverId path) else none
  | .earlierLoadFiles index path =>
      match s.rendered[index]? with
      | none => none
      | some r => some (s.loadFiles r.serverId path)
  | .refresh index =>
      match s.rendered[index]? with
      | none => none
      | some r => some (s.refresh r)
  | .complete id outcome => s.complete id outcome

/-- All that a step can do. -/
inductive Stepped (s : Directory ε) : DirectoryAction ε → Directory ε → Prop where
  | render {isOpen : Bool} {serverId : Int} (mounted : s.mounted) :
      Stepped s (.render isOpen serverId) (s.render isOpen serverId)
  | effects (mounted : s.mounted) : Stepped s .effects s.runEffects
  | unmount (mounted : s.mounted) : Stepped s .unmount s.unmount
  | loadFiles {path : String} (mounted : s.mounted) :
      Stepped s (.loadFiles path) (s.loadFiles s.visible.serverId path)
  | earlierLoadFiles {index : Nat} {path : String} {r : Render ε}
      (rendered : s.rendered[index]? = some r) :
      Stepped s (.earlierLoadFiles index path) (s.loadFiles r.serverId path)
  | refresh {index : Nat} {r : Render ε} (rendered : s.rendered[index]? = some r) :
      Stepped s (.refresh index) (s.refresh r)
  | complete {id : Nat} {outcome : Outcome ε} {t : Directory ε}
      (completes : s.complete id outcome = some t) : Stepped s (.complete id outcome) t

theorem stepped_of_step {s t : Directory ε} {action : DirectoryAction ε}
    (step : s.step action = some t) : Stepped s action t := by
  cases action with
  | render isOpen serverId =>
      obtain ⟨hmounted, hnext⟩ := Option.ite_none_right_eq_some.mp step
      exact Option.some.inj hnext ▸ .render hmounted
  | effects =>
      obtain ⟨hmounted, hnext⟩ := Option.ite_none_right_eq_some.mp step
      exact Option.some.inj hnext ▸ .effects hmounted
  | unmount =>
      obtain ⟨hmounted, hnext⟩ := Option.ite_none_right_eq_some.mp step
      exact Option.some.inj hnext ▸ .unmount hmounted
  | loadFiles path =>
      obtain ⟨hmounted, hnext⟩ := Option.ite_none_right_eq_some.mp step
      exact Option.some.inj hnext ▸ .loadFiles hmounted
  | earlierLoadFiles index path =>
      dsimp only [Directory.step] at step
      split at step
      · cases step
      · next r hrendered => exact Option.some.inj step ▸ .earlierLoadFiles hrendered
  | refresh index =>
      dsimp only [Directory.step] at step
      split at step
      · cases step
      · next r hrendered => exact Option.some.inj step ▸ .refresh hrendered
  | complete id outcome => exact .complete step

end Directory

end OpsUp.Ui
