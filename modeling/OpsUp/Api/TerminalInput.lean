import OpsUp.Api.TerminalHandler

/-!
# The terminal input in order

Between the browser and the shell a message is offered, queued, taken and acted on.
At every moment the received messages are these parts in this order, so what is acted
on is a prefix of what is received, whatever the schedule.
-/

namespace OpsUp.Api

open OpsUp.Go OpsUp.Interaction

/-- What a message has the shell read. -/
def stdinPayload : Bytes → Option Bytes
  | [] => none
  | kind :: payload => if kind = msgTypeStdin then some payload else none

/-- A resize whose body does not decode or whose dimensions are out of range. -/
def InvalidResize (unmarshal : Bytes → Option Size) (msg : Bytes) : Prop :=
  ∃ payload, msg = msgTypeResize :: payload ∧ ∀ size, unmarshal payload = some size →
    size.cols < 1 ∨ size.rows < 1 ∨ size.cols > 1000 ∨ size.rows > 1000

def UnknownType (msg : Bytes) : Prop :=
  ∃ kind payload, msg = kind :: payload ∧ kind ≠ msgTypeStdin ∧ kind ≠ msgTypeResize

section Dispatch

variable {unmarshal : Bytes → Option Size} {msg : Bytes}

theorem resize_eq_none_iff {cols rows : Int} :
    resize cols rows = none ↔ cols < 1 ∨ rows < 1 ∨ cols > 1000 ∨ rows > 1000 := by
  unfold resize
  split
  · next hrange => exact ⟨fun _ => hrange, fun _ => rfl⟩
  · next hrange => exact ⟨nofun, fun h => absurd h hrange⟩

theorem dispatch_resize (payload : Bytes) :
    dispatch unmarshal (msgTypeResize :: payload) =
      match unmarshal payload with
      | none => .refuse
      | some size =>
          match resize size.cols size.rows with
          | none => .refuse
          | some (rows, cols) => .windowChange rows cols := rfl

theorem dispatch_unknown (unknown : UnknownType msg) : dispatch unmarshal msg = .refuse := by
  obtain ⟨kind, payload, rfl, hstdin, hresize⟩ := unknown
  rw [dispatch, if_neg hstdin, if_neg hresize]

/-- A message is of one of these kinds. -/
theorem message_cases (content : msg ≠ []) :
    (∃ payload, msg = msgTypeStdin :: payload) ∨ (∃ payload, msg = msgTypeResize :: payload) ∨
      UnknownType msg := by
  cases msg with
  | nil => exact absurd rfl content
  | cons kind payload =>
      by_cases hstdin : kind = msgTypeStdin
      · exact Or.inl ⟨payload, by rw [hstdin]⟩
      · by_cases hresize : kind = msgTypeResize
        · exact Or.inr (Or.inl ⟨payload, by rw [hresize]⟩)
        · exact Or.inr (Or.inr ⟨kind, payload, rfl, hstdin, hresize⟩)

/-- A resize is refused when it is invalid, and requested otherwise. -/
theorem dispatch_resize_cases (payload : Bytes) :
    (InvalidResize unmarshal (msgTypeResize :: payload) ∧
      dispatch unmarshal (msgTypeResize :: payload) = .refuse) ∨
    ∃ size, unmarshal payload = some size ∧
      dispatch unmarshal (msgTypeResize :: payload) = .windowChange size.rows size.cols ∧
      ¬ InvalidResize unmarshal (msgTypeResize :: payload) := by
  rw [dispatch_resize]
  cases hsize : unmarshal payload with
  | none =>
      refine Or.inl ⟨⟨payload, rfl, fun size h => ?_⟩, rfl⟩
      rw [hsize] at h
      cases h
  | some size =>
      by_cases hrange : size.cols < 1 ∨ size.rows < 1 ∨ size.cols > 1000 ∨ size.rows > 1000
      · refine Or.inl ⟨⟨payload, rfl, fun other h => ?_⟩, ?_⟩
        · rw [hsize] at h
          obtain rfl := Option.some.inj h
          exact hrange
        · dsimp only
          rw [resize_eq_none_iff.mpr hrange]
      · refine Or.inr ⟨size, rfl, ?_, ?_⟩
        · dsimp only
          rw [resize, if_neg hrange]
        · rintro ⟨body, hmsg, hinvalid⟩
          obtain ⟨-, rfl⟩ := List.cons.inj hmsg
          exact hrange (hinvalid size hsize)

theorem not_unknown_resize (payload : Bytes) : ¬ UnknownType (msgTypeResize :: payload) := by
  rintro ⟨kind, body, hmsg, -, hkind⟩
  exact hkind (List.cons.inj hmsg).1.symm

/-- The goroutine returns on exactly these messages. -/
theorem dispatch_eq_refuse_iff (content : msg ≠ []) :
    dispatch unmarshal msg = .refuse ↔ UnknownType msg ∨ InvalidResize unmarshal msg := by
  rcases message_cases content with ⟨payload, rfl⟩ | ⟨payload, rfl⟩ | hunknown
  · refine ⟨nofun, ?_⟩
    rintro (⟨kind, body, hmsg, hkind, -⟩ | ⟨body, hmsg, -⟩)
    · exact absurd (List.cons.inj hmsg).1.symm hkind
    · exact absurd (List.cons.inj hmsg).1 (by decide)
  · rw [or_iff_right (not_unknown_resize payload)]
    rcases dispatch_resize_cases payload with ⟨hinvalid, hrefuse⟩ | ⟨size, -, hrequest, hvalid⟩
    · exact ⟨fun _ => hinvalid, fun _ => hrefuse⟩
    · rw [hrequest]
      exact ⟨nofun, fun hinvalid => absurd hinvalid hvalid⟩
  · exact ⟨fun _ => Or.inl hunknown, fun _ => dispatch_unknown hunknown⟩

/-- What acting on a message writes is the payload of a stdin message. -/
theorem stdinPayload_eq (content : msg ≠ []) :
    stdinPayload msg =
      match dispatch unmarshal msg with
      | .write data => some data
      | _ => none := by
  rcases message_cases content with ⟨payload, rfl⟩ | ⟨payload, rfl⟩ | hunknown
  · rfl
  · rcases dispatch_resize_cases payload with ⟨-, hrefuse⟩ | ⟨size, -, hrequest, -⟩
    · rw [hrefuse]
      rfl
    · rw [hrequest]
      rfl
  · rw [dispatch_unknown hunknown]
    obtain ⟨kind, payload, rfl, hstdin, -⟩ := hunknown
    exact if_neg hstdin

theorem dispatch_ne_panics (content : msg ≠ []) : dispatch unmarshal msg ≠ .panics := by
  rcases message_cases content with ⟨payload, rfl⟩ | ⟨payload, rfl⟩ | hunknown
  · nofun
  · rcases dispatch_resize_cases payload with ⟨-, hrefuse⟩ | ⟨size, -, hrequest, -⟩
    · rw [hrefuse]
      nofun
    · rw [hrequest]
      nofun
  · rw [dispatch_unknown hunknown]
    nofun

end Dispatch

/-! ## One step -/

namespace Input

variable {unmarshal : Bytes → Option Size} {s t : Input}

/-- The message between the queue and the shell. -/
def taken (s : Input) : List Bytes :=
  match s.consumer with
  | .dispatching msg => [msg]
  | _ => []

/-- The consumer holds no message. -/
def Idle (consumer : Consumer) : Prop :=
  (∀ msg, consumer ≠ .dispatching msg) ∧ consumer ≠ .panicked

/-- Everything that a step can do. -/
inductive Change (unmarshal : Bytes → Option Size) (s : Input) : Input → Prop where
  | same : Change unmarshal s s
  | cancel : Change unmarshal s { s with cancelled := true }
  | receive (msg : Bytes) (reading : s.reader = .reading) (content : msg ≠ []) :
      Change unmarshal s { s with reader := .offering msg, received := s.received ++ [msg] }
  | enqueue (msg : Bytes) (offering : s.reader = .offering msg)
      (room : s.queue.length < terminalInputQueue) :
      Change unmarshal s { s with reader := .reading, queue := s.queue ++ [msg] }
  | leave : Change unmarshal s { s with reader := .returned, cancelled := true }
  | take (msg : Bytes) (rest : List Bytes) (selecting : s.consumer = .selecting)
      (queue : s.queue = msg :: rest) :
      Change unmarshal s { s with consumer := .dispatching msg, queue := rest }
  | act (msg : Bytes) (dispatching : s.consumer = .dispatching msg) :
      Change unmarshal s (s.act msg (dispatch unmarshal msg))
  | move (consumer : Consumer) (cancelled : Bool) (before : Idle s.consumer)
      (live : s.consumer ≠ .returned) (after : Idle consumer)
      (kept : s.cancelled = true → cancelled = true) :
      Change unmarshal s { s with consumer := consumer, cancelled := cancelled }

theorem change_of_step {action : InputAction} (step : s.step unmarshal action = some t) :
    s.Change unmarshal t := by
  cases action with
  | receive kind msg =>
      dsimp only [Input.step] at step
      split at step
      · cases step
      · next hready =>
          split at step
          · obtain rfl := Option.some.inj step
            exact .same
          · next hcontent =>
              obtain rfl := Option.some.inj step
              rw [not_or, not_not] at hready hcontent
              exact .receive msg hready.1 hcontent.2
  | disconnect =>
      dsimp only [Input.step] at step
      split at step
      · obtain rfl := Option.some.inj step
        exact .leave
      · cases step
  | enqueue =>
      dsimp only [Input.step] at step
      split at step
      · next msg hoffering =>
          split at step
          · next hroom =>
              obtain rfl := Option.some.inj step
              exact .enqueue msg hoffering hroom
          · cases step
      · cases step
  | notice =>
      dsimp only [Input.step] at step
      split at step
      · split at step
        · next hcancelled =>
            obtain rfl := Option.some.inj step
            have hleave : s.Change unmarshal { s with reader := .returned, cancelled := true } :=
              .leave
            rwa [← hcancelled] at hleave
        · cases step
      · cases step
  | overflow =>
      dsimp only [Input.step] at step
      split at step
      · split at step
        · cases step
        · obtain rfl := Option.some.inj step
          exact .leave
      · cases step
  | start =>
      dsimp only [Input.step] at step
      split at step
      · next hwaiting =>
          obtain rfl := Option.some.inj step
          exact .move .selecting s.cancelled (by simp [Idle, hwaiting]) (by simp [hwaiting])
            (by simp [Idle]) id
      · cases step
  | take =>
      dsimp only [Input.step] at step
      split at step
      · next msg rest hselecting hqueue =>
          obtain rfl := Option.some.inj step
          exact .take msg rest hselecting hqueue
      · cases step
  | stop =>
      dsimp only [Input.step] at step
      split at step
      · next hready =>
          obtain rfl := Option.some.inj step
          exact .move .returned s.cancelled (by simp [Idle, hready.1]) (by simp [hready.1])
            (by simp [Idle]) id
      · cases step
  | dispatch =>
      dsimp only [Input.step] at step
      split at step
      · next msg hdispatching =>
          obtain rfl := Option.some.inj step
          exact .act msg hdispatching
      · cases step
  | callReturns ok =>
      dsimp only [Input.step] at step
      split at step
      · cases step
      · next hcalling =>
          rw [not_not] at hcalling
          split at step
          · obtain rfl := Option.some.inj step
            exact .move .selecting s.cancelled (by simp [Idle, hcalling]) (by simp [hcalling])
              (by simp [Idle]) id
          · obtain rfl := Option.some.inj step
            exact .move .returned true (by simp [Idle, hcalling]) (by simp [hcalling])
              (by simp [Idle]) fun _ => rfl
  | cancel =>
      obtain rfl := Option.some.inj step
      exact .cancel

/-! ## Every run -/

/-- A message that ends the session. -/
def Refused (unmarshal : Bytes → Option Size) (msg : Bytes) : Prop :=
  UnknownType msg ∨ InvalidResize unmarshal msg

/-- The received messages in their order: acted on, taken, queued, offered or dropped. -/
structure Ordered (unmarshal : Bytes → Option Size) (s : Input) : Prop where
  order : ∃ dropped, s.received = s.acted ++ s.taken ++ s.queue ++ dropped ∧
    (∀ msg, s.reader = .offering msg → dropped = [msg]) ∧ (s.reader = .reading → dropped = [])
  bounded : s.queue.length ≤ terminalInputQueue
  written : s.written = s.acted.filterMap stdinPayload
  content : ∀ msg ∈ s.received, msg ≠ []
  calm : s.consumer ≠ .panicked
  refused : ∀ msg ∈ s.acted, Refused unmarshal msg →
    s.consumer = .returned ∧ s.cancelled = true ∧ ∃ earlier, s.acted = earlier ++ [msg]

theorem ordered_initial (unmarshal : Bytes → Option Size) : Ordered unmarshal .initial where
  order := ⟨[], rfl, nofun, fun _ => rfl⟩
  bounded := Nat.zero_le _
  written := rfl
  content := nofun
  calm := nofun
  refused := nofun

/-- Acting on the taken message keeps its place in the order. -/
theorem act_parts {msg : Bytes} (dispatching : s.consumer = .dispatching msg) (outcome : Dispatch)
    (calm : outcome ≠ .panics) :
    (s.act msg outcome).acted = s.acted ++ s.taken ∧ (s.act msg outcome).taken = [] ∧
      (s.act msg outcome).queue = s.queue ∧ (s.act msg outcome).received = s.received ∧
      (s.act msg outcome).reader = s.reader := by
  have htaken : s.taken = [msg] := by rw [taken, dispatching]
  rw [htaken]
  cases outcome with
  | panics => exact absurd rfl calm
  | write data => exact ⟨rfl, rfl, rfl, rfl, rfl⟩
  | windowChange rows cols => exact ⟨rfl, rfl, rfl, rfl, rfl⟩
  | refuse => exact ⟨rfl, rfl, rfl, rfl, rfl⟩

/-- Before the dispatch no refused message has been acted on. -/
theorem Ordered.none_refused (ordered : Ordered unmarshal s) (live : s.consumer ≠ .returned) :
    ∀ msg ∈ s.acted, ¬ Refused unmarshal msg :=
  fun msg hmsg hrefused => live (ordered.refused msg hmsg hrefused).1

theorem taken_eq_nil_of_idle (idle : Idle s.consumer) : s.taken = [] := by
  unfold taken
  split
  · next msg hmsg => exact absurd hmsg (idle.1 msg)
  · rfl

theorem Ordered.act {msg : Bytes} (ordered : Ordered unmarshal s)
    (dispatching : s.consumer = .dispatching msg) :
    Ordered unmarshal (s.act msg (dispatch unmarshal msg)) := by
  obtain ⟨dropped, horder, hoffering, hreading⟩ := ordered.order
  have htaken : s.taken = [msg] := by rw [taken, dispatching]
  have hcontent : msg ≠ [] := by
    refine ordered.content msg ?_
    rw [horder, htaken]
    simp
  have hlive : s.consumer ≠ .returned := by
    rw [dispatching]
    nofun
  have hpanics : dispatch unmarshal msg ≠ .panics := dispatch_ne_panics hcontent
  obtain ⟨hacted, htaken', hqueue, hreceived, hreader⟩ := act_parts dispatching _ hpanics
  refine ⟨⟨dropped, ?_, ?_, ?_⟩, ?_, ?_, ?_, ?_, ?_⟩
  · rw [hreceived, hacted, htaken', hqueue, horder, List.append_nil]
  · rw [hreader]
    exact hoffering
  · rw [hreader]
    exact hreading
  · rw [hqueue]
    exact ordered.bounded
  · rw [hacted, htaken, List.filterMap_append, ← ordered.written]
    have hpayload := @stdinPayload_eq unmarshal msg hcontent
    cases hdispatch : dispatch unmarshal msg with
    | panics => exact absurd hdispatch hpanics
    | write data =>
        rw [hdispatch] at hpayload
        simp [Input.act, hpayload]
    | windowChange rows cols =>
        rw [hdispatch] at hpayload
        simp [Input.act, hpayload]
    | refuse =>
        rw [hdispatch] at hpayload
        simp [Input.act, hpayload]
  · rw [hreceived]
    exact ordered.content
  · cases hdispatch : dispatch unmarshal msg with
    | panics => exact absurd hdispatch hpanics
    | write data => nofun
    | windowChange rows cols => nofun
    | refuse => nofun
  · intro other hother hrefused
    rw [hacted, htaken] at hother
    rcases List.mem_append.mp hother with hold | hnew
    · exact absurd hrefused (ordered.none_refused hlive other hold)
    · obtain rfl := List.mem_singleton.mp hnew
      rw [(dispatch_eq_refuse_iff hcontent).mpr hrefused]
      exact ⟨rfl, rfl, s.acted, rfl⟩

/-- Every step keeps the order. -/
theorem Ordered.change (ordered : Ordered unmarshal s) (change : s.Change unmarshal t) :
    Ordered unmarshal t := by
  obtain ⟨dropped, horder, hoffering, hreading⟩ := ordered.order
  cases change with
  | same => exact ordered
  | cancel =>
      refine { ordered with refused := fun msg hmsg hrefused => ?_ }
      obtain ⟨hconsumer, -, hlast⟩ := ordered.refused msg hmsg hrefused
      exact ⟨hconsumer, rfl, hlast⟩
  | receive msg reading content =>
      refine { ordered with order := ⟨[msg], ?_, ?_, nofun⟩, content := ?_ }
      · rw [hreading reading, List.append_nil] at horder
        exact congrArg (· ++ [msg]) horder
      · rintro other hother
        rw [Reader.offering.inj hother]
      · intro other hother
        rcases List.mem_append.mp hother with hold | hnew
        · exact ordered.content other hold
        · rw [List.mem_singleton.mp hnew]
          exact content
  | enqueue msg offering room =>
      refine { ordered with order := ⟨[], ?_, nofun, fun _ => rfl⟩, bounded := ?_ }
      · rw [hoffering msg offering] at horder
        rw [List.append_nil, horder, List.append_assoc _ s.queue]
        rfl
      · rw [List.length_append]
        exact room
  | leave =>
      refine { ordered with
        order := ⟨dropped, horder, nofun, nofun⟩
        refused := fun msg hmsg hrefused => ?_ }
      obtain ⟨hconsumer, -, hlast⟩ := ordered.refused msg hmsg hrefused
      exact ⟨hconsumer, rfl, hlast⟩
  | take msg rest selecting queue =>
      have hnone : s.taken = [] := taken_eq_nil_of_idle (by simp [Idle, selecting])
      have hlive : s.consumer ≠ .returned := by
        rw [selecting]
        nofun
      refine { ordered with
        order := ⟨dropped, ?_, hoffering, hreading⟩
        bounded := ?_
        calm := nofun
        refused := fun other hother hrefused =>
          absurd hrefused (ordered.none_refused hlive other hother) }
      · rw [horder, hnone, queue]
        simp [taken]
      · have hbounded := ordered.bounded
        rw [queue, List.length_cons] at hbounded
        exact Nat.le_of_succ_le hbounded
  | act msg dispatching => exact ordered.act dispatching
  | move consumer cancelled before live after kept =>
      have hafter : taken { s with consumer := consumer, cancelled := cancelled } = [] :=
        taken_eq_nil_of_idle after
      refine { ordered with
        order := ⟨dropped, ?_, hoffering, hreading⟩
        calm := after.2
        refused := fun other hother hrefused =>
          absurd hrefused (ordered.none_refused live other hother) }
      rw [hafter, horder, taken_eq_nil_of_idle before]

/-- The reader has returned with `msg` dropped; `earlier` is what came before it. -/
structure Dropped (earlier : List Bytes) (msg : Bytes) (s : Input) : Prop where
  returned : s.reader = .returned
  cancelled : s.cancelled = true
  received : s.received = earlier ++ [msg]
  pending : s.acted ++ s.taken ++ s.queue = earlier

/-- Nothing is received after a dropped message, and it is never acted on. -/
theorem Dropped.change {earlier : List Bytes} {msg : Bytes} (dropped : Dropped earlier msg s)
    (ordered : Ordered unmarshal s) (change : s.Change unmarshal t) : Dropped earlier msg t := by
  have hreturned := dropped.returned
  cases change with
  | same => exact dropped
  | cancel => exact { dropped with cancelled := rfl }
  | receive other reading content =>
      rw [hreturned] at reading
      cases reading
  | enqueue other offering room =>
      rw [hreturned] at offering
      cases offering
  | leave => exact { dropped with returned := rfl, cancelled := rfl }
  | take other rest selecting queue =>
      have hnone : s.taken = [] := taken_eq_nil_of_idle (by simp [Idle, selecting])
      refine { dropped with pending := ?_ }
      rw [← dropped.pending, hnone, queue]
      simp [taken]
  | act other dispatching =>
      have hcontent : other ≠ [] := by
        refine ordered.content other ?_
        rw [dropped.received, ← dropped.pending, taken, dispatching]
        simp
      have hpanics : dispatch unmarshal other ≠ .panics := dispatch_ne_panics hcontent
      obtain ⟨hacted, htaken, hqueue, hreceived, hreader⟩ := act_parts dispatching _ hpanics
      refine ⟨hreader.trans hreturned, ?_, hreceived.trans dropped.received, ?_⟩
      · cases hdispatch : dispatch unmarshal other with
        | panics => exact absurd hdispatch hpanics
        | write data => exact dropped.cancelled
        | windowChange rows cols => exact dropped.cancelled
        | refuse => rfl
      · rw [hacted, htaken, hqueue, List.append_nil, ← dropped.pending]
  | move consumer cancelled before live after kept =>
      have hafter : taken { s with consumer := consumer, cancelled := cancelled } = [] :=
        taken_eq_nil_of_idle after
      refine { dropped with cancelled := kept dropped.cancelled, pending := ?_ }
      rw [hafter, ← dropped.pending, taken_eq_nil_of_idle before]

/-- The actions by which the reader gives a message up. -/
def Drops (action : InputAction) : Prop := action = .overflow ∨ action = .notice

theorem dropped_of_step {action : InputAction} (ordered : Ordered unmarshal s)
    (drops : Drops action) (step : s.step unmarshal action = some t) :
    ∃ earlier msg, Dropped earlier msg t := by
  obtain ⟨dropped, horder, hoffering, -⟩ := ordered.order
  rcases drops with rfl | rfl
  · dsimp only [Input.step] at step
    split at step
    · next msg hreader =>
        split at step
        · cases step
        · obtain rfl := Option.some.inj step
          rw [hoffering msg hreader] at horder
          exact ⟨_, msg, rfl, rfl, horder, rfl⟩
    · cases step
  · dsimp only [Input.step] at step
    split at step
    · next msg hreader =>
        split at step
        · next hcancelled =>
            obtain rfl := Option.some.inj step
            rw [hoffering msg hreader] at horder
            exact ⟨_, msg, rfl, hcancelled, horder, rfl⟩
        · cases step
    · cases step

end Input

/-! ## Within the session -/

namespace Terminal

variable {unmarshal : Bytes → Option Size} {t next : Terminal}

theorem input_setPump (t : Terminal) (kind : OutputKind) (pump : Pump × Bool) :
    (t.setPump kind pump).input = { t.input with cancelled := t.input.cancelled || pump.2 } := by
  unfold setPump
  dsimp only
  split
  · next hcancels =>
      rw [hcancels, Bool.or_true]
      rfl
  · next hcancels =>
      rw [Bool.not_eq_true] at hcancels
      rw [hcancels, Bool.or_false]
      rfl

@[simp]
theorem frames_setPump (t : Terminal) (kind : OutputKind) (pump : Pump × Bool) :
    (t.setPump kind pump).frames = t.frames := by
  unfold setPump
  dsimp only
  split <;> rfl

theorem streams_setPump (t : Terminal) (kind : OutputKind) (pump : Pump × Bool) :
    (t.setPump kind pump).streams =
      (t.setStream kind { t.streams kind with pump := pump.1 }).streams := by
  unfold setPump
  dsimp only
  split <;> rfl

theorem change_setPump {moved : Terminal} (kind : OutputKind) (pump : Pump × Bool)
    (same : moved.input = t.input) : t.input.Change unmarshal (moved.setPump kind pump).input := by
  rw [input_setPump, same]
  cases pump.2 with
  | false =>
      rw [Bool.or_false]
      exact .same
  | true =>
      rw [Bool.or_true]
      exact .cancel

theorem step_input {action : InputAction} (step : t.step unmarshal (.input action) = some next) :
    ∃ input, t.input.step unmarshal action = some input ∧ next = { t with input := input } := by
  have hinput : (t.input.step unmarshal action).map (fun input => { t with input := input }) =
      some next := by
    -- the two actions that the session takes itself are no steps of the browser
    cases action <;> first | exact step | cases step
  obtain ⟨input, hstep, hnext⟩ := Option.map_eq_some_iff.mp hinput
  exact ⟨input, hstep, hnext.symm⟩

/-- To its browser side, an action of the session is a step or a cancellation. -/
theorem change_of_step {action : Action} (step : t.step unmarshal action = some next) :
    t.input.Change unmarshal next.input := by
  cases action with
  | input action =>
      obtain ⟨input, hstep, rfl⟩ := step_input step
      exact Input.change_of_step hstep
  | connect greeting =>
      dsimp only [Terminal.step] at step
      split at step
      · obtain ⟨input, hstep, rfl⟩ := Option.map_eq_some_iff.mp step
        exact Input.change_of_step hstep
      · cases step
  | connectFails report =>
      dsimp only [Terminal.step] at step
      split at step
      · obtain rfl := Option.some.inj step
        exact .cancel
      · cases step
  | produce kind data =>
      dsimp only [Terminal.step] at step
      split at step
      · cases step
      · obtain rfl := Option.some.inj step
        exact .same
  | finish kind =>
      dsimp only [Terminal.step] at step
      split at step
      · obtain rfl := Option.some.inj step
        exact .same
      · cases step
  | read kind n last =>
      dsimp only [Terminal.step, stepRead] at step
      split at step
      · cases step
      · split at step
        · cases step
        · split at step
          · obtain rfl := Option.some.inj step
            exact change_setPump _ _ rfl
          · obtain rfl := Option.some.inj step
            exact change_setPump _ _ rfl
  | send kind ok =>
      dsimp only [Terminal.step, stepSend] at step
      split at step
      · split at step
        · obtain rfl := Option.some.inj step
          exact change_setPump _ _ rfl
        · obtain rfl := Option.some.inj step
          exact change_setPump _ _ rfl
      · cases step
  | drained =>
      dsimp only [Terminal.step] at step
      split at step
      · obtain rfl := Option.some.inj step
        exact .cancel
      · cases step
  | pingFails =>
      obtain rfl := Option.some.inj step
      exact .cancel
  | parentCancelled =>
      obtain rfl := Option.some.inj step
      exact .cancel
  | close =>
      dsimp only [Terminal.step] at step
      split at step
      · obtain rfl := Option.some.inj step
        exact .same
      · cases step

theorem ordered_of_run {actions : List Action}
    (run : play (step unmarshal) initial actions = some t) : Input.Ordered unmarshal t.input :=
  play_preserves (fun t => Input.Ordered unmarshal t.input) (Input.ordered_initial unmarshal)
    (fun ordered step => ordered.change (change_of_step step)) run

theorem dropped_of_run {actions : List Action} {action : InputAction}
    (run : play (step unmarshal) initial actions = some t) (drops : Input.Drops action)
    (mem : .input action ∈ actions) : ∃ earlier msg, Input.Dropped earlier msg t.input := by
  obtain ⟨front, back, rfl⟩ := List.append_of_mem mem
  obtain ⟨before, hfront, hrest⟩ := play_append_iff.mp run
  obtain ⟨after, hstep, hback⟩ := play_cons_iff.mp hrest
  have hbefore := ordered_of_run hfront
  have hdropped : ∃ earlier msg, Input.Dropped earlier msg after.input := by
    have hinput : (before.input.step unmarshal action).map
        (fun input => { before with input := input }) = some after := by
      rcases drops with rfl | rfl <;> exact hstep
    obtain ⟨input, hinner, rfl⟩ := Option.map_eq_some_iff.mp hinput
    exact Input.dropped_of_step hbefore drops hinner
  obtain ⟨earlier, msg, hdropped⟩ := hdropped
  refine ⟨earlier, msg, ?_⟩
  have hboth : Input.Ordered unmarshal t.input ∧ Input.Dropped earlier msg t.input := by
    refine play_preserves (fun t => Input.Ordered unmarshal t.input ∧
      Input.Dropped earlier msg t.input) ⟨hbefore.change (change_of_step hstep), hdropped⟩ ?_ hback
    rintro state next other ⟨hordered, hstays⟩ hother
    have hchange := change_of_step hother
    exact ⟨hordered.change hchange, hstays.change hordered hchange⟩
  exact hboth.2

/--
The input relay keeps order and loses nothing silently, in any run of the session.
What is acted on is a prefix of the binary messages with content that were received;
the shell is written exactly the payloads of the stdin messages among them; the queue
stays within its bound; and a message that is given up or refused is the last one that
is received or acted on, with the session cancelled.
-/
theorem terminalInput_ordered {actions : List Action}
    (run : play (step unmarshal) initial actions = some t) :
    t.input.acted <+: t.input.received ∧
    t.input.written.flatten = (t.input.acted.filterMap stdinPayload).flatten ∧
    t.input.queue.length ≤ terminalInputQueue ∧
    (∀ action, Input.Drops action → .input action ∈ actions → t.input.cancelled = true ∧
      ∃ earlier msg, t.input.received = earlier ++ [msg] ∧ t.input.acted <+: earlier) ∧
    (∀ msg ∈ t.input.acted, UnknownType msg ∨ InvalidResize unmarshal msg →
      t.input.cancelled = true ∧ ∃ earlier, t.input.acted = earlier ++ [msg]) := by
  have hordered := ordered_of_run run
  refine ⟨?_, ?_, hordered.bounded, ?_, ?_⟩
  · obtain ⟨dropped, horder, -⟩ := hordered.order
    rw [horder, List.append_assoc, List.append_assoc]
    exact List.prefix_append _ _
  · rw [hordered.written]
  · intro action drops mem
    obtain ⟨earlier, msg, hdropped⟩ := dropped_of_run run drops mem
    refine ⟨hdropped.cancelled, earlier, msg, hdropped.received, ?_⟩
    rw [← hdropped.pending, List.append_assoc]
    exact List.prefix_append _ _
  · intro msg hmsg hrefused
    obtain ⟨-, hcancelled, hlast⟩ := hordered.refused msg hmsg hrefused
    exact ⟨hcancelled, hlast⟩

/-- A keystroke that is written, then a message of an unknown type behind which another
one stays in the queue. -/
def testActions : List Action :=
  [.connect [], .input (.receive .binary [0, 65]), .input .enqueue, .input .take, .input .dispatch,
    .input (.receive .binary [9]), .input .enqueue, .input (.callReturns true),
    .input (.receive .binary [0, 66]), .input .enqueue, .input .take, .input .dispatch]

theorem terminalInput_ordered_unknown :
    ∃ t, play (step fun _ => none) initial testActions = some t ∧
      t.input.acted = [[0, 65], [9]] ∧ t.input.acted <+: t.input.received ∧
      t.input.cancelled = true := by
  have hplayed : (play (step fun _ => none) initial testActions).map (fun t => t.input.acted) =
      some [[0, 65], [9]] := rfl
  obtain ⟨t, run, hacted⟩ := Option.map_eq_some_iff.mp hplayed
  have hmem : [9] ∈ t.input.acted := by
    rw [hacted]
    decide
  have hunknown : UnknownType [9] := ⟨9, [], rfl, by decide, by decide⟩
  have hordered := terminalInput_ordered run
  exact ⟨t, run, hacted, hordered.1, (hordered.2.2.2.2 [9] hmem (Or.inl hunknown)).1⟩

end Terminal

end OpsUp.Api
