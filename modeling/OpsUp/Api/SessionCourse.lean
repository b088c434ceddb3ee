import OpsUp.Api.TerminalOutput

/-!
# The course of a session

A session sends the greeting once its shell runs, and from then on only output; a session
that never gets so far sends at most its error.  Whatever ends it, what it has sent of a
stream is the beginning of what the shell wrote to it.
-/

namespace OpsUp.Api

open OpsUp.Go OpsUp.Interaction

namespace Terminal

variable {unmarshal : Bytes → Option Size} {t next : Terminal}

/-- Everything that a step can do on the side of the shell. -/
inductive Shell (t next : Terminal) : Prop where
  | quiet (streams : next.streams = t.streams) (frames : next.frames = t.frames)
      (phase : next.phase = t.phase)
  | connected (greeting : Bytes) (dialing : t.phase = .dialing) (streams : next.streams = t.streams)
      (frames : next.frames = t.frames ++ [typedMsg msgTypeConnectd greeting])
      (phase : next.phase = .running)
  | failed (report : Option Bytes) (dialing : t.phase = .dialing)
      (streams : next.streams = t.streams)
      (frames : next.frames = t.frames ++ report.toList.map (typedMsg msgTypeError))
      (phase : next.phase = .over)
  | produced (kind : OutputKind) (data : Bytes) (running : t.phase = .running)
      (streams : next.streams = Function.update t.streams kind
        { t.streams kind with produced := (t.streams kind).produced ++ data })
      (frames : next.frames = t.frames) (phase : next.phase = t.phase)
  | ended (kind : OutputKind) (running : t.phase = .running)
      (streams : next.streams = Function.update t.streams kind { t.streams kind with ended := true })
      (frames : next.frames = t.frames) (phase : next.phase = t.phase)
  | read (kind : OutputKind) (n : Nat) (pump : Pump) (running : t.phase = .running)
      (reading : (t.streams kind).pump = .reading) (available : n ≤ (t.streams kind).unread.length)
      (pending : pump.pending = (t.streams kind).unread.take n)
      (streams : next.streams = Function.update t.streams kind
        { t.streams kind with read := (t.streams kind).read + n, pump := pump })
      (frames : next.frames = t.frames) (phase : next.phase = t.phase)
  | sent (kind : OutputKind) (data : Bytes) (last : ReadEnd)
      (sending : (t.streams kind).pump = .sending data last)
      (streams : next.streams =
        Function.update t.streams kind { t.streams kind with pump := (afterRead last).1 })
      (frames : next.frames = t.frames ++ [typedMsg kind.msgType data])
      (phase : next.phase = t.phase)
  | lost (kind : OutputKind) (data : Bytes) (last : ReadEnd)
      (sending : (t.streams kind).pump = .sending data last)
      (streams : next.streams =
        Function.update t.streams kind { t.streams kind with pump := .returned })
      (frames : next.frames = t.frames) (phase : next.phase = t.phase)

theorem phase_setPump (t : Terminal) (kind : OutputKind) (pump : Pump × Bool) :
    (t.setPump kind pump).phase = t.phase := by
  unfold setPump
  dsimp only
  split <;> rfl

/-- After a read the pump moves within its stream. -/
theorem shell_read {kind : OutputKind} {n : Nat} {pump : Pump × Bool}
    (running : t.phase = .running) (reading : (t.streams kind).pump = .reading)
    (available : n ≤ (t.streams kind).unread.length)
    (pending : pump.1.pending = (t.streams kind).unread.take n) :
    Shell t ((t.setStream kind
      { t.streams kind with read := (t.streams kind).read + n }).setPump kind pump) := by
  refine .read kind n pump.1 running reading available pending ?_ (frames_setPump _ _ _)
    (phase_setPump _ _ _)
  rw [streams_setPump, streams_setStream_self, setStream_setStream]
  rfl

theorem shell_of_step {action : Action} (step : t.step unmarshal action = some next) :
    Shell t next := by
  cases action with
  | input action =>
      obtain ⟨input, -, rfl⟩ := step_input step
      exact .quiet rfl rfl rfl
  | connect greeting =>
      obtain ⟨hdialing, hstep⟩ := Option.ite_none_right_eq_some.mp step
      obtain ⟨input, -, rfl⟩ := Option.map_eq_some_iff.mp hstep
      exact .connected greeting hdialing rfl rfl rfl
  | connectFails report =>
      obtain ⟨hdialing, hnext⟩ := Option.ite_none_right_eq_some.mp step
      obtain rfl := Option.some.inj hnext
      exact .failed report hdialing rfl rfl rfl
  | produce kind data =>
      obtain ⟨hrunning, hnext⟩ := Option.ite_none_left_eq_some.mp step
      obtain rfl := Option.some.inj hnext
      rw [not_or, not_not] at hrunning
      exact .produced kind data hrunning.1 rfl rfl rfl
  | finish kind =>
      obtain ⟨hrunning, hnext⟩ := Option.ite_none_right_eq_some.mp step
      obtain rfl := Option.some.inj hnext
      exact .ended kind hrunning rfl rfl rfl
  | read kind n last =>
      dsimp only [Terminal.step, stepRead] at step
      split at step
      · cases step
      · next hready =>
          rw [not_or, not_or, not_or, not_not, not_not, Nat.not_lt, Nat.not_lt] at hready
          obtain ⟨hrunning, hreading, -, havailable⟩ := hready
          split at step
          · cases step
          · split at step
            · next hnone =>
                obtain rfl := Option.some.inj step
                subst hnone
                refine shell_read hrunning hreading havailable ?_
                cases last <;> rfl
            · obtain rfl := Option.some.inj step
              exact shell_read hrunning hreading havailable rfl
  | send kind ok =>
      dsimp only [Terminal.step, stepSend] at step
      split at step
      · next data last hsending =>
          split at step
          · obtain rfl := Option.some.inj step
            exact .sent kind data last hsending (streams_setPump _ _ _) (frames_setPump _ _ _)
              (phase_setPump _ _ _)
          · obtain rfl := Option.some.inj step
            exact .lost kind data last hsending (streams_setPump _ _ _) (frames_setPump _ _ _)
              (phase_setPump _ _ _)
      · cases step
  | drained =>
      obtain ⟨-, hnext⟩ := Option.ite_none_right_eq_some.mp step
      obtain rfl := Option.some.inj hnext
      exact .quiet rfl rfl rfl
  | pingFails =>
      obtain rfl := Option.some.inj step
      exact .quiet rfl rfl rfl
  | parentCancelled =>
      obtain rfl := Option.some.inj step
      exact .quiet rfl rfl rfl
  | close =>
      obtain ⟨-, hnext⟩ := Option.ite_none_right_eq_some.mp step
      obtain rfl := Option.some.inj hnext
      exact .quiet rfl rfl rfl

/-- What was sent stays sent. -/
theorem frames_prefix {action : Action} (step : t.step unmarshal action = some next) :
    t.frames <+: next.frames := by
  cases shell_of_step step with
  | quiet _ hframes _ => exact hframes ▸ List.prefix_refl _
  | connected _ _ _ hframes _ => exact hframes ▸ List.prefix_append _ _
  | failed _ _ _ hframes _ => exact hframes ▸ List.prefix_append _ _
  | produced _ _ _ _ hframes _ => exact hframes ▸ List.prefix_refl _
  | ended _ _ _ hframes _ => exact hframes ▸ List.prefix_refl _
  | read _ _ _ _ _ _ _ _ hframes _ => exact hframes ▸ List.prefix_refl _
  | sent _ _ _ _ _ hframes _ => exact hframes ▸ List.prefix_append _ _
  | lost _ _ _ _ _ hframes _ => exact hframes ▸ List.prefix_refl _

/-! ## The phases -/

/-- A frame of output. -/
def OutputFrame (frame : Bytes) : Prop :=
  ∃ (kind : OutputKind) (payload : Bytes), frame = typedMsg kind.msgType payload

/-- What a session has sent tells its phase. -/
inductive Course (t : Terminal) : Prop where
  | dialing (phase : t.phase = .dialing) (frames : t.frames = [])
      (idle : ∀ kind, (t.streams kind).pump = .reading)
  | running (greeting : Bytes) (outputs : List Bytes) (phase : t.phase = .running)
      (frames : t.frames = typedMsg msgTypeConnectd greeting :: outputs)
      (output : ∀ frame ∈ outputs, OutputFrame frame)
  | ended (report : Option Bytes) (phase : t.phase = .over)
      (frames : t.frames = report.toList.map (typedMsg msgTypeError))
      (idle : ∀ kind, (t.streams kind).pump = .reading)

theorem course_initial : Course initial := .dialing rfl rfl fun _ => rfl

/-- A pump that sends has read. -/
theorem Course.running_of_sending (course : Course t) {kind : OutputKind} {data : Bytes}
    {last : ReadEnd} (sending : (t.streams kind).pump = .sending data last) :
    ∃ greeting outputs, t.phase = .running ∧
      t.frames = typedMsg msgTypeConnectd greeting :: outputs ∧
      ∀ frame ∈ outputs, OutputFrame frame := by
  cases course with
  | dialing _ _ hidle => cases (hidle kind).symm.trans sending
  | running greeting outputs hphase hframes houtput =>
      exact ⟨greeting, outputs, hphase, hframes, houtput⟩
  | ended _ _ _ hidle => cases (hidle kind).symm.trans sending

theorem Course.of_running (course : Course t) (running : t.phase = .running) :
    ∃ greeting outputs, t.frames = typedMsg msgTypeConnectd greeting :: outputs ∧
      ∀ frame ∈ outputs, OutputFrame frame := by
  cases course with
  | dialing hphase _ _ => cases hphase.symm.trans running
  | running greeting outputs _ hframes houtput => exact ⟨greeting, outputs, hframes, houtput⟩
  | ended _ hphase _ _ => cases hphase.symm.trans running

theorem Course.of_dialing (course : Course t) (dialing : t.phase = .dialing) :
    t.frames = [] ∧ ∀ kind, (t.streams kind).pump = .reading := by
  cases course with
  | dialing _ hframes hidle => exact ⟨hframes, hidle⟩
  | running _ _ hphase _ _ => cases hphase.symm.trans dialing
  | ended _ hphase _ _ => cases hphase.symm.trans dialing

/-- Only a session whose shell runs sends anything but an error. -/
theorem Course.running_of_mem (course : Course t) {frame : Bytes} (mem : frame ∈ t.frames)
    (noError : frame.head? ≠ some msgTypeError) : t.phase = .running := by
  cases course with
  | dialing _ hframes _ =>
      rw [hframes] at mem
      cases mem
  | running _ _ hphase _ _ => exact hphase
  | ended report _ hframes _ =>
      rw [hframes] at mem
      obtain ⟨text, -, rfl⟩ := List.mem_map.mp mem
      exact absurd rfl noError

theorem Course.shell (course : Course t) (shell : Shell t next) : Course next := by
  have hkept : t.phase = .running → next.frames = t.frames → next.phase = t.phase →
      Course next := by
    intro hrunning hframes hphase
    obtain ⟨greeting, outputs, hsent, houtput⟩ := course.of_running hrunning
    exact .running greeting outputs (hphase.trans hrunning) (hframes.trans hsent) houtput
  cases shell with
  | quiet hstreams hframes hphase =>
      cases course with
      | dialing hdialing hnone hidle =>
          exact .dialing (hphase.trans hdialing) (hframes.trans hnone) (hstreams ▸ hidle)
      | running greeting outputs hrunning hsent houtput =>
          exact .running greeting outputs (hphase.trans hrunning) (hframes.trans hsent) houtput
      | ended report hover hsent hidle =>
          exact .ended report (hphase.trans hover) (hframes.trans hsent) (hstreams ▸ hidle)
  | connected greeting hdialing hstreams hframes hphase =>
      rw [(course.of_dialing hdialing).1] at hframes
      exact .running greeting [] hphase hframes nofun
  | failed report hdialing hstreams hframes hphase =>
      obtain ⟨hnone, hidle⟩ := course.of_dialing hdialing
      rw [hnone] at hframes
      exact .ended report hphase hframes (hstreams ▸ hidle)
  | produced kind data hrunning hstreams hframes hphase => exact hkept hrunning hframes hphase
  | ended kind hrunning hstreams hframes hphase => exact hkept hrunning hframes hphase
  | read kind n pump hrunning hreading havailable hpending hstreams hframes hphase =>
      exact hkept hrunning hframes hphase
  | sent kind data last hsending hstreams hframes hphase =>
      obtain ⟨greeting, outputs, hrunning, hsent, houtput⟩ := course.running_of_sending hsending
      refine .running greeting (outputs ++ [typedMsg kind.msgType data]) (hphase.trans hrunning) ?_ ?_
      · rw [hframes, hsent, List.cons_append]
      · intro frame hframe
        rcases List.mem_append.mp hframe with hold | hnew
        · exact houtput frame hold
        · exact ⟨kind, data, List.mem_singleton.mp hnew⟩
  | lost kind data last hsending hstreams hframes hphase =>
      obtain ⟨-, -, hrunning, -, -⟩ := course.running_of_sending hsending
      exact hkept hrunning hframes hphase

/-! ## The streams -/

/-- What was sent and what the pump holds is what it has taken, but for the data whose write
failed. -/
structure Passed (sent : Bytes) (stream : Stream) : Prop where
  bound : stream.read ≤ stream.produced.length
  taken : ∃ lost, sent ++ (stream.pump.pending ++ lost) = stream.produced.take stream.read ∧
    (stream.pump ≠ .returned → lost = [])

theorem passed_initial : Passed [] .initial := ⟨Nat.le_refl _, [], rfl, fun _ => rfl⟩

section Passed

variable {sent : Bytes} {stream : Stream}

theorem Passed.prefix_produced (passed : Passed sent stream) : sent <+: stream.produced := by
  obtain ⟨lost, htaken, -⟩ := passed.taken
  exact (List.prefix_append sent _).trans (htaken ▸ List.take_prefix _ _)

/-- Nothing is held back or lost. -/
theorem Passed.complete (passed : Passed sent stream) (reading : stream.pump = .reading)
    (all : stream.unread = []) : sent = stream.produced := by
  obtain ⟨lost, htaken, hlost⟩ := passed.taken
  have hread : stream.produced.length ≤ stream.read := List.drop_eq_nil_iff.mp all
  rw [reading, Pump.pending, hlost (by simp [reading]), List.take_of_length_le hread] at htaken
  rw [← htaken]
  simp

theorem Passed.produce (passed : Passed sent stream) (data : Bytes) :
    Passed sent { stream with produced := stream.produced ++ data } where
  bound := by
    rw [List.length_append]
    exact Nat.le_add_right_of_le passed.bound
  taken := by
    rw [List.take_append_of_le_length passed.bound]
    exact passed.taken

theorem Passed.read (passed : Passed sent stream) {n : Nat} {pump : Pump}
    (reading : stream.pump = .reading) (available : n ≤ stream.unread.length)
    (pending : pump.pending = stream.unread.take n) :
    Passed sent { stream with read := stream.read + n, pump := pump } where
  bound := by
    have hbound := passed.bound
    rw [Stream.unread, List.length_drop] at available
    dsimp only
    omega
  taken := by
    obtain ⟨lost, htaken, hlost⟩ := passed.taken
    rw [reading, Pump.pending, hlost (by simp [reading])] at htaken
    refine ⟨[], ?_, fun _ => rfl⟩
    dsimp only
    rw [List.take_add, ← htaken, pending, Stream.unread]
    simp

theorem Passed.send (passed : Passed sent stream) {data : Bytes} {last : ReadEnd}
    (sending : stream.pump = .sending data last) :
    Passed (sent ++ data) { stream with pump := (afterRead last).1 } where
  bound := passed.bound
  taken := by
    obtain ⟨lost, htaken, hlost⟩ := passed.taken
    rw [sending, Pump.pending, hlost (by simp [sending])] at htaken
    refine ⟨[], ?_, fun _ => rfl⟩
    dsimp only
    rw [← htaken]
    cases last <;> simp [afterRead, Pump.pending]

theorem Passed.lose (passed : Passed sent stream) : Passed sent { stream with pump := .returned } where
  bound := passed.bound
  taken := by
    obtain ⟨lost, htaken, -⟩ := passed.taken
    exact ⟨stream.pump.pending ++ lost, htaken, fun hother => absurd rfl hother⟩

end Passed

/-- Both streams are passed on. -/
def Passes (t : Terminal) : Prop :=
  ∀ kind : OutputKind, Passed (sentOn kind.msgType t.frames) (t.streams kind)

theorem passes_initial : Passes initial := fun _ => passed_initial

/-- One stream moves, the frames of the other are the same. -/
theorem Passes.update (passes : Passes t) {kind : OutputKind} {stream : Stream} {frames : List Bytes}
    (streams : next.streams = Function.update t.streams kind stream)
    (sent : next.frames = frames)
    (same : ∀ other : OutputKind, other ≠ kind →
      sentOn other.msgType frames = sentOn other.msgType t.frames)
    (passed : Passed (sentOn kind.msgType frames) stream) : Passes next := by
  intro other
  rw [streams, sent, Function.update_apply]
  split
  · next hsame =>
      subst hsame
      exact passed
  · next hother =>
      rw [same other hother]
      exact passes other

theorem Passes.shell (passes : Passes t) (shell : Shell t next) : Passes next := by
  cases shell with
  | quiet hstreams hframes _ =>
      intro kind
      rw [hstreams, hframes]
      exact passes kind
  | connected greeting _ hstreams hframes _ =>
      intro kind
      have hother : msgTypeConnectd ≠ kind.msgType := by cases kind <;> decide
      rw [hstreams, hframes, sentOn_append, sentOn_typedMsg_of_ne hother, List.append_nil]
      exact passes kind
  | failed report _ hstreams hframes _ =>
      intro kind
      have hother : msgTypeError ≠ kind.msgType := by cases kind <;> decide
      rw [hstreams, hframes, sentOn_append]
      cases report with
      | none =>
          have hsilent : sentOn kind.msgType (Option.toList none |>.map (typedMsg msgTypeError)) = [] :=
            rfl
          rw [hsilent, List.append_nil]
          exact passes kind
      | some report =>
          rw [Option.toList_some, List.map_cons, List.map_nil, sentOn_typedMsg_of_ne hother,
            List.append_nil]
          exact passes kind
  | produced kind data _ hstreams hframes _ =>
      exact passes.update hstreams hframes (fun _ _ => rfl) ((passes kind).produce data)
  | ended kind _ hstreams hframes _ =>
      exact passes.update hstreams hframes (fun _ _ => rfl) ⟨(passes kind).bound, (passes kind).taken⟩
  | read kind n pump _ hreading havailable hpending hstreams hframes _ =>
      exact passes.update hstreams hframes (fun _ _ => rfl)
        ((passes kind).read hreading havailable hpending)
  | sent kind data last hsending hstreams hframes _ =>
      refine passes.update hstreams hframes (fun other hother => ?_) ?_
      · rw [sentOn_append, sentOn_typedMsg_of_ne (OutputKind.msgType_ne hother.symm),
          List.append_nil]
      · rw [sentOn_append, sentOn_typedMsg]
        exact (passes kind).send hsending
  | lost kind data last hsending hstreams hframes _ =>
      exact passes.update hstreams hframes (fun _ _ => rfl) (passes kind).lose

/-! ## The side of the browser -/

/-- The window change that a message asks for. -/
def windowSize (unmarshal : Bytes → Option Size) (msg : Bytes) : Option (Int × Int) :=
  match dispatch unmarshal msg with
  | .windowChange rows cols => some (rows, cols)
  | _ => none

/-- The window changes requested are those of the messages acted on. -/
theorem resized_of_change {s s' : Input} (resized : s.resized = s.acted.filterMap (windowSize unmarshal))
    (change : s.Change unmarshal s') : s'.resized = s'.acted.filterMap (windowSize unmarshal) := by
  cases change with
  | same => exact resized
  | cancel => exact resized
  | receive => exact resized
  | enqueue => exact resized
  | leave => exact resized
  | take => exact resized
  | move => exact resized
  | act msg dispatching =>
      cases hdispatch : dispatch unmarshal msg with
      | panics => exact resized
      | write data => simp [Input.act, resized, windowSize, hdispatch]
      | windowChange rows cols => simp [Input.act, resized, windowSize, hdispatch]
      | refuse => simp [Input.act, resized, windowSize, hdispatch]

/-- All that a step does on the side of the browser. -/
inductive Side (unmarshal : Bytes → Option Size) (t next : Terminal) : Action → Prop where
  | input (action : InputAction) (started : action ≠ .start)
      (step : t.input.step unmarshal action = some next.input) (phase : next.phase = t.phase) :
      Side unmarshal t next (.input action)
  | connect (greeting : Bytes) (step : t.input.step unmarshal .start = some next.input)
      (phase : next.phase = .running) : Side unmarshal t next (.connect greeting)
  | other {action : Action} (cancelled : Bool) (noInput : ∀ input, action ≠ .input input)
      (input : next.input = { t.input with cancelled := cancelled })
      (phase : next.phase = t.phase ∨ t.phase = .dialing) : Side unmarshal t next action

theorem side_setPump {moved : Terminal} {action : Action} (kind : OutputKind) (pump : Pump × Bool)
    (noInput : ∀ input, action ≠ .input input) (input : moved.input = t.input)
    (phase : moved.phase = t.phase) : Side unmarshal t (moved.setPump kind pump) action := by
  have hinput : (moved.setPump kind pump).input =
      { t.input with cancelled := t.input.cancelled || pump.2 } := by
    rw [input_setPump, input]
  exact .other _ noInput hinput (.inl ((phase_setPump _ _ _).trans phase))

theorem side_of_step {action : Action} (step : t.step unmarshal action = some next) :
    Side unmarshal t next action := by
  have hcancel : ∀ {action}, (∀ input, action ≠ .input input) → Side unmarshal t t.cancel action :=
    fun hother => .other true hother rfl (.inl rfl)
  have hsame : ∀ {action}, (∀ input, action ≠ .input input) → next.input = t.input →
      next.phase = t.phase → Side unmarshal t next action :=
    fun hother hinput hphase => .other t.input.cancelled hother hinput (.inl hphase)
  cases action with
  | input action =>
      have hstarted : action ≠ .start := by
        rintro rfl
        cases step
      obtain ⟨input, hstep, rfl⟩ := step_input step
      exact .input action hstarted hstep rfl
  | connect greeting =>
      obtain ⟨-, hstep⟩ := Option.ite_none_right_eq_some.mp step
      obtain ⟨input, hstart, rfl⟩ := Option.map_eq_some_iff.mp hstep
      exact .connect greeting hstart rfl
  | connectFails report =>
      obtain ⟨hdialing, hnext⟩ := Option.ite_none_right_eq_some.mp step
      obtain rfl := Option.some.inj hnext
      exact .other true nofun rfl (.inr hdialing)
  | produce kind data =>
      obtain ⟨-, hnext⟩ := Option.ite_none_left_eq_some.mp step
      obtain rfl := Option.some.inj hnext
      exact hsame nofun rfl rfl
  | finish kind =>
      obtain ⟨-, hnext⟩ := Option.ite_none_right_eq_some.mp step
      obtain rfl := Option.some.inj hnext
      exact hsame nofun rfl rfl
  | read kind n last =>
      dsimp only [Terminal.step, stepRead] at step
      split at step
      · cases step
      · split at step
        · cases step
        · split at step
          · obtain rfl := Option.some.inj step
            exact side_setPump _ _ nofun rfl rfl
          · obtain rfl := Option.some.inj step
            exact side_setPump _ _ nofun rfl rfl
  | send kind ok =>
      dsimp only [Terminal.step, stepSend] at step
      split at step
      · split at step
        · obtain rfl := Option.some.inj step
          exact side_setPump _ _ nofun rfl rfl
        · obtain rfl := Option.some.inj step
          exact side_setPump _ _ nofun rfl rfl
      · cases step
  | drained =>
      obtain ⟨-, hnext⟩ := Option.ite_none_right_eq_some.mp step
      obtain rfl := Option.some.inj hnext
      exact hcancel nofun
  | pingFails =>
      obtain rfl := Option.some.inj step
      exact hcancel nofun
  | parentCancelled =>
      obtain rfl := Option.some.inj step
      exact hcancel nofun
  | close =>
      obtain ⟨-, hnext⟩ := Option.ite_none_right_eq_some.mp step
      obtain rfl := Option.some.inj hnext
      exact hsame nofun rfl rfl

/-- What the reader keeps of a message. -/
def kept (message : MessageKind × Bytes) : Option Bytes :=
  if message.1 ≠ .binary ∨ message.2 = [] then none else some message.2

theorem received_of_receive {kind : MessageKind} {msg : Bytes}
    (step : t.step unmarshal (.input (.receive kind msg)) = some next) :
    next.input.received = t.input.received ++ (kept (kind, msg)).toList := by
  obtain ⟨input, hstep, rfl⟩ := step_input step
  obtain ⟨-, hstep⟩ := Option.ite_none_left_eq_some.mp hstep
  unfold kept
  split at hstep
  · next hskipped =>
      obtain rfl := Option.some.inj hstep
      rw [if_pos hskipped]
      exact (List.append_nil _).symm
  · next hcontent =>
      obtain rfl := Option.some.inj hstep
      rw [if_neg hcontent]
      rfl

/-- Only the reader receives. -/
theorem received_of_input {s s' : Input} {action : InputAction}
    (step : s.step unmarshal action = some s') (other : ∀ kind msg, action ≠ .receive kind msg) :
    s'.received = s.received := by
  cases action with
  | receive kind msg => exact absurd rfl (other kind msg)
  | dispatch =>
      dsimp only [Input.step] at step
      split at step
      · next msg _ =>
          obtain rfl := Option.some.inj step
          cases dispatch unmarshal msg <;> rfl
      · cases step
  | _ =>
      -- none of the others touches what was received
      dsimp only [Input.step] at step
      repeat' split at step
      all_goals cases step <;> rfl

theorem received_of_step {action : Action} (step : t.step unmarshal action = some next)
    (other : ∀ kind msg, action ≠ .input (.receive kind msg)) :
    next.input.received = t.input.received := by
  cases side_of_step step with
  | input action _ hstep _ =>
      exact received_of_input hstep fun kind msg hreceive => other kind msg (hreceive ▸ rfl)
  | connect greeting hstep _ => exact received_of_input hstep nofun
  | other cancelled _ hinput _ => rw [hinput]

/-- Nothing is acted on before the shell runs. -/
def Waits (t : Terminal) : Prop :=
  t.phase ≠ .running → t.input.consumer = .waiting ∧ t.input.acted = []

theorem waiting_of_input {s s' : Input} {action : InputAction}
    (step : s.step unmarshal action = some s') (started : action ≠ .start)
    (waiting : s.consumer = .waiting ∧ s.acted = []) :
    s'.consumer = .waiting ∧ s'.acted = [] := by
  obtain ⟨hwaiting, hacted⟩ := waiting
  cases action with
  | start => exact absurd rfl started
  | take => simp [Input.step, hwaiting] at step
  | stop => simp [Input.step, hwaiting] at step
  | dispatch => simp [Input.step, hwaiting] at step
  | callReturns ok => simp [Input.step, hwaiting] at step
  | _ =>
      -- the steps of the reader and a cancellation leave the consumer alone
      dsimp only [Input.step] at step
      repeat' split at step
      all_goals cases step <;> exact ⟨hwaiting, hacted⟩

theorem Waits.step {action : Action} (waits : Waits t)
    (step : t.step unmarshal action = some next) : Waits next := by
  intro hphase
  cases side_of_step step with
  | input action hstarted hstep hsame =>
      exact waiting_of_input hstep hstarted (waits (hsame ▸ hphase))
  | connect greeting _ hrunning => exact absurd hrunning hphase
  | other cancelled _ hinput hnext =>
      rw [hinput]
      refine waits fun hrunning => ?_
      rcases hnext with hsame | hdialing
      · exact hphase (hsame.trans hrunning)
      · cases hdialing.symm.trans hrunning

end Terminal

end OpsUp.Api
