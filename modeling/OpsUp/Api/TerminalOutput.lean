import OpsUp.Api.TerminalInput

/-!
# The terminal output drained

Each pump takes what its stream has produced and hands it on before it reads again, so
what has been sent, with what the pump still holds, is what it has taken.  A session
that only ends because both pumps have returned has sent everything; a session that
the browser side cancels may not have.
-/

namespace OpsUp.Api

open OpsUp.Go OpsUp.Interaction

/-- The payloads of the frames of one type, in order. -/
def sentOn (kind : UInt8) (frames : List Bytes) : Bytes :=
  (frames.filterMap fun frame =>
    match frame with
    | [] => none
    | other :: payload => if other = kind then some payload else none).flatten

theorem sentOn_append (kind : UInt8) (front back : List Bytes) :
    sentOn kind (front ++ back) = sentOn kind front ++ sentOn kind back := by
  rw [sentOn, List.filterMap_append, List.flatten_append]
  rfl

theorem sentOn_typedMsg (kind : UInt8) (payload : Bytes) :
    sentOn kind [typedMsg kind payload] = payload := by
  simp [sentOn, typedMsg]

theorem sentOn_typedMsg_of_ne {kind other : UInt8} (different : other ≠ kind) (payload : Bytes) :
    sentOn kind [typedMsg other payload] = [] := by
  simp [sentOn, typedMsg, different]

theorem OutputKind.msgType_ne {kind other : OutputKind} (different : other ≠ kind) :
    other.msgType ≠ kind.msgType := by
  cases kind <;> cases other <;> first | exact absurd rfl different | decide

/-! ## One stream -/

/-- What the pump has taken and not yet sent. -/
def Pump.pending : Pump → Bytes
  | .reading => []
  | .sending data _ => data
  | .returned => []

/-- The end that the pump will see after its write. -/
def Pump.last : Pump → ReadEnd
  | .reading => .more
  | .sending _ last => last
  | .returned => .eof

/-- What is sent and what the pump holds is what it has taken; it only stops at the end. -/
structure Pumped (sent : Bytes) (stream : Stream) : Prop where
  taken : sent ++ stream.pump.pending = stream.produced.take stream.read
  bound : stream.read ≤ stream.produced.length
  sound : stream.pump.last ≠ .failed
  complete : stream.pump.last = .eof → stream.ended = true ∧ stream.read = stream.produced.length

theorem pumped_initial : Pumped [] .initial where
  taken := rfl
  bound := Nat.le_refl _
  sound := nofun
  complete := nofun

section Pumped

variable {sent : Bytes} {stream : Stream}

/-- A pump that has returned at the end has sent everything. -/
theorem Pumped.drained (pumped : Pumped sent stream) (returned : stream.pump = .returned) :
    stream.ended = true ∧ sent = stream.produced := by
  have hlast : stream.pump.last = .eof := by rw [returned]; rfl
  obtain ⟨hended, hread⟩ := pumped.complete hlast
  have htaken := pumped.taken
  rw [returned, hread, List.take_length, Pump.pending, List.append_nil] at htaken
  exact ⟨hended, htaken⟩

theorem Pumped.produce (pumped : Pumped sent stream) (running : stream.ended = false)
    (data : Bytes) : Pumped sent { stream with produced := stream.produced ++ data } where
  taken := by
    rw [List.take_append_of_le_length pumped.bound]
    exact pumped.taken
  bound := by
    rw [List.length_append]
    exact Nat.le_add_right_of_le pumped.bound
  sound := pumped.sound
  complete := by
    intro hlast
    have hended := (pumped.complete hlast).1
    rw [running] at hended
    cases hended

theorem Pumped.finish (pumped : Pumped sent stream) : Pumped sent { stream with ended := true } where
  taken := pumped.taken
  bound := pumped.bound
  sound := pumped.sound
  complete := fun hlast => ⟨rfl, (pumped.complete hlast).2⟩

/-- A read takes the next bytes. -/
theorem Pumped.read (pumped : Pumped sent stream) {n : Nat} {next : Pump}
    (reading : stream.pump = .reading) (available : n ≤ stream.unread.length)
    (pending : next.pending = stream.unread.take n) (sound : next.last ≠ .failed)
    (complete : next.last = .eof → stream.ended = true ∧ n = stream.unread.length) :
    Pumped sent { stream with read := stream.read + n, pump := next } where
  taken := by
    have htaken := pumped.taken
    rw [reading, Pump.pending, List.append_nil] at htaken
    rw [pending, htaken, Stream.unread, List.take_add]
  bound := by
    have hbound := pumped.bound
    rw [Stream.unread, List.length_drop] at available
    dsimp only
    omega
  sound := sound
  complete := by
    intro hlast
    obtain ⟨hended, hall⟩ := complete hlast
    have hbound := pumped.bound
    rw [Stream.unread, List.length_drop] at hall
    refine ⟨hended, ?_⟩
    dsimp only
    omega

/-- A write hands on what the pump holds. -/
theorem Pumped.send (pumped : Pumped sent stream) {data : Bytes} {last : ReadEnd}
    (sending : stream.pump = .sending data last) :
    Pumped (sent ++ data) { stream with pump := (afterRead last).1 } where
  taken := by
    have htaken := pumped.taken
    rw [sending] at htaken
    rw [← htaken]
    cases last <;> exact List.append_nil _
  bound := pumped.bound
  sound := by
    have hsound := pumped.sound
    rw [sending] at hsound
    cases last with
    | more => nofun
    | eof => nofun
    | failed => exact absurd rfl hsound
  complete := by
    intro hlast
    refine pumped.complete ?_
    have hsound := pumped.sound
    rw [sending] at hsound ⊢
    cases last with
    | more => cases hlast
    | eof => rfl
    | failed => exact absurd rfl hsound

end Pumped

/-! ## Sessions that nothing disturbs -/

namespace Terminal

/-- The browser stays, every write to it succeeds, the streams fail in no other way than
by ending, and nobody else cancels the session. -/
def Attentive : Action → Prop
  | .input .disconnect => False
  | .connectFails _ => False
  | .read _ _ last => last ≠ .failed
  | .send _ ok => ok = true
  | .pingFails => False
  | .parentCancelled => False
  | _ => True

/-- Moreover the browser sends only messages that are accepted, no faster than the queue
is emptied, and the shell takes what it is sent. -/
def Undisturbed (unmarshal : Bytes → Option Size) : Action → Prop
  | .input .overflow => False
  | .input (.receive _ msg) => ¬ Input.Refused unmarshal msg
  | .input (.callReturns ok) => ok = true
  | action => Attentive action

/-- Every action that happens before the session is cancelled is permitted. -/
def UntilCancelled (unmarshal : Bytes → Option Size) (permitted : Action → Prop)
    (actions : List Action) : Prop :=
  ∀ front action back t, actions = front ++ action :: back →
    play (step unmarshal) initial front = some t → t.input.cancelled = false → permitted action

variable {unmarshal : Bytes → Option Size} {t next : Terminal}

theorem UntilCancelled.front {permitted : Action → Prop} {front back : List Action}
    (until_ : UntilCancelled unmarshal permitted (front ++ back)) :
    UntilCancelled unmarshal permitted front := by
  intro before action after t place
  refine until_ before action (after ++ back) t ?_
  rw [place, List.append_assoc, List.cons_append]

/-- The streams are pumped in order, and only their end has cancelled the session. -/
structure Drains (unmarshal : Bytes → Option Size) (t : Terminal) : Prop where
  pumped : ∀ kind, Pumped (sentOn kind.msgType t.frames) (t.streams kind)
  cancelled : t.input.cancelled = true → ∀ kind, (t.streams kind).pump = .returned
  accepted : t.input.cancelled = false → ∀ msg ∈ t.input.received,
    ¬ Input.Refused unmarshal msg

theorem drains_initial (unmarshal : Bytes → Option Size) : Drains unmarshal initial where
  pumped := fun _ => pumped_initial
  cancelled := nofun
  accepted := nofun

/-- A step of the browser side leaves the session as it was, unless it is refused. -/
theorem accepted_of_step {s s' : Input} {action : InputAction} (ordered : Input.Ordered unmarshal s)
    (live : s.cancelled = false) (accepted : ∀ msg ∈ s.received, ¬ Input.Refused unmarshal msg)
    (undisturbed : Undisturbed unmarshal (.input action)) (internal : action ≠ .cancel)
    (step : s.step unmarshal action = some s') :
    s'.cancelled = false ∧ ∀ msg ∈ s'.received, ¬ Input.Refused unmarshal msg := by
  cases action with
  | receive kind msg =>
      dsimp only [Input.step] at step
      split at step
      · cases step
      · split at step
        · obtain rfl := Option.some.inj step
          exact ⟨live, accepted⟩
        · obtain rfl := Option.some.inj step
          refine ⟨live, fun other hother => ?_⟩
          rcases List.mem_append.mp hother with hold | hnew
          · exact accepted other hold
          · rw [List.mem_singleton.mp hnew]
            exact undisturbed
  | disconnect => exact undisturbed.elim
  | enqueue =>
      dsimp only [Input.step] at step
      split at step
      · split at step
        · obtain rfl := Option.some.inj step
          exact ⟨live, accepted⟩
        · cases step
      · cases step
  | notice =>
      dsimp only [Input.step] at step
      rw [live] at step
      split at step <;> cases step
  | overflow => exact undisturbed.elim
  | start =>
      dsimp only [Input.step] at step
      split at step
      · obtain rfl := Option.some.inj step
        exact ⟨live, accepted⟩
      · cases step
  | take =>
      dsimp only [Input.step] at step
      split at step
      · obtain rfl := Option.some.inj step
        exact ⟨live, accepted⟩
      · cases step
  | stop =>
      dsimp only [Input.step] at step
      rw [live] at step
      split at step
      · next hready => cases hready.2
      · cases step
  | dispatch =>
      dsimp only [Input.step] at step
      split at step
      · next msg hdispatching =>
          obtain rfl := Option.some.inj step
          obtain ⟨dropped, horder, -⟩ := ordered.order
          have hmem : msg ∈ s.received := by
            rw [horder, Input.taken, hdispatching]
            simp
          have hcontent := ordered.content msg hmem
          have haccepted := mt (dispatch_eq_refuse_iff hcontent).mp (accepted msg hmem)
          have hpanics : dispatch unmarshal msg ≠ .panics := dispatch_ne_panics hcontent
          cases hdispatch : Api.dispatch unmarshal msg with
          | write data => exact ⟨live, accepted⟩
          | windowChange rows cols => exact ⟨live, accepted⟩
          | refuse => exact absurd hdispatch haccepted
          | panics => exact absurd hdispatch hpanics
      · cases step
  | callReturns ok =>
      obtain rfl : ok = true := undisturbed
      dsimp only [Input.step] at step
      split at step
      · cases step
      · obtain rfl := Option.some.inj step
        exact ⟨live, accepted⟩
  | cancel => exact absurd rfl internal

/-- A change of the browser side never takes a cancellation back. -/
theorem cancelled_of_change {s s' : Input} (change : s.Change unmarshal s')
    (cancelled : s.cancelled = true) : s'.cancelled = true := by
  cases change with
  | same => exact cancelled
  | cancel => rfl
  | receive => exact cancelled
  | enqueue => exact cancelled
  | leave => rfl
  | take => exact cancelled
  | act msg dispatching =>
      cases Api.dispatch unmarshal msg with
      | refuse => rfl
      | write data => exact cancelled
      | windowChange rows cols => exact cancelled
      | panics => exact cancelled
  | move consumer flag before live after kept => exact kept cancelled

@[simp]
theorem streams_setStream_self (t : Terminal) (kind : OutputKind) (stream : Stream) :
    (t.setStream kind stream).streams kind = stream := Function.update_self _ _ _

theorem streams_setStream_of_ne (t : Terminal) {kind other : OutputKind} (different : other ≠ kind)
    (stream : Stream) : (t.setStream kind stream).streams other = t.streams other :=
  Function.update_of_ne different _ _

theorem setStream_setStream (t : Terminal) (kind : OutputKind) (first second : Stream) :
    (t.setStream kind first).setStream kind second = t.setStream kind second := by
  unfold setStream
  rw [Function.update_idem]

theorem pumped_setStream {frames : List Bytes} {kind : OutputKind} {stream : Stream}
    (pumped : ∀ other, Pumped (sentOn other.msgType frames) (t.streams other))
    (changed : Pumped (sentOn kind.msgType frames) stream) :
    ∀ other, Pumped (sentOn other.msgType frames) ((t.setStream kind stream).streams other) := by
  intro other
  by_cases hother : other = kind
  · subst hother
    rw [streams_setStream_self]
    exact changed
  · rw [streams_setStream_of_ne t hother]
    exact pumped other

/-- Once cancelled, the session has nothing left to send. -/
theorem Drains.of_cancelled {action : Action} (drains : Drains unmarshal t)
    (cancelled : t.input.cancelled = true) (step : t.step unmarshal action = some next) :
    Drains unmarshal next := by
  have hreturned := drains.cancelled cancelled
  have hnext := cancelled_of_change (change_of_step step) cancelled
  have hended := fun kind => ((drains.pumped kind).drained (hreturned kind)).1
  cases action with
  | input action =>
      obtain ⟨input, -, rfl⟩ := step_input step
      exact ⟨drains.pumped, fun _ => hreturned, fun hlive => by rw [hnext] at hlive; cases hlive⟩
  | connect greeting =>
      dsimp only [Terminal.step] at step
      split at step
      · obtain ⟨input, hstep, rfl⟩ := Option.map_eq_some_iff.mp step
        refine ⟨fun kind => ?_, fun _ => hreturned, fun hlive => by rw [hnext] at hlive; cases hlive⟩
        rw [sentOn_append, sentOn_typedMsg_of_ne (by cases kind <;> decide), List.append_nil]
        exact drains.pumped kind
      · cases step
  | connectFails report =>
      dsimp only [Terminal.step] at step
      split at step
      · obtain rfl := Option.some.inj step
        refine ⟨fun kind => ?_, fun _ => hreturned, nofun⟩
        have hnone : sentOn kind.msgType (report.toList.map (typedMsg msgTypeError)) = [] := by
          cases report with
          | none => rfl
          | some text => exact sentOn_typedMsg_of_ne (by cases kind <;> decide) text
        rw [sentOn_append, hnone, List.append_nil]
        exact drains.pumped kind
      · cases step
  | produce kind data =>
      dsimp only [Terminal.step] at step
      split at step
      · cases step
      · next hready => exact absurd (Or.inr (hended kind)) hready
  | finish kind =>
      dsimp only [Terminal.step] at step
      split at step
      · obtain rfl := Option.some.inj step
        refine ⟨pumped_setStream drains.pumped (drains.pumped kind).finish, fun _ other => ?_,
          fun hlive => by rw [hnext] at hlive; cases hlive⟩
        by_cases hother : other = kind
        · subst hother
          rw [streams_setStream_self]
          exact hreturned other
        · rw [streams_setStream_of_ne t hother]
          exact hreturned other
      · cases step
  | read kind n last =>
      dsimp only [Terminal.step, stepRead] at step
      split at step
      · cases step
      · next hready =>
          refine absurd (Or.inr (Or.inl ?_)) hready
          rw [hreturned kind]
          nofun
  | send kind ok =>
      dsimp only [Terminal.step, stepSend] at step
      rw [hreturned kind] at step
      cases step
  | drained =>
      dsimp only [Terminal.step] at step
      split at step
      · obtain rfl := Option.some.inj step
        exact ⟨drains.pumped, fun _ => hreturned, nofun⟩
      · cases step
  | pingFails =>
      obtain rfl := Option.some.inj step
      exact ⟨drains.pumped, fun _ => hreturned, nofun⟩
  | parentCancelled =>
      obtain rfl := Option.some.inj step
      exact ⟨drains.pumped, fun _ => hreturned, nofun⟩
  | close =>
      dsimp only [Terminal.step] at step
      rw [if_pos cancelled] at step
      obtain rfl := Option.some.inj step
      exact ⟨drains.pumped, drains.cancelled, drains.accepted⟩

/-- A pump that goes on without an error cancels nothing. -/
theorem Drains.setPump {moved : Terminal} {kind : OutputKind} {pump : Pump}
    (same : moved.input = t.input) (live : t.input.cancelled = false)
    (accepted : ∀ msg ∈ t.input.received, ¬ Input.Refused unmarshal msg)
    (pumped : ∀ other, Pumped (sentOn other.msgType moved.frames)
      ((moved.setStream kind { moved.streams kind with pump := pump }).streams other)) :
    Drains unmarshal (moved.setPump kind (pump, false)) where
  pumped := pumped
  cancelled := by
    intro hcancelled
    rw [input_setPump, same, live] at hcancelled
    cases hcancelled
  accepted := by
    intro _
    rw [input_setPump, same]
    exact accepted

theorem Drains.read {kind : OutputKind} {n : Nat} {last : ReadEnd} (drains : Drains unmarshal t)
    (live : t.input.cancelled = false) (sound : last ≠ .failed)
    (step : t.stepRead kind n last = some next) : Drains unmarshal next := by
  unfold stepRead at step
  dsimp only at step
  split at step
  · cases step
  · next hready =>
      rw [not_or, not_or, not_or, not_not, not_not] at hready
      obtain ⟨-, hreading, -, havailable⟩ := hready
      have havail := Nat.not_lt.mp havailable
      split at step
      · cases step
      · next hend =>
          rw [not_and, not_or, Bool.not_eq_false] at hend
          have hlast : last = .eof → (t.streams kind).ended = true ∧
              n = (t.streams kind).unread.length := fun heof =>
            ⟨(hend heof).1, Nat.le_antisymm havail (Nat.not_lt.mp (hend heof).2)⟩
          have htaken : ∀ next : Pump, next.pending = (t.streams kind).unread.take n →
              next.last = last → Drains unmarshal ((t.setStream kind { t.streams kind with
                read := (t.streams kind).read + n }).setPump kind (next, false)) := by
            intro next hpending hnext
            refine Drains.setPump rfl live (drains.accepted live) ?_
            rw [setStream_setStream, streams_setStream_self]
            refine pumped_setStream drains.pumped ?_
            refine (drains.pumped kind).read hreading havail hpending ?_ ?_
            · rw [hnext]
              exact sound
            · rw [hnext]
              exact hlast
          split at step
          · next hzero =>
              obtain rfl := Option.some.inj step
              have hpump : afterRead last = ((afterRead last).1, false) := by
                cases last <;> first | rfl | exact absurd rfl sound
              rw [hpump]
              refine htaken _ ?_ ?_
              · rw [hzero]
                cases last <;> rfl
              · cases last <;> first | rfl | exact absurd rfl sound
          · obtain rfl := Option.some.inj step
            exact htaken _ rfl rfl

theorem Drains.send {kind : OutputKind} (drains : Drains unmarshal t)
    (live : t.input.cancelled = false) (step : t.stepSend kind true = some next) :
    Drains unmarshal next := by
  unfold stepSend at step
  split at step
  · next data last hsending =>
      rw [if_pos rfl] at step
      obtain rfl := Option.some.inj step
      have hpumped := drains.pumped kind
      have hpump : afterRead last = ((afterRead last).1, false) := by
        have hsound := hpumped.sound
        rw [hsending] at hsound
        cases last <;> first | rfl | exact absurd rfl hsound
      rw [hpump]
      refine Drains.setPump rfl live (drains.accepted live) fun other => ?_
      by_cases hother : other = kind
      · subst hother
        rw [streams_setStream_self, sentOn_append, sentOn_typedMsg]
        exact hpumped.send hsending
      · rw [streams_setStream_of_ne _ hother, sentOn_append,
          sentOn_typedMsg_of_ne (OutputKind.msgType_ne fun h => hother h.symm), List.append_nil]
        exact drains.pumped other
  · cases step

/-- An undisturbed action keeps the streams pumped, and cancels only what has drained. -/
theorem Drains.of_live {action : Action} (drains : Drains unmarshal t)
    (ordered : Input.Ordered unmarshal t.input) (live : t.input.cancelled = false)
    (undisturbed : Undisturbed unmarshal action) (step : t.step unmarshal action = some next) :
    Drains unmarshal next := by
  have haccepted := drains.accepted live
  have hcalm : t.input.cancelled = true → ∀ kind, (t.streams kind).pump = .returned := by
    intro hcancelled
    rw [live] at hcancelled
    cases hcancelled
  cases action with
  | input action =>
      have hinput : (t.input.step unmarshal action).map (fun input => { t with input := input }) =
          some next ∧ action ≠ .cancel := by
        cases action <;> first | exact ⟨step, nofun⟩ | cases step
      obtain ⟨hmap, hinternal⟩ := hinput
      obtain ⟨input, hstep, rfl⟩ := Option.map_eq_some_iff.mp hmap
      obtain ⟨hlive, hnext⟩ := accepted_of_step ordered live haccepted undisturbed hinternal hstep
      refine ⟨drains.pumped, fun hcancelled => ?_, fun _ => hnext⟩
      rw [hlive] at hcancelled
      cases hcancelled
  | connect greeting =>
      dsimp only [Terminal.step] at step
      split at step
      · obtain ⟨input, hstep, rfl⟩ := Option.map_eq_some_iff.mp step
        have hstart : Undisturbed unmarshal (.input .start) := trivial
        obtain ⟨hlive, hnext⟩ := accepted_of_step ordered live haccepted hstart nofun hstep
        refine ⟨fun kind => ?_, fun hcancelled => ?_, fun _ => hnext⟩
        · rw [sentOn_append, sentOn_typedMsg_of_ne (by cases kind <;> decide), List.append_nil]
          exact drains.pumped kind
        · rw [hlive] at hcancelled
          cases hcancelled
      · cases step
  | connectFails report => exact undisturbed.elim
  | produce kind data =>
      dsimp only [Terminal.step] at step
      split at step
      · cases step
      · next hready =>
          obtain rfl := Option.some.inj step
          have hrunning : (t.streams kind).ended = false :=
            Bool.eq_false_iff.mpr fun hended => hready (Or.inr hended)
          refine ⟨pumped_setStream drains.pumped ((drains.pumped kind).produce hrunning data),
            fun hcancelled => ?_, fun _ => haccepted⟩
          exact absurd (live.symm.trans hcancelled) nofun
  | finish kind =>
      dsimp only [Terminal.step] at step
      split at step
      · obtain rfl := Option.some.inj step
        refine ⟨pumped_setStream drains.pumped (drains.pumped kind).finish,
          fun hcancelled => ?_, fun _ => haccepted⟩
        exact absurd (live.symm.trans hcancelled) nofun
      · cases step
  | read kind n last => exact drains.read live undisturbed step
  | send kind ok =>
      obtain rfl : ok = true := undisturbed
      exact drains.send live step
  | drained =>
      dsimp only [Terminal.step] at step
      split at step
      · next hboth =>
          obtain rfl := Option.some.inj step
          refine ⟨drains.pumped, fun _ kind => ?_, nofun⟩
          cases kind with
          | stdout => exact hboth.1
          | stderr => exact hboth.2
      · cases step
  | pingFails => exact undisturbed.elim
  | parentCancelled => exact undisturbed.elim
  | close =>
      dsimp only [Terminal.step] at step
      rw [live] at step
      cases step

theorem drains_of_run {actions : List Action}
    (undisturbed : UntilCancelled unmarshal (Undisturbed unmarshal) actions)
    (run : play (step unmarshal) initial actions = some t) : Drains unmarshal t := by
  refine play_invariant (fun actions t => UntilCancelled unmarshal (Undisturbed unmarshal) actions →
    Drains unmarshal t) (fun _ => drains_initial unmarshal) ?_ run undisturbed
  intro before state next action hbefore held hstep hall
  have hstate := held hall.front
  cases hcancelled : state.input.cancelled with
  | true => exact hstate.of_cancelled hcancelled hstep
  | false =>
      have hpermitted := hall before action [] state rfl hbefore hcancelled
      exact hstate.of_live (ordered_of_run hbefore) hcancelled hpermitted hstep

theorem closed_setPump (t : Terminal) (kind : OutputKind) (pump : Pump × Bool) :
    (t.setPump kind pump).closed = t.closed := by
  unfold setPump
  dsimp only
  split <;> rfl

/-- The transports and the socket are closed by the session alone, after its cancellation. -/
theorem closed_of_step {action : Action} (step : t.step unmarshal action = some next) :
    next.closed = t.closed ∨ t.input.cancelled = true := by
  cases action with
  | input action =>
      obtain ⟨input, -, rfl⟩ := step_input step
      exact Or.inl rfl
  | connect greeting =>
      dsimp only [Terminal.step] at step
      split at step
      · obtain ⟨input, -, rfl⟩ := Option.map_eq_some_iff.mp step
        exact Or.inl rfl
      · cases step
  | connectFails report =>
      dsimp only [Terminal.step] at step
      split at step
      · obtain rfl := Option.some.inj step
        exact Or.inl rfl
      · cases step
  | produce kind data =>
      dsimp only [Terminal.step] at step
      split at step
      · cases step
      · obtain rfl := Option.some.inj step
        exact Or.inl rfl
  | finish kind =>
      dsimp only [Terminal.step] at step
      split at step
      · obtain rfl := Option.some.inj step
        exact Or.inl rfl
      · cases step
  | read kind n last =>
      dsimp only [Terminal.step, stepRead] at step
      split at step
      · cases step
      · split at step
        · cases step
        · split at step
          · obtain rfl := Option.some.inj step
            exact Or.inl (closed_setPump _ _ _)
          · obtain rfl := Option.some.inj step
            exact Or.inl (closed_setPump _ _ _)
  | send kind ok =>
      dsimp only [Terminal.step, stepSend] at step
      split at step
      · split at step
        · obtain rfl := Option.some.inj step
          exact Or.inl (closed_setPump _ _ _)
        · obtain rfl := Option.some.inj step
          exact Or.inl (closed_setPump _ _ _)
      · cases step
  | drained =>
      dsimp only [Terminal.step] at step
      split at step
      · obtain rfl := Option.some.inj step
        exact Or.inl rfl
      · cases step
  | pingFails =>
      obtain rfl := Option.some.inj step
      exact Or.inl rfl
  | parentCancelled =>
      obtain rfl := Option.some.inj step
      exact Or.inl rfl
  | close =>
      dsimp only [Terminal.step] at step
      split at step
      · next hcancelled => exact Or.inr hcancelled
      · cases step

theorem cancelled_of_closed {actions : List Action}
    (run : play (step unmarshal) initial actions = some t) (closed : t.closed = true) :
    t.input.cancelled = true := by
  have hinvariant : t.closed = true → t.input.cancelled = true := by
    refine play_preserves (fun t => t.closed = true → t.input.cancelled = true)
      (fun hclosed => absurd hclosed Bool.false_ne_true) ?_ run
    intro state next action held hstep hclosed
    refine cancelled_of_change (change_of_step hstep) ?_
    rcases closed_of_step hstep with hsame | hcancelled
    · exact held (hsame ▸ hclosed)
    · exact hcancelled
  exact hinvariant closed

/--
The output is drained before an undisturbed session ends: what has been sent is at
every moment a prefix of what each stream has produced, and when the session is
cancelled both streams have ended and all of it has been sent; the socket is closed only
then.
-/
theorem terminalOutput_drained {actions : List Action}
    (undisturbed : UntilCancelled unmarshal (Undisturbed unmarshal) actions)
    (run : play (step unmarshal) initial actions = some t) (kind : OutputKind) :
    sentOn kind.msgType t.frames <+: (t.streams kind).produced ∧
    (t.input.cancelled = true → (t.streams kind).ended = true ∧
      sentOn kind.msgType t.frames = (t.streams kind).produced) ∧
    (t.closed = true → t.input.cancelled = true) := by
  have hdrains := drains_of_run undisturbed run
  have hpumped := hdrains.pumped kind
  refine ⟨?_, ?_, cancelled_of_closed run⟩
  · have hprefix := List.take_prefix (t.streams kind).read (t.streams kind).produced
    rw [← hpumped.taken] at hprefix
    exact (List.prefix_append _ _).trans hprefix
  · intro hcancelled
    exact hpumped.drained (hdrains.cancelled hcancelled kind)

/-- A shell that writes one byte and ends, with a keystroke that it still takes. -/
def drainedActions : List Action :=
  [.connect [], .produce .stdout [7], .input (.receive .binary [0, 65]), .input .enqueue,
    .input .take, .input .dispatch, .input (.callReturns true), .finish .stdout, .finish .stderr,
    .read .stderr 0 .eof, .read .stdout 1 .eof, .send .stdout true, .drained]

theorem undisturbed_drainedActions :
    UntilCancelled (fun _ => none) (Undisturbed fun _ => none) drainedActions := by
  intro front action back t place _ _
  have hmem : action ∈ drainedActions := by
    rw [place]
    exact List.mem_append_right _ List.mem_cons_self
  have haccepted : ¬ Input.Refused (fun _ => none) [0, 65] := by
    rw [Input.Refused, ← dispatch_eq_refuse_iff (by decide)]
    decide
  simp only [drainedActions, List.mem_cons, List.not_mem_nil, or_false] at hmem
  rcases hmem with rfl | rfl | rfl | rfl | rfl | rfl | rfl | rfl | rfl | rfl | rfl | rfl | rfl <;>
    first | trivial | exact haccepted | nofun

theorem terminalOutput_drained_keystroke :
    ∃ t, play (step fun _ => none) initial drainedActions = some t ∧
      sentOn OutputKind.stdout.msgType t.frames = (t.streams .stdout).produced := by
  have hplayed : (play (step fun _ => none) initial drainedActions).map
      (fun t => t.input.cancelled) = some true := rfl
  obtain ⟨t, run, hcancelled⟩ := Option.map_eq_some_iff.mp hplayed
  have hdrained := terminalOutput_drained undisturbed_drainedActions run .stdout
  exact ⟨t, run, (hdrained.2.1 hcancelled).2⟩

/-- A shell that has ended both streams no longer takes a keystroke; the failing write
cancels the session while a byte is still to be read. -/
def lostActions : List Action :=
  [.connect [], .produce .stdout [7], .finish .stdout, .finish .stderr,
    .input (.receive .binary [0, 65]), .input .enqueue, .input .take, .input .dispatch,
    .input (.callReturns false)]

/-- Attentiveness of the browser and the streams alone is not enough. -/
theorem terminalOutput_lost :
    ¬ ∀ (unmarshal : Bytes → Option Size) (actions : List Action) (t : Terminal),
      UntilCancelled unmarshal Attentive actions →
      play (step unmarshal) initial actions = some t →
      (∀ kind, (t.streams kind).ended = true) → t.input.cancelled = true →
        ∀ kind, sentOn (OutputKind.msgType kind) t.frames = (t.streams kind).produced := by
  intro claim
  have hplayed : (play (step fun _ => none) initial lostActions).map (fun t =>
      (t.input.cancelled, (t.streams .stdout).ended, (t.streams .stderr).ended,
        sentOn msgTypeStdout t.frames, (t.streams .stdout).produced)) =
      some (true, true, true, [], [7]) := rfl
  obtain ⟨t, run, hview⟩ := Option.map_eq_some_iff.mp hplayed
  simp only [Prod.mk.injEq] at hview
  obtain ⟨hcancelled, hstdout, hstderr, hsent, hproduced⟩ := hview
  have hattentive : UntilCancelled (fun _ => none) Attentive lostActions := by
    intro front action back t place _ _
    have hmem : action ∈ lostActions := by
      rw [place]
      exact List.mem_append_right _ List.mem_cons_self
    simp only [lostActions, List.mem_cons, List.not_mem_nil, or_false] at hmem
    rcases hmem with rfl | rfl | rfl | rfl | rfl | rfl | rfl | rfl | rfl <;> trivial
  have hended : ∀ kind, (t.streams kind).ended = true := by
    intro kind
    cases kind with
    | stdout => exact hstdout
    | stderr => exact hstderr
  have hlost := claim (fun _ => none) lostActions t hattentive run hended hcancelled .stdout
  rw [hproduced] at hlost
  exact absurd (hsent.symm.trans hlost) (by decide)

end Terminal

end OpsUp.Api
