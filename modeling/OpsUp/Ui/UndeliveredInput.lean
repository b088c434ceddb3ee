import OpsUp.Ui.InputPump

/-!
# Undelivered input

`fail` warns of lost input while frames are queued or the socket still buffers some.  A frame
has left the queue before its `send` is called, so the failure of the last one is reported as
if nothing had been lost.
-/

namespace OpsUp.Ui

open OpsUp.Go OpsUp.Js OpsUp.Interaction

variable {answers : Answers} {decoders : Decoders} {s t : Scope} {frames : List Bytes}

/-! ## Calls of `send` -/

/-- The frames whose `send` returned; the call of the first one has this number. -/
def taken (answers : Answers) : Nat → List Bytes → List Bytes
  | _, [] => []
  | count, frame :: rest =>
      if answers.sends count then frame :: taken answers (count + 1) rest
      else taken answers (count + 1) rest

theorem taken_append (count : Nat) (front back : List Bytes) :
    taken answers count (front ++ back) =
      taken answers count front ++ taken answers (count + front.length) back := by
  induction front generalizing count with
  | nil => rfl
  | cons frame rest ih =>
      have hcount : count + (frame :: rest).length = count + 1 + rest.length := by
        rw [List.length_cons]
        omega
      rw [hcount, List.cons_append, taken, taken, ih]
      split
      · rw [List.cons_append]
      · rfl

theorem taken_of_sends {count : Nat}
    (sends : ∀ i < frames.length, answers.sends (count + i) = true) :
    taken answers count frames = frames := by
  induction frames generalizing count with
  | nil => rfl
  | cons frame rest ih =>
      have hfirst : answers.sends count = true := sends 0 (Nat.succ_pos _)
      rw [taken, if_pos hfirst, ih]
      intro i hi
      rw [Nat.add_assoc, Nat.add_comm 1 i]
      exact sends (i + 1) (Nat.succ_lt_succ hi)

theorem mem_of_mem_taken {count : Nat} {frame : Bytes} (mem : frame ∈ taken answers count frames) :
    frame ∈ frames := by
  induction frames generalizing count with
  | nil => exact mem
  | cons first rest ih =>
      rw [taken] at mem
      split at mem
      · rcases List.mem_cons.mp mem with rfl | hrest
        · exact List.mem_cons_self
        · exact List.mem_cons_of_mem _ (ih hrest)
      · exact List.mem_cons_of_mem _ (ih mem)

/-- A loop that starts at the call `count` makes `n` calls that return, and then one that
throws. -/
structure ThrowsAfter (answers : Answers) (count n : Nat) : Prop where
  roomy : ∀ i ≤ n, answers.bufferedAmount (count + i) < bufferLimit
  returns : ∀ i < n, answers.sends (count + i) = true
  throws : answers.sends (count + n) = false

theorem ThrowsAfter.succ {count n : Nat} (roomy : answers.bufferedAmount count < bufferLimit)
    (returns : answers.sends count = true) (throws : ThrowsAfter answers (count + 1) n) :
    ThrowsAfter answers count (n + 1) := by
  refine ⟨?_, ?_, ?_⟩
  · intro i hi
    cases i with
    | zero => exact roomy
    | succ i =>
        rw [Nat.add_comm i, ← Nat.add_assoc]
        exact throws.roomy i (Nat.le_of_succ_le_succ hi)
  · intro i hi
    cases i with
    | zero => exact returns
    | succ i =>
        rw [Nat.add_comm i, ← Nat.add_assoc]
        exact throws.returns i (Nat.lt_of_succ_lt_succ hi)
  · rw [Nat.add_comm n, ← Nat.add_assoc]
    exact throws.throws

theorem ThrowsAfter.pred {count n : Nat} (throws : ThrowsAfter answers count (n + 1)) :
    ThrowsAfter answers (count + 1) n := by
  have hshift : ∀ i, count + 1 + i = count + (i + 1) := by omega
  refine ⟨?_, ?_, ?_⟩
  · intro i hi
    rw [hshift]
    exact throws.roomy (i + 1) (Nat.succ_le_succ hi)
  · intro i hi
    rw [hshift]
    exact throws.returns (i + 1) (Nat.succ_lt_succ hi)
  · rw [hshift]
    exact throws.throws

theorem ThrowsAfter.taken {n : Nat} (throws : ThrowsAfter answers 0 n)
    (waiting : n < frames.length) :
    taken answers 0 (frames.take (n + 1)) = frames.take n := by
  have hreturned : Ui.taken answers 0 (frames.take n) = frames.take n := by
    refine taken_of_sends fun i hi => throws.returns i ?_
    rw [List.length_take] at hi
    omega
  have hlength : 0 + (frames.take n).length = 0 + n := by
    rw [List.length_take_of_le (Nat.le_of_lt waiting)]
  have hthrows : ¬ answers.sends (0 + n) = true := Bool.eq_false_iff.mp throws.throws
  rw [List.take_succ_eq_append_getElem waiting, taken_append, hreturned, hlength, Ui.taken,
    if_neg hthrows, Ui.taken, List.append_nil]

/-- The loop can throw in one place only. -/
theorem ThrowsAfter.unique {count n m : Nat} (first : ThrowsAfter answers count n)
    (second : ThrowsAfter answers count m) : n = m := by
  have hle : ∀ {n m : Nat}, ThrowsAfter answers count n → ThrowsAfter answers count m → m ≤ n := by
    intro n m hn hm
    refine Nat.not_lt.mp fun hless => ?_
    have hreturns := hm.returns n hless
    rw [hn.throws] at hreturns
    cases hreturns
  exact Nat.le_antisymm (hle second first) (hle first second)

namespace Scope

/-- While no call throws, every frame is taken. -/
theorem taken_handOver {count : Nat} (returned : (handOver answers count frames).2 = false) :
    ∃ n ≤ frames.length, (handOver answers count frames).1 = count + n ∧
      taken answers count (frames.take n) = frames.take n := by
  induction frames generalizing count with
  | nil => exact ⟨0, Nat.le_refl _, rfl, rfl⟩
  | cons frame rest ih =>
      rw [handOver] at returned ⊢
      split at returned
      · next hroom =>
          split at returned
          · next hsends =>
              obtain ⟨n, hn, hcount, htaken⟩ := ih returned
              refine ⟨n + 1, Nat.succ_le_succ hn, ?_, ?_⟩
              · rw [if_pos hroom, if_pos hsends, hcount]
                omega
              · rw [List.take_succ_cons, taken, if_pos hsends, htaken]
          · cases returned
      · next hfull =>
          refine ⟨0, Nat.zero_le _, ?_, rfl⟩
          rw [if_neg hfull]
          rfl

theorem handOver_threw {count : Nat} (threw : (handOver answers count frames).2 = true) :
    ∃ n < frames.length, (handOver answers count frames).1 = count + n + 1 ∧
      ThrowsAfter answers count n := by
  induction frames generalizing count with
  | nil => cases threw
  | cons frame rest ih =>
      rw [handOver] at threw ⊢
      split at threw
      · next hroom =>
          split at threw
          · next hsends =>
              obtain ⟨n, hn, hcount, hthrows⟩ := ih threw
              refine ⟨n + 1, Nat.succ_lt_succ hn, ?_, hthrows.succ hroom hsends⟩
              rw [if_pos hroom, if_pos hsends, hcount]
              omega
          · next hthrows =>
              refine ⟨0, Nat.succ_pos _, ?_, ?_, fun i hi => absurd hi (Nat.not_lt_zero i), ?_⟩
              · rw [if_pos hroom, if_neg hthrows]
              · intro i hi
                rw [Nat.le_zero.mp hi]
                exact hroom
              · exact Bool.eq_false_iff.mpr hthrows
      · cases threw

theorem handOver_of_throws {count n : Nat} (throws : ThrowsAfter answers count n)
    (waiting : n < frames.length) : handOver answers count frames = (count + n + 1, true) := by
  induction frames generalizing count n with
  | nil => cases waiting
  | cons frame rest ih =>
      have hroom : answers.bufferedAmount count < bufferLimit := throws.roomy 0 (Nat.zero_le n)
      rw [handOver, if_pos hroom]
      cases n with
      | zero =>
          have hthrows : ¬ answers.sends count = true := Bool.eq_false_iff.mp throws.throws
          rw [if_neg hthrows]
      | succ n =>
          have hsends : answers.sends count = true := throws.returns 0 (Nat.succ_pos n)
          rw [if_pos hsends, ih throws.pred (Nat.lt_of_succ_lt_succ waiting)]
          have hcount : count + 1 + n + 1 = count + (n + 1) + 1 := by omega
          rw [hcount]

end Scope

/-! ## One callback -/

/-- The frames that a pump run in this callback finds. -/
def pumpFrames (s : Scope) : Callback → List Bytes
  | .timer _ .pump => if s.sendable then s.queued else []
  | .onData data =>
      if s.sendable ∧ s.pumpTimer = none then s.queued ++ inputFrames data else []
  | _ => []

/-- The `send` of the last of so many frames throws, and the socket buffers nothing then. -/
def LastThrows (answers : Answers) (length : Nat) : Prop :=
  ∃ n, length = n + 1 ∧ ThrowsAfter answers 0 n ∧ answers.bufferedAmount length = 0

theorem not_lastThrows_zero : ¬ LastThrows answers 0 := by
  rintro ⟨n, hlength, -⟩
  cases hlength

/-- What a callback has done: it goes on, `fail` was called with these frames in the queue, or
the pump failed in the `send` of one of the frames it had found. -/
inductive CallbackOutcome (answers : Answers) (s t : Scope) : List Bytes → Prop where
  | kept {frames new : List Bytes} (sent : t.sent = s.sent ++ new)
      (returned : taken answers 0 new = new) (failed : t.failed = s.failed)
      (fine : ¬ LastThrows answers frames.length) : CallbackOutcome answers s t frames
  | failed {new : List Bytes} {message : JsString} (healthy : ¬ s.failed) (failed : t.failed)
      (sent : t.sent = s.sent ++ new) (control : ∀ frame ∈ new, frame.head? ≠ some 0x00)
      (accepted : t.accepted.flatMap inputFrames = s.stdinSent ++ s.queued)
      (errorMsg : t.errorMsg = if s.queued ≠ [] ∨ 0 < answers.bufferedAmount new.length
        then message ++ inputLost else message) : CallbackOutcome answers s t []
  | thrown {frames : List Bytes} {n : Nat} (healthy : ¬ s.failed) (failed : t.failed)
      (waiting : n < frames.length) (throws : ThrowsAfter answers 0 n)
      (sent : t.sent = s.sent ++ frames.take (n + 1))
      (stdin : ∀ frame ∈ frames, frame.head? = some 0x00)
      (accepted : t.accepted.flatMap inputFrames = s.stdinSent ++ frames)
      (errorMsg : t.errorMsg =
        if n + 1 < frames.length ∨ 0 < answers.bufferedAmount (n + 1)
          then inputFailed ++ inputLost else inputFailed) : CallbackOutcome answers s t frames

namespace CallbackOutcome

/-- Nothing was sent. -/
theorem quiet (sent : t.sent = s.sent) (failed : t.failed = s.failed) :
    CallbackOutcome answers s t [] := by
  have hsent : t.sent = s.sent ++ [] := by rw [sent, List.append_nil]
  exact .kept hsent rfl failed not_lastThrows_zero

/-- What was changed before is of no concern to the outcome. -/
theorem of_before {u : Scope} (outcome : CallbackOutcome answers u t frames)
    (sent : u.sent = s.sent) (failed : u.failed = s.failed) (queued : frames = [] → u.queued = s.queued) :
    CallbackOutcome answers s t frames := by
  have hstdin : u.stdinSent = s.stdinSent := congrArg (List.filter _) sent
  cases outcome with
  | kept hsent hreturned hfailed hfine =>
      exact .kept (hsent.trans (congrArg (· ++ _) sent)) hreturned (hfailed.trans failed) hfine
  | failed hhealthy hfailed hsent hcontrol haccepted herrorMsg =>
      rw [hstdin, queued rfl] at haccepted
      rw [queued rfl] at herrorMsg
      exact .failed (failed ▸ hhealthy) hfailed (hsent.trans (congrArg (· ++ _) sent)) hcontrol
        haccepted herrorMsg
  | thrown hhealthy hfailed hwaiting hthrows hsent hstdinFrames haccepted herrorMsg =>
      rw [hstdin] at haccepted
      exact .thrown (failed ▸ hhealthy) hfailed hwaiting hthrows
        (hsent.trans (congrArg (· ++ _) sent)) hstdinFrames haccepted herrorMsg

/-- Nor is what `later` changes afterwards. -/
theorem later (outcome : CallbackOutcome answers s t frames) (task : Delayed) :
    CallbackOutcome answers s (t.later task) frames := by
  cases outcome with
  | kept sent returned failed fine => exact .kept sent returned failed fine
  | failed healthy failed sent control accepted errorMsg =>
      exact .failed healthy failed sent control accepted errorMsg
  | thrown healthy failed waiting throws sent stdin accepted errorMsg =>
      exact .thrown healthy failed waiting throws sent stdin accepted errorMsg

end CallbackOutcome

namespace Scope

/-- What a connection shows once it has failed. -/
theorem fail_of_healthy (current : s.current) (healthy : ¬ s.failed) (message : JsString)
    (bufferedAmount : Nat) :
    (s.fail message bufferedAmount).failed ∧ (s.fail message bufferedAmount).sent = s.sent ∧
      (s.fail message bufferedAmount).accepted = s.accepted ∧
      (s.fail message bufferedAmount).errorMsg =
        if s.queued ≠ [] ∨ 0 < bufferedAmount then message ++ inputLost else message := by
  have hguard : ¬ (¬ s.current ∨ s.failed) := not_or.mpr ⟨not_not.mpr current, healthy⟩
  rw [Scope.fail, if_neg hguard]
  refine ⟨rfl, rfl, rfl, ?_⟩
  simp only [Connection.queued_ne_nil_iff, gt_iff_lt]

/-- Until then, what was accepted has been sent or is queued. -/
theorem accepted_of_healthy (ordered : Ordered s) (current : s.current) (healthy : ¬ s.failed) :
    s.accepted.flatMap inputFrames = s.stdinSent ++ s.queued := by
  obtain ⟨lost, horder, hkept⟩ := ordered.order
  rw [horder, hkept current healthy, List.append_nil]

theorem outcome_fail (ordered : Ordered s) (message : JsString) :
    CallbackOutcome answers s (s.fail message (answers.bufferedAmount 0)) [] := by
  by_cases hguard : ¬ s.current ∨ s.failed
  · rw [Scope.fail, if_pos hguard]
    exact .quiet rfl rfl
  · have hcurrent : s.current := Classical.not_not.mp fun hold => hguard (.inl hold)
    have hhealthy : ¬ s.failed := fun hfailed => hguard (.inr hfailed)
    obtain ⟨hfailed, hsent, haccepted, herrorMsg⟩ :=
      fail_of_healthy hcurrent hhealthy message (answers.bufferedAmount 0)
    refine @CallbackOutcome.failed answers s _ [] message hhealthy hfailed ?_ nofun ?_ herrorMsg
    · rw [hsent, List.append_nil]
    · rw [haccepted]
      exact accepted_of_healthy ordered hcurrent hhealthy

theorem queued_advance (n : Nat) : (s.advance n).queued = s.queued.drop n := by
  rw [Connection.queued, Connection.queued, List.drop_drop]
  rfl

theorem outcome_pump (ordered : Ordered s) :
    CallbackOutcome answers s (s.pump answers) (if s.sendable then s.queued else []) := by
  by_cases hsendable : s.sendable
  · have hcurrent : s.current := hsendable.1
    have hhealthy : ¬ s.failed := (ordered.whole hsendable.2.1).2
    rw [if_pos hsendable, pump_of_sendable hsendable rfl]
    cases hthrew : (handOver answers 0 s.queued).2 with
    | true =>
        obtain ⟨n, hn, hcount, hthrows⟩ := handOver_threw hthrew
        rw [if_pos rfl, hcount, Nat.zero_add]
        obtain ⟨hfailed, hsent, haccepted, herrorMsg⟩ :=
          @fail_of_healthy ({ s with pumpTimer := none }.advance (n + 1)) hcurrent hhealthy
            inputFailed (answers.bufferedAmount (n + 1))
        have hwaiting : s.queued.drop (n + 1) ≠ [] ↔ n + 1 < s.queued.length := by
          rw [ne_eq, List.drop_eq_nil_iff, Nat.not_le]
        have hqueued : ({ s with pumpTimer := none }.advance (n + 1)).queued =
            s.queued.drop (n + 1) := queued_advance (n + 1)
        rw [hqueued] at herrorMsg
        simp only [hwaiting] at herrorMsg
        refine .thrown hhealthy hfailed hn hthrows hsent ?_ ?_ herrorMsg
        · exact fun frame hframe => ordered.head_of_mem_queued hframe
        · rw [haccepted]
          exact accepted_of_healthy ordered hcurrent hhealthy
    | false =>
        obtain ⟨n, hn, hcount, htaken⟩ := taken_handOver hthrew
        rw [if_neg Bool.false_ne_true, hcount, Nat.zero_add]
        have hfine : ¬ LastThrows answers s.queued.length := by
          rintro ⟨m, hlength, hthrows, -⟩
          rw [handOver_of_throws hthrows (by omega)] at hthrew
          cases hthrew
        split
        · exact .kept rfl htaken rfl hfine
        · exact .kept rfl htaken rfl hfine
  · rw [if_neg hsendable, pump_of_not_sendable hsendable]
    exact .quiet rfl rfl

theorem outcome_send (ordered : Ordered s) (data : JsString) :
    CallbackOutcome answers s (s.send data answers)
      (if s.sendable ∧ s.pumpTimer = none then s.queued ++ inputFrames data else []) := by
  unfold Scope.send
  by_cases hsendable : s.sendable
  · rw [if_neg (not_not.mpr hsendable)]
    dsimp only
    split
    · next hnone =>
        have hqueued : (s.queue ++ inputFrames data).drop s.queueIndex =
            s.queued ++ inputFrames data :=
          List.drop_append_of_le_length (ordered.bounded hsendable.1)
        have houtcome := @outcome_pump answers _ (ordered.accept hsendable data)
        have hframes :
            (if s.sendable then (s.queue ++ inputFrames data).drop s.queueIndex else []) =
              s.queued ++ inputFrames data := by rw [if_pos hsendable, hqueued]
        rw [if_pos ⟨hsendable, hnone⟩, ← hframes]
        refine houtcome.of_before rfl rfl fun hempty => ?_
        have hnil : s.queued ++ inputFrames data = [] := hframes ▸ hempty
        change (s.queue ++ inputFrames data).drop s.queueIndex = s.queued
        rw [hqueued, hnil, (List.append_eq_nil_iff.mp hnil).1]
    · next hset =>
        rw [if_neg fun h => hset h.2]
        exact .quiet rfl rfl
  · rw [if_pos hsendable, if_neg fun h => hsendable h.1]
    exact .quiet rfl rfl

theorem outcome_sendResize (ordered : Ordered s) :
    CallbackOutcome answers s (s.sendResize answers) [] := by
  unfold Scope.sendResize
  split
  · exact .quiet rfl rfl
  · next hblocked =>
      obtain ⟨hcurrent, hconnected, -⟩ := Classical.not_not.mp hblocked
      dsimp only
      split
      · next hsends =>
          have htaken : taken answers 0 [resizeFrame s.cols s.rows] =
              [resizeFrame s.cols s.rows] := if_pos hsends
          exact .kept rfl htaken rfl not_lastThrows_zero
      · have hhealthy : ¬ s.failed := (ordered.whole hconnected).2
        obtain ⟨hfailed, hsent, haccepted, herrorMsg⟩ :=
          @fail_of_healthy { s with sent := s.sent ++ [resizeFrame s.cols s.rows] } hcurrent
            hhealthy sizeFailed (answers.bufferedAmount 1)
        refine .failed hhealthy hfailed hsent ?_ ?_ herrorMsg
        · intro frame hframe
          rw [List.mem_singleton.mp hframe]
          simp [resizeFrame]
        · rw [haccepted]
          exact accepted_of_healthy ordered hcurrent hhealthy

theorem doFit_silent (fitted : Option (Nat × Nat)) (s : Scope) :
    (s.doFit fitted).sent = s.sent ∧ (s.doFit fitted).failed = s.failed ∧
      (s.doFit fitted).queued = s.queued := by
  rcases fitted with _ | ⟨cols, rows⟩
  · exact ⟨rfl, rfl, rfl⟩
  · dsimp only [doFit]
    unfold onResize
    split
    · exact ⟨rfl, rfl, rfl⟩
    · cases s.resizeTimer with
      | none => exact ⟨rfl, rfl, rfl⟩
      | some timer => exact ⟨rfl, rfl, rfl⟩

theorem outcome_doFit (fitted : Option (Nat × Nat)) (s : Scope) :
    CallbackOutcome answers s (s.doFit fitted) [] := by
  obtain ⟨hsent, hfailed, -⟩ := doFit_silent fitted s
  exact .quiet hsent hfailed

theorem outcome_fitAndResize (pumping : Pumping s) :
    CallbackOutcome answers s (s.fitAndResize answers) [] := by
  obtain ⟨hsent, hfailed, hqueued⟩ := doFit_silent answers.fitted s
  have hfitted : Pumping (s.doFit answers.fitted) := pumping.doFit answers.fitted
  exact (outcome_sendResize hfitted.toOrdered).of_before hsent hfailed fun _ => hqueued

theorem outcome_onmessage (pumping : Pumping s) (data : MessageData) :
    CallbackOutcome answers s (s.onmessage decoders data answers) [] := by
  unfold Scope.onmessage
  split
  · exact .quiet rfl rfl
  · next hguard =>
      have hcurrent : s.current := Classical.not_not.mp fun hold => hguard (.inl hold)
      have hhealthy : ¬ s.failed := fun hfailed => hguard (.inr hfailed)
      rcases data with text | _ | ⟨kind, payload⟩
      · exact .quiet rfl rfl
      · exact .quiet rfl rfl
      · dsimp only
        split
        · exact .quiet rfl rfl
        · split
          · exact outcome_fail pumping.toOrdered _
          · split
            · split
              · exact .quiet rfl rfl
              · split
                · exact outcome_fail pumping.toOrdered _
                · exact .quiet rfl rfl
            · split
              · have hready := @outcome_fitAndResize answers _ (pumping.connect hcurrent hhealthy)
                have hfitted : CallbackOutcome answers s _ [] :=
                  hready.of_before rfl rfl fun _ => rfl
                exact (hfitted.later _).later _
              · exact .quiet rfl rfl

theorem outcome_fire (pumping : Pumping s) {timer : Nat} {task : Delayed}
    (set : s.current → (timer, task) ∈ s.timers) :
    CallbackOutcome answers s (s.fire timer task answers) (pumpFrames s (.timer timer task)) := by
  unfold Scope.fire
  dsimp only
  split
  · next hold =>
      have hblocked : ¬ s.sendable := fun hsendable => hold hsendable.1
      cases task with
      | pump =>
          rw [pumpFrames, if_neg hblocked]
          exact .quiet rfl rfl
      | sendResize => exact .quiet rfl rfl
      | fitAndResize => exact .quiet rfl rfl
  · next hcurrent =>
      have hmem := set (Classical.not_not.mp hcurrent)
      have hdeleted : task ≠ .pump → Pumping (s.deleteTimer timer) := fun hother =>
        pumping.deleteTimer fun hpump => hother (pumping.toTimed.unique hmem hpump)
      cases task with
      | pump =>
          have hordered : Ordered (s.deleteTimer timer) :=
            ⟨pumping.whole, pumping.bounded, pumping.sending, pumping.order⟩
          exact (outcome_pump hordered).of_before rfl rfl fun _ => rfl
      | sendResize =>
          have hresized := @outcome_sendResize answers _ (hdeleted (by decide)).toOrdered
          exact hresized.of_before rfl rfl fun _ => rfl
      | fitAndResize =>
          have hresized := @outcome_fitAndResize answers _ (hdeleted (by decide))
          exact hresized.of_before rfl rfl fun _ => rfl

/-- Every callback has an outcome. -/
theorem outcome_step (pumping : Pumping s) {callback : Callback}
    (step : s.step decoders answers callback = some t) :
    CallbackOutcome answers s t (pumpFrames s callback) := by
  cases called_of_step step with
  | readyState => exact .quiet rfl rfl
  | onmessage => exact outcome_onmessage pumping _
  | onclose => exact outcome_fail pumping.toOrdered _
  | onerror => exact outcome_fail pumping.toOrdered _
  | timer set => exact outcome_fire pumping set
  | animationFrame =>
      split
      · exact outcome_doFit _ s
      · exact .quiet rfl rfl
  | observed =>
      split
      · exact outcome_fitAndResize pumping
      · exact .quiet rfl rfl
  | onData => exact outcome_send pumping.toOrdered _
  | onResize => exact outcome_doFit _ s

end Scope

/-! ## What a failure reports -/

/-- What is known of a connection in the moment it fails. -/
structure Failure where
  /-- the input frames whose `send` returned -/
  delivered : List Bytes
  /-- the input that was queued -/
  accepted : List JsString
  bufferedAmount : Nat
  errorMsg : JsString

/-- Input that is not delivered, or not known to be, is reported. -/
def Failure.Reported (failure : Failure) : Prop :=
  failure.delivered ≠ failure.accepted.flatMap inputFrames ∨ 0 < failure.bufferedAmount →
    inputLost <:+ failure.errorMsg

/-- The frames that a callback has given to `send`. -/
def newlySent (c d : Connection) : List Bytes := d.sent.drop c.sent.length

/-- The input frames among them whose `send` returned. -/
def newlyDelivered (answers : Answers) (c d : Connection) : List Bytes :=
  (taken answers 0 (newlySent c d)).filter fun frame => frame.head? = some 0x00

/-- The failure of a connection with these frames delivered before the callback. -/
def Scope.failure (answers : Answers) (delivered : List Bytes) (s t : Scope) : Failure where
  delivered := delivered ++ newlyDelivered answers s.toConnection t.toConnection
  accepted := t.accepted
  bufferedAmount := answers.bufferedAmount (newlySent s.toConnection t.toConnection).length
  errorMsg := t.errorMsg

namespace CallbackOutcome

theorem newlySent_eq {new : List Bytes} (sent : t.sent = s.sent ++ new) :
    newlySent s.toConnection t.toConnection = new := by
  rw [newlySent, sent, List.drop_left]

/-- While the connection goes on, what is sent is delivered. -/
theorem stdinSent (outcome : CallbackOutcome answers s t frames) (healthy : ¬ t.failed) :
    t.stdinSent = s.stdinSent ++ newlyDelivered answers s.toConnection t.toConnection := by
  cases outcome with
  | kept sent returned failed fine =>
      rw [newlyDelivered, newlySent_eq sent, returned, Connection.stdinSent, sent,
        List.filter_append, Connection.stdinSent]
  | failed _ failed => exact absurd failed healthy
  | thrown _ failed => exact absurd failed healthy

theorem not_lastThrows (outcome : CallbackOutcome answers s t frames)
    (same : s.failed ∨ ¬ t.failed) : ¬ LastThrows answers frames.length := by
  cases outcome with
  | kept sent returned failed fine => exact fine
  | failed healthy failed => exact absurd failed (same.resolve_left healthy)
  | thrown healthy failed => exact absurd failed (same.resolve_left healthy)

/-- A failure is reported as it should be, unless the last frame could not be sent. -/
theorem reported_iff (outcome : CallbackOutcome answers s t frames) (healthy : ¬ s.failed)
    (failed : t.failed) :
    (s.failure answers s.stdinSent t).Reported ↔ ¬ LastThrows answers frames.length := by
  cases outcome with
  | kept sent returned same fine => exact absurd (same.symm.trans failed) healthy
  | @failed new message _ _ sent control accepted errorMsg =>
      have hnone : newlyDelivered answers s.toConnection t.toConnection = [] := by
        rw [newlyDelivered, newlySent_eq sent, List.filter_eq_nil_iff]
        intro frame hframe
        exact mt of_decide_eq_true (control frame (mem_of_mem_taken hframe))
      refine iff_of_true ?_ not_lastThrows_zero
      rintro hlost
      have hwarned : s.queued ≠ [] ∨ 0 < answers.bufferedAmount new.length := by
        rcases hlost with hdelivered | hbuffered
        · refine .inl fun hqueued => hdelivered ?_
          change s.stdinSent ++ newlyDelivered answers s.toConnection t.toConnection =
            t.accepted.flatMap inputFrames
          rw [hnone, accepted, hqueued]
        · right
          change 0 < answers.bufferedAmount
            (newlySent s.toConnection t.toConnection).length at hbuffered
          rwa [newlySent_eq sent] at hbuffered
      change inputLost <:+ t.errorMsg
      rw [errorMsg, if_pos hwarned]
      exact List.suffix_append _ _
  | @thrown _ n _ _ waiting throws sent stdin accepted errorMsg =>
      have hdelivered : newlyDelivered answers s.toConnection t.toConnection = frames.take n := by
        rw [newlyDelivered, newlySent_eq sent, throws.taken waiting, List.filter_eq_self]
        intro frame hframe
        exact decide_eq_true (stdin frame (List.mem_of_mem_take hframe))
      have hlost :
          (s.failure answers s.stdinSent t).delivered ≠ t.accepted.flatMap inputFrames := by
        change s.stdinSent ++ newlyDelivered answers s.toConnection t.toConnection ≠ _
        rw [hdelivered, accepted]
        intro hsame
        have hlength := congrArg List.length (List.append_cancel_left hsame)
        rw [List.length_take] at hlength
        omega
      have hreported : (s.failure answers s.stdinSent t).Reported ↔ inputLost <:+ t.errorMsg :=
        ⟨fun reported => reported (.inl hlost), fun warned _ => warned⟩
      rw [hreported, errorMsg]
      by_cases hwarned : n + 1 < frames.length ∨ 0 < answers.bufferedAmount (n + 1)
      · rw [if_pos hwarned]
        refine iff_of_true (List.suffix_append _ _) ?_
        rintro ⟨m, hlength, hthrows, hbuffered⟩
        obtain rfl := throws.unique hthrows
        rw [hlength] at hbuffered
        omega
      · rw [if_neg hwarned]
        have hlength : frames.length = n + 1 := by omega
        refine iff_of_false (by decide +kernel) (not_not.mpr ⟨n, hlength, throws, ?_⟩)
        rw [hlength]
        omega

end CallbackOutcome

/-! ## Runs -/

/-- What becomes of a connection while none of its callbacks is called. -/
inductive Untouched : Option Connection → Option Connection → Prop where
  | absent : Untouched none none
  | opened {id : Nat} {serverId : Int} : Untouched none (some (.opened id serverId))
  | kept {c d : Connection} (sent : d.sent = c.sent) (failed : d.failed = c.failed) :
      Untouched (some c) (some d)

theorem Untouched.refl (connection : Option Connection) : Untouched connection connection := by
  cases connection with
  | none => exact .absent
  | some c => exact .kept rfl rfl

namespace Hook

variable {h next : Hook} {action : HookAction}

theorem untouched_cleanup (h : Hook) (id : Nat) :
    Untouched (h.connections id) (h.cleanup.connections id) := by
  rcases h.cleanup_cases with ⟨-, hcleanup⟩ | ⟨other, -, hcleanup⟩
  · rw [hcleanup]
    exact .refl _
  · rw [hcleanup]
    dsimp only
    rw [Function.update_apply]
    split
    · next hsame =>
        rw [hsame]
        cases h.connections other with
        | none => exact .absent
        | some c => exact .kept rfl rfl
    · exact .refl _

theorem Consistent.untouched_connect (consistent : Consistent h) (serverId : Int) (ready : Bool)
    (id : Nat) : Untouched (h.connections id) ((h.connect serverId ready).connections id) := by
  have hcleanup := h.untouched_cleanup id
  have hfresh := consistent.cleanup.none_next
  unfold Hook.connect
  generalize h.cleanup = cleaned at hcleanup hfresh
  dsimp only
  split
  · dsimp only
    rw [Function.update_apply]
    split
    · next hid =>
        rw [hid, hfresh] at hcleanup
        rw [hid]
        generalize h.connections (cleaned.generation + 1) = before at hcleanup
        cases hcleanup with
        | absent => exact .opened
    · exact hcleanup
  · exact hcleanup

/-- An action without a callback of the connection does not touch it. -/
theorem Consistent.untouched (consistent : Consistent h) {id : Nat}
    (step : h.step decoders action = some next)
    (other : ∀ callback, h.acts action ≠ some (id, callback)) :
    Untouched (h.connections id) (next.connections id) := by
  rcases step_acts step with ⟨-, ⟨serverId, ready, -, rfl⟩ | rfl | rfl⟩ |
    ⟨acting, c, callback, scope, hacts, -, -, rfl⟩
  · exact consistent.untouched_connect serverId ready id
  · exact h.untouched_cleanup id
  · exact .refl _
  · have hid : id ≠ acting := by
      rintro rfl
      exact other callback hacts
    have hsame : (h.put acting scope).connections id = h.connections id :=
      Function.update_of_ne hid _ _
    rw [hsame]
    exact .refl _

/-- In this action the connection cannot send the last frame that waits, and nothing is
buffered. -/
def LastFrameThrows (id : Nat) (h : Hook) (action : HookAction) : Prop :=
  ∃ c callback, h.connections id = some c ∧ h.acts action = some (id, callback) ∧
    LastThrows action.answers (pumpFrames ⟨h.toShared, c⟩ callback).length

end Hook

/-- The hook, with the input delivered by one connection and its failures. -/
structure Watched where
  hook : Hook
  delivered : List Bytes
  failures : List Failure

namespace Watched

def initial : Watched := ⟨.initial, [], []⟩

def step (decoders : Decoders) (id : Nat) (w : Watched) (action : HookAction) :
    Option Watched :=
  (w.hook.step decoders action).map fun next =>
    match w.hook.connections id, next.connections id with
    | some c, some d =>
        { hook := next
          delivered := w.delivered ++ newlyDelivered action.answers c d
          failures :=
            if ¬ c.failed ∧ d.failed then
              w.failures ++ [Scope.failure action.answers w.delivered ⟨w.hook.toShared, c⟩
                ⟨next.toShared, d⟩]
            else w.failures }
    | _, _ => { w with hook := next }

/-- Until it fails, a connection has delivered what it has sent. -/
structure Sound (id : Nat) (w : Watched) : Prop where
  absent : w.hook.connections id = none → w.delivered = []
  healthy : ∀ c, w.hook.connections id = some c → ¬ c.failed → w.delivered = c.stdinSent

def AllReported (w : Watched) : Prop := ∀ failure ∈ w.failures, failure.Reported

variable {id : Nat} {w next : Watched} {action : HookAction} {actions : List HookAction}

theorem sound_initial (id : Nat) : Sound id initial where
  absent := fun _ => rfl
  healthy := by
    intro c hc
    cases hc

theorem step_hook (step : w.step decoders id action = some next) :
    w.hook.step decoders action = some next.hook := by
  obtain ⟨after, hafter, rfl⟩ := Option.map_eq_some_iff.mp step
  split
  · exact hafter
  · exact hafter

/-- The watch changes nothing that the hook does. -/
theorem hook_run (run : play (Watched.step decoders id) initial actions = some w) :
    play (Hook.step decoders) .initial actions = some w.hook := by
  refine play_invariant (fun before w => play (Hook.step decoders) .initial before = some w.hook)
    rfl ?_ run
  intro before w next action _ held hstep
  exact play_concat_iff.mpr ⟨w.hook, held, step_hook hstep⟩

theorem step_opened {c d : Connection} (step : w.step decoders id action = some next)
    (before : w.hook.connections id = some c) (after : next.hook.connections id = some d) :
    next.delivered = w.delivered ++ newlyDelivered action.answers c d ∧
      next.failures =
        if ¬ c.failed ∧ d.failed then
          w.failures ++ [Scope.failure action.answers w.delivered ⟨w.hook.toShared, c⟩
            ⟨next.hook.toShared, d⟩]
        else w.failures := by
  have hhook := step_hook step
  rw [Watched.step, hhook, Option.map_some, before, after] at step
  rw [← Option.some.inj step]
  exact ⟨rfl, rfl⟩

theorem step_absent (step : w.step decoders id action = some next)
    (before : w.hook.connections id = none) :
    next.delivered = w.delivered ∧ next.failures = w.failures := by
  have hhook := step_hook step
  rw [Watched.step, hhook, Option.map_some, before] at step
  rw [← Option.some.inj step]
  exact ⟨rfl, rfl⟩

/-- Without a callback of the connection, nothing is delivered and nothing fails. -/
theorem Sound.untouched (sound : Sound id w) (step : w.step decoders id action = some next)
    (untouched : Untouched (w.hook.connections id) (next.hook.connections id)) :
    Sound id next ∧ next.failures = w.failures := by
  generalize hbefore : w.hook.connections id = before at untouched
  generalize hafter : next.hook.connections id = after at untouched
  cases untouched with
  | absent =>
      obtain ⟨hdelivered, hfailures⟩ := step_absent step hbefore
      refine ⟨⟨fun _ => hdelivered.trans (sound.absent hbefore), ?_⟩, hfailures⟩
      intro c hc
      rw [hafter] at hc
      cases hc
  | opened =>
      obtain ⟨hdelivered, hfailures⟩ := step_absent step hbefore
      refine ⟨⟨fun habsent => ?_, fun c hc _ => ?_⟩, hfailures⟩
      · rw [hafter] at habsent
        cases habsent
      · rw [hafter] at hc
        rw [hdelivered, sound.absent hbefore, ← Option.some.inj hc]
        rfl
  | @kept c d sent failed =>
      obtain ⟨hdelivered, hfailures⟩ := step_opened step hbefore hafter
      have hnone : newlyDelivered action.answers c d = [] := by
        rw [newlyDelivered, newlySent, sent, List.drop_length]
        rfl
      rw [hnone, List.append_nil] at hdelivered
      rw [failed, if_neg fun h => h.1 h.2] at hfailures
      refine ⟨⟨fun habsent => ?_, fun other hother hhealthy => ?_⟩, hfailures⟩
      · rw [hafter] at habsent
        cases habsent
      · rw [hafter] at hother
        obtain rfl := Option.some.inj hother
        rw [hdelivered, sound.healthy c hbefore (failed ▸ hhealthy), Connection.stdinSent,
          Connection.stdinSent, sent]

theorem allReported_concat {failure : Failure} (logged : next.failures = w.failures ++ [failure]) :
    next.AllReported ↔ w.AllReported ∧ failure.Reported := by
  rw [AllReported, AllReported, logged]
  simp [or_imp, forall_and]

/-- In a callback of the connection, a failure is logged, and it is reported unless it is that of
the last frame. -/
theorem Sound.acted (sound : Sound id w) (pumped : w.hook.Pumped)
    (step : w.step decoders id action = some next) {callback : Callback}
    (acts : w.hook.acts action = some (id, callback)) :
    Sound id next ∧
      (next.AllReported ↔ w.AllReported ∧ ¬ w.hook.LastFrameThrows id action) := by
  rcases Hook.step_acts (step_hook step) with ⟨hnone, -⟩ |
    ⟨other, c, called, scope, hacts, hopened, hscope, hnext⟩
  · rw [acts] at hnone
    cases hnone
  · obtain ⟨rfl, rfl⟩ := Prod.mk.inj (Option.some.inj (acts.symm.trans hacts))
    have hafter : next.hook.connections id = some scope.toConnection := by
      rw [hnext]
      exact Function.update_self _ _ _
    have hshared : next.hook.toShared = scope.toShared := by rw [hnext]; rfl
    have houtcome := Scope.outcome_step (pumped id c hopened) hscope
    obtain ⟨hdelivered, hfailures⟩ := step_opened step hopened hafter
    have hlast : w.hook.LastFrameThrows id action ↔
        LastThrows action.answers (pumpFrames ⟨w.hook.toShared, c⟩ callback).length := by
      constructor
      · rintro ⟨d, called, hd, hcalled, hthrows⟩
        obtain rfl := Option.some.inj (hopened.symm.trans hd)
        obtain ⟨-, rfl⟩ := Prod.mk.inj (Option.some.inj (acts.symm.trans hcalled))
        exact hthrows
      · exact fun hthrows => ⟨c, callback, hopened, acts, hthrows⟩
    refine ⟨⟨fun habsent => ?_, fun d hd hhealthy => ?_⟩, ?_⟩
    · rw [hafter] at habsent
      cases habsent
    · rw [hafter] at hd
      obtain rfl := Option.some.inj hd
      have hbefore : ¬ c.failed := mt (Scope.follows_step hscope).failed hhealthy
      rw [hdelivered, sound.healthy c hopened hbefore]
      exact (houtcome.stdinSent hhealthy).symm
    · rw [hlast]
      by_cases hfails : ¬ c.failed ∧ scope.failed
      · rw [if_pos hfails, sound.healthy c hopened hfails.1, hshared] at hfailures
        rw [allReported_concat hfailures]
        exact and_congr_right fun _ => houtcome.reported_iff hfails.1 hfails.2
      · rw [if_neg hfails] at hfailures
        have hsame : c.failed ∨ ¬ scope.failed := by
          by_cases hfailed : scope.failed
          · exact .inl (not_not.mp fun hhealthy => hfails ⟨hhealthy, hfailed⟩)
          · exact .inr hfailed
        rw [AllReported, hfailures]
        exact (and_iff_left (houtcome.not_lastThrows hsame)).symm

/-- One action: the failures stay reported unless the last frame could not be sent. -/
theorem Sound.step (sound : Sound id w) (consistent : w.hook.Consistent) (pumped : w.hook.Pumped)
    (step : w.step decoders id action = some next) :
    Sound id next ∧
      (next.AllReported ↔ w.AllReported ∧ ¬ w.hook.LastFrameThrows id action) := by
  by_cases hacts : ∃ callback, w.hook.acts action = some (id, callback)
  · obtain ⟨callback, hcallback⟩ := hacts
    exact sound.acted pumped step hcallback
  · have huntouched := consistent.untouched (step_hook step) fun callback hcallback =>
      hacts ⟨callback, hcallback⟩
    obtain ⟨hsound, hfailures⟩ := sound.untouched step huntouched
    refine ⟨hsound, ?_⟩
    rw [AllReported, hfailures]
    refine (and_iff_left ?_).symm
    rintro ⟨c, callback, -, hcallback, -⟩
    exact hacts ⟨callback, hcallback⟩

end Watched

/-- In a run every failure of a connection reports undelivered input if and only if it never
happens that the last frame that waits cannot be sent while nothing is buffered. -/
theorem undeliveredInput_reported_iff {id : Nat} {actions : List HookAction} {w : Watched}
    (run : play (Watched.step decoders id) Watched.initial actions = some w) :
    w.AllReported ↔ Always (fun h action => ¬ h.LastFrameThrows id action) (Hook.step decoders)
      Hook.initial actions := by
  have hheld := play_invariant (fun before w => Watched.Sound id w ∧
      (w.AllReported ↔ Always (fun h action => ¬ h.LastFrameThrows id action)
        (Hook.step decoders) Hook.initial before))
    ⟨Watched.sound_initial id, iff_of_true (List.forall_mem_nil _) trivial⟩ ?_ run
  · exact hheld.2
  · rintro before w next action hrun ⟨hsound, hreported⟩ hstep
    have hhook := Watched.hook_run hrun
    obtain ⟨hnext, hstill⟩ :=
      hsound.step (Hook.consistent_initial.run hhook) (Hook.Pumped.run hhook) hstep
    refine ⟨hnext, ?_⟩
    rw [hstill, hreported, always_concat_iff]
    refine and_congr_right fun _ => ⟨fun hfine middle hmiddle => ?_, fun hfine => hfine _ hhook⟩
    obtain rfl := Option.some.inj (hhook.symm.trans hmiddle)
    exact hfine

/-- A letter is typed and cannot be sent. -/
def typedInVain : List HookAction :=
  let answers : Answers := ⟨fun _ => 0, fun _ => true, none⟩
  [.connect 1 true, .callback 1 (.readyState .opened) answers,
    .callback 1 (.onmessage (.binary [0x04])) answers,
    .callback 1 (.onData [0x41]) ⟨fun _ => 0, fun _ => false, none⟩]

theorem typedInVain_play :
    ∃ w, play (Watched.step ⟨fun _ => [], fun _ => none⟩ 1) Watched.initial typedInVain = some w ∧
      w.failures = [⟨[], [[0x41]], 0, inputFailed⟩] := by
  have hview : (play (Watched.step ⟨fun _ => [], fun _ => none⟩ 1) Watched.initial
      typedInVain).map Watched.failures = some [⟨[], [[0x41]], 0, inputFailed⟩] := rfl
  exact Option.map_eq_some_iff.mp hview

/-- The letter is lost without a warning. -/
theorem undeliveredInput_typedInVain :
    ∃ w failure, play (Watched.step ⟨fun _ => [], fun _ => none⟩ 1) Watched.initial typedInVain =
        some w ∧
      failure ∈ w.failures ∧ failure.delivered ≠ failure.accepted.flatMap inputFrames ∧
      ¬ inputLost <:+ failure.errorMsg := by
  obtain ⟨w, hrun, hfailures⟩ := typedInVain_play
  refine ⟨w, ⟨[], [[0x41]], 0, inputFailed⟩, hrun, ?_, by decide +kernel, by decide +kernel⟩
  rw [hfailures]
  exact List.mem_singleton_self _

theorem undeliveredInput_reported_typedInVain :
    ¬ Always (fun h action => ¬ h.LastFrameThrows 1 action)
      (Hook.step ⟨fun _ => [], fun _ => none⟩) Hook.initial typedInVain := by
  obtain ⟨w, hrun, hfailures⟩ := typedInVain_play
  rw [← undeliveredInput_reported_iff hrun, Watched.AllReported, hfailures]
  intro reported
  have hwarned := reported _ (List.mem_singleton_self _) (.inl (by decide +kernel))
  revert hwarned
  decide +kernel

end OpsUp.Ui
