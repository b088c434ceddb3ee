import OpsUp.Ui.ConnectionGuards
import Mathlib.Data.List.Nodup

/-!
# The input pump

Input waits in a queue until the socket has room.  What was given to the socket, what is
queued and what a failure dropped are together the frames of the accepted input, in
order; and while frames wait on an open socket, a timer will look at them again.
-/

namespace OpsUp.Ui

open OpsUp.Go OpsUp.Js OpsUp.Interaction

variable {answers : Answers} {decoders : Decoders} {s next : Scope}

/-! ## Frames -/

theorem head_of_mem_inputFrames {data : JsString} {frame : Bytes} (mem : frame ∈ inputFrames data) :
    frame.head? = some 0x00 := by
  obtain ⟨payloads, hframes, -, -⟩ := inputFrames_payloads data
  rw [hframes] at mem
  obtain ⟨payload, -, rfl⟩ := List.mem_map.mp mem
  rfl

/-- The frames of several texts carry their bytes, one text after the other. -/
theorem flatMap_inputFrames_payloads (inputs : List JsString) :
    ∃ payloads : List Bytes, inputs.flatMap inputFrames = payloads.map stdinFrame ∧
      payloads.flatten = inputs.flatMap textEncode ∧
      ∀ payload ∈ payloads, 0 < payload.length ∧ payload.length ≤ inputChunkBytes := by
  induction inputs with
  | nil => exact ⟨[], rfl, rfl, nofun⟩
  | cons data rest ih =>
      obtain ⟨first, hfirst, hbytes, hlengths⟩ := inputFrames_payloads data
      obtain ⟨others, hothers, hrest, hbounds⟩ := ih
      refine ⟨first ++ others, ?_, ?_, ?_⟩
      · rw [List.flatMap_cons, hfirst, hothers, List.map_append]
      · rw [List.flatMap_cons, List.flatten_append, hbytes, hrest]
      · intro payload hpayload
        rcases List.mem_append.mp hpayload with hmem | hmem
        · exact hlengths payload hmem
        · exact hbounds payload hmem

/-! ## The queue -/

/-- What every closure keeps of the queue, whatever the timers do. -/
structure Ordered (s : Scope) : Prop where
  whole : s.connected → s.current ∧ ¬ s.failed
  bounded : s.current → s.queueIndex ≤ s.queue.length
  sending : s.queued ≠ [] → s.connected ∧ s.readyState ≠ .connecting
  order : ∃ lost, s.accepted.flatMap inputFrames = s.stdinSent ++ (s.queued ++ lost) ∧
    (s.current → ¬ s.failed → lost = [])

theorem Ordered.head_of_mem_queued (ordered : Ordered s) {frame : Bytes}
    (mem : frame ∈ s.queued) : frame.head? = some 0x00 := by
  obtain ⟨lost, horder, -⟩ := ordered.order
  have haccepted : frame ∈ s.accepted.flatMap inputFrames := by
    rw [horder]
    exact List.mem_append_right _ (List.mem_append_left _ mem)
  obtain ⟨data, -, hframe⟩ := List.mem_flatMap.mp haccepted
  exact head_of_mem_inputFrames hframe

theorem Ordered.fail (ordered : Ordered s) (message : JsString) (bufferedAmount : Nat) :
    Ordered (s.fail message bufferedAmount) := by
  unfold Scope.fail
  split
  · exact ordered
  · obtain ⟨lost, horder, -⟩ := ordered.order
    refine ⟨nofun, fun _ => Nat.le_refl 0, fun hqueued => absurd rfl hqueued,
      s.queued ++ lost, horder, ?_⟩
    exact fun _ hfailed => absurd rfl hfailed

/-- Frames leave the queue in order. -/
theorem Ordered.advance (ordered : Ordered s) {count : Nat}
    (bounded : s.current → s.queueIndex + count ≤ s.queue.length) :
    Ordered (s.advance count) := by
  obtain ⟨lost, horder, hkept⟩ := ordered.order
  have hqueued : s.queue.drop (s.queueIndex + count) = s.queued.drop count := by
    rw [Connection.queued, List.drop_drop]
  have hstdin : (s.queued.take count).filter (fun frame => frame.head? = some 0x00) =
      s.queued.take count := by
    rw [List.filter_eq_self]
    intro frame hframe
    exact decide_eq_true (ordered.head_of_mem_queued (List.mem_of_mem_take hframe))
  refine ⟨ordered.whole, bounded, ?_, lost, ?_, hkept⟩
  · intro hrest
    refine ordered.sending fun hempty => hrest ?_
    change s.queue.drop (s.queueIndex + count) = []
    rw [hqueued, hempty, List.drop_nil]
  · change s.accepted.flatMap inputFrames = (s.sent ++ s.queued.take count).filter _ ++
      (s.queue.drop (s.queueIndex + count) ++ lost)
    rw [List.filter_append, hstdin, hqueued, horder, Connection.stdinSent]
    simp only [List.append_assoc]
    rw [← List.append_assoc (s.queued.take count), List.take_append_drop]

/-! ## The timers -/

/-- Handles are used once, the resize handle never names another timer, and an earlier
connection has no timer set. -/
structure Timed (s : Scope) : Prop where
  fresh : ∀ entry ∈ s.timers, entry.1 < s.nextTimer
  distinct : (s.timers.map Prod.fst).Nodup
  resizing : ∀ timer, s.resizeTimer = some timer → timer < s.nextTimer ∧
    ∀ task, (timer, task) ∈ s.timers → task = .sendResize
  detached : ¬ s.current → s.timers = []

theorem Timed.later (timed : Timed s) (current : s.current) (task : Delayed) :
    Timed (s.later task) := by
  refine ⟨?_, ?_, ?_, fun hold => absurd current hold⟩
  · intro entry hentry
    rcases List.mem_append.mp hentry with hmem | hmem
    · exact Nat.lt_succ_of_lt (timed.fresh entry hmem)
    · rw [List.mem_singleton.mp hmem]
      exact Nat.lt_succ_self _
  · dsimp only [Scope.later]
    rw [List.map_append, List.nodup_append]
    refine ⟨timed.distinct, List.nodup_cons.mpr ⟨nofun, List.nodup_nil⟩, ?_⟩
    intro handle hhandle other hother
    obtain ⟨entry, hentry, rfl⟩ := List.mem_map.mp hhandle
    rw [List.mem_singleton.mp hother]
    exact Nat.ne_of_lt (timed.fresh entry hentry)
  · intro timer htimer
    obtain ⟨hless, htask⟩ := timed.resizing timer htimer
    refine ⟨Nat.lt_succ_of_lt hless, fun other hother => ?_⟩
    rcases List.mem_append.mp hother with hmem | hmem
    · exact htask other hmem
    · have hsame := congrArg Prod.fst (List.mem_singleton.mp hmem)
      exact absurd hsame (Nat.ne_of_lt hless)

theorem mem_deleteTimer_iff {timer : Nat} {entry : Nat × Delayed} :
    entry ∈ (s.deleteTimer timer).timers ↔ entry ∈ s.timers ∧ entry.1 ≠ timer := by
  rw [Scope.deleteTimer, List.mem_filter, decide_eq_true_iff]

theorem Timed.deleteTimer (timed : Timed s) (timer : Nat) : Timed (s.deleteTimer timer) := by
  refine ⟨?_, ?_, ?_, ?_⟩
  · intro entry hentry
    exact timed.fresh entry (mem_deleteTimer_iff.mp hentry).1
  · exact timed.distinct.sublist (List.Sublist.map _ List.filter_sublist)
  · intro other hother
    obtain ⟨hless, htask⟩ := timed.resizing other hother
    exact ⟨hless, fun task hmem => htask task (mem_deleteTimer_iff.mp hmem).1⟩
  · intro hold
    have hnone : s.timers = [] := timed.detached hold
    rw [Scope.deleteTimer, hnone]
    rfl

/-- A handle belongs to one callback. -/
theorem Timed.unique (timed : Timed s) {timer : Nat} {task other : Delayed}
    (mem : (timer, task) ∈ s.timers) (again : (timer, other) ∈ s.timers) : task = other := by
  have hsame := List.inj_on_of_nodup_map timed.distinct mem again rfl
  exact congrArg Prod.snd hsame

theorem Timed.fail (timed : Timed s) (message : JsString) (bufferedAmount : Nat) :
    Timed (s.fail message bufferedAmount) := by
  unfold Scope.fail
  split
  · exact timed
  · exact ⟨timed.fresh, timed.distinct, timed.resizing, timed.detached⟩

/-! ## The pump -/

/-- Between two callbacks: a set pump timer is the one `pumpTimer` names, and frames that
wait on an open socket have one. -/
structure Pumping (s : Scope) : Prop extends Ordered s, Timed s where
  linked : s.current → ∀ timer, (timer, .pump) ∈ s.timers ↔ s.pumpTimer = some timer
  live : s.queued ≠ [] → s.readyState = .opened → ∃ timer, s.pumpTimer = some timer

/-- A failure empties the queue, so that no timer is needed. -/
theorem Pumping.of_fail (ordered : Ordered s) (timed : Timed s)
    (linked : s.current → ∀ timer, (timer, .pump) ∈ s.timers ↔ s.pumpTimer = some timer)
    (live : s.failed → s.queued ≠ [] → s.readyState = .opened → ∃ timer, s.pumpTimer = some timer)
    (message : JsString) (bufferedAmount : Nat) : Pumping (s.fail message bufferedAmount) := by
  refine ⟨ordered.fail message bufferedAmount, timed.fail message bufferedAmount, ?_, ?_⟩
  · unfold Scope.fail
    split
    · exact linked
    · exact linked
  · unfold Scope.fail
    split
    · next hkept =>
        intro hqueued hopened
        have hconnected := (ordered.sending hqueued).1
        rcases hkept with hold | hfailed
        · exact absurd (ordered.whole hconnected).1 hold
        · exact live hfailed hqueued hopened
    · exact fun hqueued => absurd rfl hqueued

theorem Pumping.fail (pumping : Pumping s) (message : JsString) (bufferedAmount : Nat) :
    Pumping (s.fail message bufferedAmount) :=
  .of_fail pumping.toOrdered pumping.toTimed pumping.linked (fun _ => pumping.live) message
    bufferedAmount

/-- `pump` is called when no pump timer is set, and leaves one if frames still wait. -/
theorem Pumping.pump (ordered : Ordered s) (timed : Timed s)
    (unset : ∀ timer, (timer, .pump) ∉ s.timers) : Pumping (s.pump answers) := by
  have hunset : ∀ timer, (timer, Delayed.pump) ∈ s.timers ↔ (none : Option Nat) = some timer :=
    fun timer => ⟨fun hmem => absurd hmem (unset timer), nofun⟩
  have hordered : Ordered { s with pumpTimer := none } :=
    ⟨ordered.whole, ordered.bounded, ordered.sending, ordered.order⟩
  have htimed : Timed { s with pumpTimer := none } :=
    ⟨timed.fresh, timed.distinct, timed.resizing, timed.detached⟩
  rcases Scope.pump_cases answers s with ⟨hblocked, hpump⟩ |
    ⟨hsendable, count, t, hcount, ht, hpump⟩
  · rw [hpump]
    refine ⟨hordered, htimed, fun _ => hunset, ?_⟩
    intro hqueued hopened
    have hconnected := (ordered.sending hqueued).1
    exact absurd ⟨(ordered.whole hconnected).1, hconnected, hopened⟩ hblocked
  · have hcurrent : s.current := hsendable.1
    have hadvanced : Ordered t := by
      rw [ht]
      refine hordered.advance fun _ => ?_
      have hlength : s.queued.length = s.queue.length - s.queueIndex := List.length_drop
      have hbounded := ordered.bounded hcurrent
      change s.queueIndex + count ≤ s.queue.length
      omega
    have htimers : Timed t := by
      rw [ht]
      exact ⟨timed.fresh, timed.distinct, timed.resizing, timed.detached⟩
    have hlinked : ∀ timer, (timer, Delayed.pump) ∈ t.timers ↔ t.pumpTimer = some timer := by
      rw [ht]
      exact hunset
    have htcurrent : t.current := by
      rw [ht]
      exact hcurrent
    rcases hpump with ⟨bufferedAmount, hpump⟩ | ⟨-, hpump⟩ | ⟨hempty, hpump⟩
    · rw [hpump]
      refine .of_fail hadvanced htimers (fun _ => hlinked) ?_ inputFailed bufferedAmount
      intro hfailed hqueued
      have hconnected := (hadvanced.sending hqueued).1
      exact absurd hfailed (hadvanced.whole hconnected).2
    · rw [hpump]
      have hlater := htimers.later htcurrent .pump
      refine ⟨⟨hadvanced.whole, hadvanced.bounded, hadvanced.sending, hadvanced.order⟩,
        ⟨hlater.fresh, hlater.distinct, hlater.resizing, hlater.detached⟩, ?_, ?_⟩
      · intro _ timer
        have hnone : (timer, Delayed.pump) ∉ t.timers := by
          rw [ht]
          exact unset timer
        change (timer, Delayed.pump) ∈ t.timers ++ [(t.nextTimer, .pump)] ↔ _
        simp [hnone, eq_comm]
      · exact fun _ _ => ⟨t.nextTimer, rfl⟩
    · rw [hpump]
      obtain ⟨lost, horder, hkept⟩ := hadvanced.order
      rw [hempty] at horder
      exact ⟨⟨hadvanced.whole, fun _ => Nat.le_refl 0, fun hqueued => absurd rfl hqueued,
          lost, horder, hkept⟩,
        ⟨htimers.fresh, htimers.distinct, htimers.resizing, htimers.detached⟩,
        fun _ => hlinked, fun hqueued => absurd rfl hqueued⟩

/-! ## The other closures -/

theorem Ordered.accept (ordered : Ordered s) (sendable : s.sendable) (data : JsString) :
    Ordered { s with
      queue := s.queue ++ inputFrames data, accepted := s.accepted ++ [data] } := by
  obtain ⟨hcurrent, hconnected, hopened⟩ := sendable
  obtain ⟨lost, horder, hkept⟩ := ordered.order
  obtain rfl := hkept hcurrent (ordered.whole hconnected).2
  have hqueued : (s.queue ++ inputFrames data).drop s.queueIndex = s.queued ++ inputFrames data :=
    List.drop_append_of_le_length (ordered.bounded hcurrent)
  refine ⟨ordered.whole, ?_, ?_, [], ?_, fun _ _ => rfl⟩
  · intro _
    have hbounded := ordered.bounded hcurrent
    dsimp only
    rw [List.length_append]
    omega
  · intro _
    refine ⟨hconnected, ?_⟩
    dsimp only
    rw [hopened]
    nofun
  · change (s.accepted ++ [data]).flatMap inputFrames =
      s.stdinSent ++ ((s.queue ++ inputFrames data).drop s.queueIndex ++ [])
    rw [hqueued, List.flatMap_append, horder]
    simp

theorem Pumping.send (pumping : Pumping s) (data : JsString) : Pumping (s.send data answers) := by
  unfold Scope.send
  split
  · exact pumping
  · next hblocked =>
      have hsendable := Classical.not_not.mp hblocked
      have hordered := pumping.toOrdered.accept hsendable data
      have htimed : Timed { s with
          queue := s.queue ++ inputFrames data, accepted := s.accepted ++ [data] } :=
        ⟨pumping.fresh, pumping.distinct, pumping.resizing, pumping.detached⟩
      have hlinked := pumping.linked hsendable.1
      dsimp only
      split
      · next hnone =>
          refine .pump hordered htimed fun timer hmem => ?_
          have hsome := (hlinked timer).mp hmem
          rw [hnone] at hsome
          cases hsome
      · next hset =>
          refine ⟨hordered, htimed, fun _ => hlinked, fun _ _ => ?_⟩
          exact Option.ne_none_iff_exists'.mp hset

theorem Pumping.sendResize (pumping : Pumping s) : Pumping (s.sendResize answers) := by
  have hsent : Pumping { s with sent := s.sent ++ [resizeFrame s.cols s.rows] } := by
    obtain ⟨lost, horder, hkept⟩ := pumping.order
    refine ⟨⟨pumping.whole, pumping.bounded, pumping.sending, lost, ?_, hkept⟩,
      ⟨pumping.fresh, pumping.distinct, pumping.resizing, pumping.detached⟩, pumping.linked,
      pumping.live⟩
    -- a resize frame is no stdin frame
    have hstdin : (s.sent ++ [resizeFrame s.cols s.rows]).filter
        (fun frame => frame.head? = some 0x00) = s.stdinSent := by
      rw [List.filter_append]
      simp [resizeFrame, Connection.stdinSent]
    change _ = (s.sent ++ [resizeFrame s.cols s.rows]).filter _ ++ _
    rw [hstdin]
    exact horder
  unfold Scope.sendResize
  split
  · exact pumping
  · dsimp only
    split
    · exact hsent
    · exact hsent.fail _ _

/-- A timer other than the pump's. -/
theorem Pumping.later (pumping : Pumping s) (current : s.current) {task : Delayed}
    (other : task ≠ .pump) : Pumping (s.later task) := by
  refine ⟨⟨pumping.whole, pumping.bounded, pumping.sending, pumping.order⟩,
    pumping.toTimed.later current task, ?_, pumping.live⟩
  intro _ timer
  have hlinked := pumping.linked current timer
  change (timer, Delayed.pump) ∈ s.timers ++ [(s.nextTimer, task)] ↔ s.pumpTimer = some timer
  rw [List.mem_append, hlinked, List.mem_singleton, Prod.mk.injEq]
  simp [other.symm]

/-- The deletion of a timer that is not the pump's. -/
theorem Pumping.deleteTimer (pumping : Pumping s) {timer : Nat}
    (other : (timer, Delayed.pump) ∉ s.timers) : Pumping (s.deleteTimer timer) := by
  refine ⟨⟨pumping.whole, pumping.bounded, pumping.sending, pumping.order⟩,
    pumping.toTimed.deleteTimer timer, ?_, pumping.live⟩
  intro hcurrent handle
  have hlinked := pumping.linked hcurrent handle
  rw [mem_deleteTimer_iff, hlinked]
  refine and_iff_left_of_imp fun hset => ?_
  rintro rfl
  exact other (hlinked.mpr hset)

theorem Pumping.resize (pumping : Pumping s) (cols rows : Nat) :
    Pumping { s with cols := cols, rows := rows } :=
  ⟨⟨pumping.whole, pumping.bounded, pumping.sending, pumping.order⟩,
    ⟨pumping.fresh, pumping.distinct, pumping.resizing, pumping.detached⟩, pumping.linked,
    pumping.live⟩

/-- The handle that `onResize` keeps. -/
theorem Pumping.setResizeTimer (pumping : Pumping s) {timer : Nat} (fresh : timer < s.nextTimer)
    (resizing : ∀ task, (timer, task) ∈ s.timers → task = .sendResize) :
    Pumping { s with resizeTimer := some timer } := by
  refine ⟨⟨pumping.whole, pumping.bounded, pumping.sending, pumping.order⟩,
    ⟨pumping.fresh, pumping.distinct, ?_, pumping.detached⟩, pumping.linked, pumping.live⟩
  intro handle hhandle
  obtain rfl := Option.some.inj hhandle
  exact ⟨fresh, resizing⟩

theorem Pumping.onResize (pumping : Pumping s) : Pumping s.onResize := by
  unfold Scope.onResize
  split
  · exact pumping
  · next hold =>
      have hcurrent : s.current := Classical.not_not.mp hold
      have hset : ∀ t : Scope, Pumping t → t.current →
          Pumping { t.later .sendResize with resizeTimer := some t.nextTimer } := by
        intro t ht htcurrent
        have hlater : Pumping (t.later .sendResize) :=
          ht.later htcurrent (by decide)
        refine hlater.setResizeTimer (Nat.lt_succ_self _) ?_
        intro task htask
        rcases List.mem_append.mp htask with hmem | hmem
        · exact absurd (ht.fresh _ hmem) (Nat.lt_irrefl _)
        · exact congrArg Prod.snd (List.mem_singleton.mp hmem)
      cases htimer : s.resizeTimer with
      | none => exact hset s pumping hcurrent
      | some timer =>
          refine hset (s.deleteTimer timer) (pumping.deleteTimer fun hmem => ?_) hcurrent
          cases (pumping.resizing timer htimer).2 _ hmem

theorem Pumping.doFit (pumping : Pumping s) (fitted : Option (Nat × Nat)) :
    Pumping (s.doFit fitted) := by
  rcases fitted with _ | ⟨cols, rows⟩
  · exact pumping
  · exact (pumping.resize cols rows).onResize

theorem Pumping.fitAndResize (pumping : Pumping s) : Pumping (s.fitAndResize answers) :=
  (pumping.doFit answers.fitted).sendResize

theorem Pumping.connect (pumping : Pumping s) (current : s.current) (healthy : ¬ s.failed) :
    Pumping { s with connected := true, status := .connected } := by
  refine ⟨⟨fun _ => ⟨current, healthy⟩, pumping.bounded, ?_, pumping.order⟩,
    ⟨pumping.fresh, pumping.distinct, pumping.resizing, pumping.detached⟩, pumping.linked,
    pumping.live⟩
  exact fun hqueued => ⟨rfl, (pumping.sending hqueued).2⟩

theorem Pumping.onmessage (pumping : Pumping s) (data : MessageData) :
    Pumping (s.onmessage decoders data answers) := by
  unfold Scope.onmessage
  split
  · exact pumping
  · next hguard =>
      have hcurrent : s.current := Classical.not_not.mp fun hold => hguard (.inl hold)
      have hhealthy : ¬ s.failed := fun hfailed => hguard (.inr hfailed)
      rcases data with text | _ | ⟨kind, payload⟩
      · exact pumping
      · exact pumping
      · dsimp only
        split
        · exact ⟨⟨pumping.whole, pumping.bounded, pumping.sending, pumping.order⟩,
            ⟨pumping.fresh, pumping.distinct, pumping.resizing, pumping.detached⟩,
            pumping.linked, pumping.live⟩
        · split
          · exact pumping.fail _ _
          · split
            · split
              · exact pumping
              · split
                · exact pumping.fail _ _
                · exact pumping
            · split
              · have hfitted : Pumping (Scope.fitAndResize answers _) :=
                  (pumping.connect hcurrent hhealthy).fitAndResize
                have hfollows := Scope.follows_fitAndResize answers
                  { s with connected := true, status := .connected }
                have hstill := hfollows.current.mpr hcurrent
                have honce : Pumping (Scope.later .fitAndResize _) :=
                  hfitted.later hstill (by decide)
                exact honce.later hstill (by decide)
              · exact pumping

theorem Pumping.fire (pumping : Pumping s) {timer : Nat} {task : Delayed}
    (set : s.current → (timer, task) ∈ s.timers) : Pumping (s.fire timer task answers) := by
  unfold Scope.fire
  dsimp only
  split
  · next hold =>
      have hnone : s.timers = [] := pumping.detached hold
      exact pumping.deleteTimer (by simp [hnone])
  · next hcurrent =>
      have hmem := set (Classical.not_not.mp hcurrent)
      have hother : task ≠ .pump → Pumping (s.deleteTimer timer) := fun hne =>
        pumping.deleteTimer fun hpump => hne (pumping.toTimed.unique hmem hpump)
      cases task with
      | pump =>
          have hlinked := pumping.linked (Classical.not_not.mp hcurrent)
          refine .pump ⟨pumping.whole, pumping.bounded, pumping.sending, pumping.order⟩
            (pumping.toTimed.deleteTimer timer) fun handle hhandle => ?_
          obtain ⟨hset, hne⟩ := mem_deleteTimer_iff.mp hhandle
          have hsame := ((hlinked handle).mp hset).symm.trans ((hlinked timer).mp hmem)
          exact hne (Option.some.inj hsame)
      | sendResize => exact (hother (by decide)).sendResize
      | fitAndResize => exact (hother (by decide)).fitAndResize

theorem Pumping.setReadyState (pumping : Pumping s) {state : ReadyState}
    (forward : s.readyState.rank < state.rank) : Pumping { s with readyState := state } := by
  refine ⟨⟨pumping.whole, pumping.bounded, ?_, pumping.order⟩,
    ⟨pumping.fresh, pumping.distinct, pumping.resizing, pumping.detached⟩, pumping.linked, ?_⟩
  · intro hqueued
    refine ⟨(pumping.sending hqueued).1, ?_⟩
    rintro rfl
    exact Nat.not_lt_zero _ forward
  · -- frames are queued on a socket that is open already
    intro hqueued hopened
    obtain rfl : state = .opened := hopened
    have hstate := (pumping.sending hqueued).2
    cases hbefore : s.readyState with
    | connecting => exact absurd hbefore hstate
    | opened => simp [hbefore] at forward
    | closing => simp [hbefore, ReadyState.rank] at forward
    | closed => simp [hbefore, ReadyState.rank] at forward

theorem Pumping.step (pumping : Pumping s) {callback : Callback}
    (step : s.step decoders answers callback = some next) : Pumping next := by
  cases Scope.called_of_step step with
  | readyState forward => exact pumping.setReadyState forward
  | onmessage => exact pumping.onmessage _
  | onclose => exact pumping.fail _ _
  | onerror => exact pumping.fail _ _
  | timer set => exact pumping.fire set
  | animationFrame =>
      split
      · exact pumping.doFit _
      · exact pumping
  | observed =>
      split
      · exact pumping.fitAndResize
      · exact pumping
  | onData => exact pumping.send _
  | onResize => exact pumping.doFit _

/-! ## All connections -/

theorem Pumping.of_current {shared other : Shared} {c : Connection}
    (pumping : Pumping ⟨shared, c⟩)
    (same : other.generation = c.id ↔ shared.generation = c.id) : Pumping ⟨other, c⟩ :=
  ⟨⟨fun hconnected => (pumping.whole hconnected).imp_left same.mpr,
      fun hcurrent => pumping.bounded (same.mp hcurrent), pumping.sending,
      pumping.order.imp fun _ horder =>
        ⟨horder.1, fun hcurrent => horder.2 (same.mp hcurrent)⟩⟩,
    ⟨pumping.fresh, pumping.distinct, pumping.resizing,
      fun hold => pumping.detached (mt same.mpr hold)⟩,
    fun hcurrent => pumping.linked (same.mp hcurrent), pumping.live⟩

theorem pumping_opened {shared : Shared} {id : Nat} (serverId : Int) :
    Pumping ⟨shared, .opened id serverId⟩ :=
  ⟨⟨nofun, fun _ => Nat.le_refl 0, fun hqueued => absurd rfl hqueued, [], rfl, fun _ _ => rfl⟩,
    ⟨nofun, List.nodup_nil, nofun, fun _ => rfl⟩, fun _ _ => ⟨nofun, nofun⟩,
    fun hqueued => absurd rfl hqueued⟩

/-- Once cleaned up and superseded, a connection has nothing left to send. -/
theorem Pumping.cleanup {shared other : Shared} {c : Connection} (pumping : Pumping ⟨shared, c⟩)
    (superseded : other.generation ≠ c.id) : Pumping ⟨other, c.cleanup⟩ := by
  obtain ⟨lost, horder, -⟩ := pumping.order
  have hempty : c.cleanup.queued = [] := List.drop_nil
  refine ⟨⟨nofun, fun hcurrent => absurd hcurrent superseded,
      fun hqueued => absurd hempty hqueued, c.queued ++ lost, ?_,
      fun hcurrent => absurd hcurrent superseded⟩,
    ⟨nofun, List.nodup_nil, ?_, fun _ => rfl⟩, fun hcurrent => absurd hcurrent superseded,
    fun hqueued => absurd hempty hqueued⟩
  · change c.accepted.flatMap inputFrames = c.stdinSent ++ (c.cleanup.queued ++ _)
    rw [hempty]
    exact horder
  · intro timer htimer
    exact ⟨(pumping.resizing timer htimer).1, nofun⟩

namespace Hook

variable {decoders : Decoders} {s next : Hook}

/-- Every connection pumps. -/
def Pumped (s : Hook) : Prop := ∀ id c, s.connections id = some c → Pumping ⟨s.toShared, c⟩

theorem Pumped.put (pumped : Pumped s) {id : Nat} {c : Connection} {scope : Scope}
    {callback : Callback} {answers : Answers} (opened : s.connections id = some c)
    (step : Scope.step decoders answers ⟨s.toShared, c⟩ callback = some scope) :
    Pumped (s.put id scope) := by
  intro other d hd
  rcases connections_put hd with ⟨rfl, rfl⟩ | ⟨-, hold⟩
  · exact (pumped other c opened).step step
  · refine (pumped other d hold).of_current ?_
    have hgeneration : scope.generation = s.generation := (Scope.follows_step step).generation
    change scope.generation = d.id ↔ _
    rw [hgeneration]

theorem Pumped.cleanup (pumped : Pumped s) (consistent : Consistent s) : Pumped s.cleanup := by
  rcases s.cleanup_cases with ⟨-, hcleanup⟩ | ⟨id, href, hcleanup⟩
  · rw [hcleanup]
    exact pumped
  · obtain rfl := consistent.refs id href
    rw [hcleanup]
    intro other d hd
    dsimp only at hd
    rw [Function.update_apply] at hd
    split at hd
    · obtain ⟨c, hc, rfl⟩ := Option.map_eq_some_iff.mp hd
      obtain ⟨hid, -⟩ := consistent.named _ c hc
      refine (pumped _ c hc).cleanup ?_
      rw [hid]
      exact Nat.succ_ne_self _
    · next hother =>
        obtain ⟨hid, hle⟩ := consistent.named other d hd
        refine (pumped other d hd).of_current ⟨fun hnext => ?_, fun hcurrent => ?_⟩
        · dsimp only at hnext
          omega
        · exact absurd (hcurrent.trans hid).symm hother

theorem Pumped.connect (pumped : Pumped s) (consistent : Consistent s) (serverId : Int)
    (ready : Bool) : Pumped (s.connect serverId ready) := by
  have hcleaned := consistent.cleanup
  have hpumped := pumped.cleanup consistent
  have href := s.cleanupRef_cleanup
  unfold Hook.connect
  generalize s.cleanup = t at hcleaned hpumped href
  have hkept : ∀ (shared : Shared) (id : Nat) (c : Connection),
      shared.generation = t.generation + 1 → t.connections id = some c → Pumping ⟨shared, c⟩ := by
    intro shared id c hgeneration hc
    obtain ⟨hid, hle⟩ := hcleaned.named id c hc
    refine (hpumped id c hc).of_current ⟨fun hnext => ?_, fun hcurrent => ?_⟩
    · omega
    · obtain rfl := hcurrent.trans hid
      rw [hcleaned.kept c hc] at href
      cases href
  dsimp only
  split
  · intro id c hc
    dsimp only at hc
    rw [Function.update_apply] at hc
    split at hc
    · obtain rfl := Option.some.inj hc
      exact pumping_opened serverId
    · exact hkept _ id c rfl hc
  · intro id c hc
    exact hkept _ id c rfl hc

theorem Pumped.run {actions : List HookAction}
    (run : play (Hook.step decoders) initial actions = some s) : Pumped s := by
  have hheld : Consistent s ∧ Pumped s := by
    refine play_preserves (fun t => Consistent t ∧ Pumped t) ⟨consistent_initial, nofun⟩ ?_ run
    rintro t next action ⟨hconsistent, hpumped⟩ hstep
    refine ⟨hconsistent.step hstep, ?_⟩
    rcases step_cases hstep with ⟨serverId, ready, -, rfl⟩ | rfl | rfl |
      ⟨id, c, callback, answers, scope, hopened, hscope, rfl⟩
    · exact hpumped.connect hconsistent serverId ready
    · exact hpumped.cleanup hconsistent
    · exact hpumped
    · exact hpumped.put hopened hscope
  exact hheld.2

end Hook

/-! ## Delivery -/

/-- What was given to the socket and what was taken from the input, frame by frame. -/
theorem Pumping.payloads (pumping : Pumping s) :
    ∃ sent rest : List Bytes, s.stdinSent = sent.map stdinFrame ∧
      s.accepted.flatMap inputFrames = (sent ++ rest).map stdinFrame ∧
      (sent ++ rest).flatten = s.accepted.flatMap textEncode ∧
      (∀ payload ∈ sent, 0 < payload.length ∧ payload.length ≤ inputChunkBytes) ∧
      (s.queued = [] → s.current → ¬ s.failed → rest = []) := by
  obtain ⟨payloads, hframes, hbytes, hlengths⟩ := flatMap_inputFrames_payloads s.accepted
  obtain ⟨lost, horder, hkept⟩ := pumping.order
  rw [hframes] at horder
  obtain ⟨sent, rest, rfl, hsent, hrest⟩ := List.map_eq_append_iff.mp horder
  refine ⟨sent, rest, hsent.symm, hframes, hbytes, ?_, ?_⟩
  · exact fun payload hpayload => hlengths payload (List.mem_append_left _ hpayload)
  · intro hqueued hcurrent hhealthy
    rw [hqueued, hkept hcurrent hhealthy] at hrest
    exact List.map_eq_nil_iff.mp hrest

theorem Pumping.pumpTimers_le (pumping : Pumping s) :
    (s.timers.filter fun entry => entry.2 = .pump).length ≤ 1 := by
  by_cases hcurrent : s.current
  · have hsame : ∀ entry ∈ s.timers.filter (fun entry => entry.2 = .pump),
        s.pumpTimer = some entry.1 := by
      rintro ⟨timer, task⟩ hentry
      obtain ⟨hmem, htask⟩ := List.mem_filter.mp hentry
      obtain rfl : task = .pump := of_decide_eq_true htask
      exact (pumping.linked hcurrent timer).mp hmem
    have hdistinct : ((s.timers.filter fun entry => entry.2 = .pump).map Prod.fst).Nodup :=
      pumping.distinct.sublist (List.Sublist.map _ List.filter_sublist)
    cases hfilter : s.timers.filter (fun entry => entry.2 = .pump) with
    | nil => exact Nat.zero_le _
    | cons first others =>
        rw [hfilter] at hsame hdistinct
        cases others with
        | nil => exact Nat.le_refl _
        | cons second others =>
            have hfirst := hsame first (by simp)
            have hsecond := hsame second (by simp)
            rw [hfirst] at hsecond
            simp [Option.some.inj hsecond] at hdistinct
  · rw [pumping.detached hcurrent]
    exact Nat.zero_le _

/--
Whatever happened, the stdin frames given to the socket of a connection are the first
frames of the input that it accepted, and all of them once the queue is empty, unless
the connection failed or was superseded; and queued frames on an open socket have the
one pump timer.
-/
theorem inputPump_delivers {actions : List HookAction} {h : Hook} {id : Nat} {c : Connection}
    (run : play (Hook.step decoders) Hook.initial actions = some h)
    (opened : h.connections id = some c) :
    ∃ payloads : List Bytes, c.stdinSent = payloads.map stdinFrame ∧
      c.stdinSent <+: c.accepted.flatMap inputFrames ∧
      (∀ payload ∈ payloads, 0 < payload.length ∧ payload.length ≤ inputChunkBytes) ∧
      payloads.flatten <+: c.accepted.flatMap textEncode ∧
      (c.queued = [] → ¬ c.failed → id = h.generation →
        payloads.flatten = c.accepted.flatMap textEncode) ∧
      (c.timers.filter fun entry => entry.2 = .pump).length ≤ 1 ∧
      (c.connected → c.readyState = .opened → c.queued ≠ [] →
        ∃ timer, (timer, .pump) ∈ c.timers) := by
  have hpumping := Hook.Pumped.run run id c opened
  obtain ⟨hid, -⟩ := (Hook.consistent_initial.run run).named id c opened
  obtain ⟨payloads, rest, hsent, hframes, hbytes, hlengths, hall⟩ := hpumping.payloads
  refine ⟨payloads, hsent, ?_, hlengths, ?_, ?_, hpumping.pumpTimers_le, ?_⟩
  · change c.accepted.flatMap inputFrames = _ at hframes
    rw [hframes, hsent, List.map_append]
    exact List.prefix_append _ _
  · change _ = c.accepted.flatMap textEncode at hbytes
    rw [← hbytes, List.flatten_append]
    exact List.prefix_append _ _
  · intro hqueued hhealthy hcurrent
    obtain rfl := hall hqueued (hcurrent.symm.trans hid.symm) hhealthy
    rw [List.append_nil] at hbytes
    exact hbytes
  · intro hconnected hopened hqueued
    obtain ⟨timer, htimer⟩ := hpumping.live hqueued hopened
    have hlinked := hpumping.linked (hpumping.whole hconnected).1 timer
    exact ⟨timer, hlinked.mpr htimer⟩

/-- A letter is typed while the buffer of the socket is full. -/
def congested : List HookAction :=
  let answers : Answers := ⟨fun _ => bufferLimit, fun _ => true, none⟩
  [.connect 1 true, .callback 1 (.readyState .opened) answers,
    .callback 1 (.onmessage (.binary [0x04])) answers, .callback 1 (.onData [0x41]) answers]

theorem inputPump_delivers_congested :
    ∃ h c, play (Hook.step ⟨fun _ => [], fun _ => none⟩) Hook.initial congested = some h ∧
      h.connections 1 = some c ∧ c.queued = [[0x00, 0x41]] ∧
      ∃ timer, (timer, .pump) ∈ c.timers := by
  have hview : (play (Hook.step ⟨fun _ => [], fun _ => none⟩) Hook.initial congested).map
      (fun h => (h.connections 1).map fun c => (c.connected, c.readyState, c.queued)) =
        some (some (true, .opened, [[0x00, 0x41]])) := rfl
  obtain ⟨h, hrun, hconnection⟩ := Option.map_eq_some_iff.mp hview
  obtain ⟨c, hc, hstate⟩ := Option.map_eq_some_iff.mp hconnection
  obtain ⟨hconnected, hopened, hqueued⟩ :
      c.connected = true ∧ c.readyState = .opened ∧ c.queued = [[0x00, 0x41]] := by
    simpa using hstate
  obtain ⟨payloads, -, -, -, -, -, -, hpump⟩ := inputPump_delivers hrun hc
  refine ⟨h, c, hrun, hc, hqueued, hpump hconnected hopened ?_⟩
  rw [hqueued]
  nofun

end OpsUp.Ui
