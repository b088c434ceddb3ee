import OpsUp.Ui.TerminalConnection

/-!
# Earlier connections

Every closure of a connection looks at the generation, at `failed` or at `connected`
before it does anything, so that the closures of earlier calls of `connect` and those of a
failed connection change nothing that is shown or sent.
-/

namespace OpsUp.Ui

open OpsUp.Go OpsUp.Js OpsUp.Interaction

variable {answers : Answers} {decoders : Decoders} {s t u : Scope}

def ConnectionStatus.rank : ConnectionStatus → Nat
  | .connecting => 0
  | .connected => 1
  | .error => 2

theorem ConnectionStatus.rank_le_error (status : ConnectionStatus) :
    status.rank ≤ rank .error := by
  cases status <;> decide

theorem ConnectionStatus.rank_le_connected {status : ConnectionStatus} (working : status ≠ .error) :
    status.rank ≤ rank .connected := by
  cases status with
  | connecting => decide
  | connected => decide
  | error => exact absurd rfl working

/-! ## One connection -/

/-- What any closure of a connection may do. -/
structure Follows (s t : Scope) : Prop where
  generation : t.generation = s.generation
  id : t.id = s.id
  closed : s.closed → t.closed
  failed : s.failed → t.failed
  errors : t.status = .error → t.failed ∨ s.status = .error
  forward : (s.status = .error → s.failed) → s.status.rank ≤ t.status.rank
  guarded : ¬ s.current ∨ s.failed →
    t.status = s.status ∧ t.errorMsg = s.errorMsg ∧ t.written = s.written
  silent : ¬ s.current → t.sent = s.sent

theorem Follows.current (follows : Follows s t) : t.current ↔ s.current := by
  rw [Scope.current, Scope.current, follows.generation, follows.id]

/-- A step that changes none of what is shown. -/
theorem Follows.of_hidden (generation : t.generation = s.generation) (id : t.id = s.id)
    (closed : t.closed = s.closed) (failed : t.failed = s.failed) (status : t.status = s.status)
    (errorMsg : t.errorMsg = s.errorMsg) (written : t.written = s.written)
    (silent : ¬ s.current → t.sent = s.sent) : Follows s t where
  generation := generation
  id := id
  closed := fun hclosed => closed.trans hclosed
  failed := fun hfailed => failed.trans hfailed
  errors := fun herror => .inr (status ▸ herror)
  forward := fun _ => Nat.le_of_eq (congrArg ConnectionStatus.rank status.symm)
  guarded := fun _ => ⟨status, errorMsg, written⟩
  silent := silent

theorem Follows.refl (s : Scope) : Follows s s :=
  .of_hidden rfl rfl rfl rfl rfl rfl rfl fun _ => rfl

theorem Follows.trans (first : Follows s t) (second : Follows t u) : Follows s u where
  generation := second.generation.trans first.generation
  id := second.id.trans first.id
  closed := fun hclosed => second.closed (first.closed hclosed)
  failed := fun hfailed => second.failed (first.failed hfailed)
  errors := by
    intro herror
    rcases second.errors herror with hfailed | hmiddle
    · exact .inl hfailed
    · rcases first.errors hmiddle with hfailed | hbefore
      · exact .inl (second.failed hfailed)
      · exact .inr hbefore
  forward := by
    intro hsettled
    refine Nat.le_trans (first.forward hsettled) (second.forward fun hmiddle => ?_)
    rcases first.errors hmiddle with hfailed | hbefore
    · exact hfailed
    · exact first.failed (hsettled hbefore)
  guarded := by
    intro hguard
    have hnext : ¬ t.current ∨ t.failed :=
      hguard.imp (fun hold => mt first.current.mp hold) first.failed
    obtain ⟨hstatus, herrorMsg, hwritten⟩ := first.guarded hguard
    obtain ⟨hstatus', herrorMsg', hwritten'⟩ := second.guarded hnext
    exact ⟨hstatus'.trans hstatus, herrorMsg'.trans herrorMsg, hwritten'.trans hwritten⟩
  silent := fun hold =>
    (second.silent (mt first.current.mp hold)).trans (first.silent hold)

namespace Scope

theorem follows_fail (message : JsString) (bufferedAmount : Nat) (s : Scope) :
    Follows s (s.fail message bufferedAmount) := by
  unfold fail
  split
  · exact .refl s
  · next hguard =>
      exact ⟨rfl, rfl, fun _ => rfl, fun _ => rfl, fun _ => .inl rfl,
        fun _ => s.status.rank_le_error, fun hstopped => absurd hstopped hguard,
        fun _ => rfl⟩

theorem follows_pump (answers : Answers) (s : Scope) : Follows s (s.pump answers) := by
  rcases pump_cases answers s with ⟨-, hpump⟩ | ⟨hsendable, count, t, -, ht, hpump⟩
  · rw [hpump]
    exact .of_hidden rfl rfl rfl rfl rfl rfl rfl fun _ => rfl
  · have hadvanced : Follows s t := by
      rw [ht]
      exact .of_hidden rfl rfl rfl rfl rfl rfl rfl fun hold => absurd hsendable.1 hold
    rcases hpump with ⟨bufferedAmount, hpump⟩ | ⟨-, hpump⟩ | ⟨-, hpump⟩
    · rw [hpump]
      exact hadvanced.trans (follows_fail inputFailed bufferedAmount t)
    · rw [hpump]
      exact hadvanced.trans (.of_hidden rfl rfl rfl rfl rfl rfl rfl fun _ => rfl)
    · rw [hpump]
      exact hadvanced.trans (.of_hidden rfl rfl rfl rfl rfl rfl rfl fun _ => rfl)

theorem follows_send (data : JsString) (answers : Answers) (s : Scope) :
    Follows s (s.send data answers) := by
  have hqueued : Follows s { s with
      queue := s.queue ++ inputFrames data, accepted := s.accepted ++ [data] } :=
    .of_hidden rfl rfl rfl rfl rfl rfl rfl fun _ => rfl
  unfold send
  split
  · exact .refl s
  · dsimp only
    split
    · exact hqueued.trans (follows_pump answers _)
    · exact hqueued

theorem follows_sendResize (answers : Answers) (s : Scope) : Follows s (s.sendResize answers) := by
  unfold sendResize
  split
  · exact .refl s
  · next hblocked =>
      have hcurrent : s.current := (Classical.not_not.mp hblocked).1
      have hsent : Follows s { s with sent := s.sent ++ [resizeFrame s.cols s.rows] } :=
        .of_hidden rfl rfl rfl rfl rfl rfl rfl fun hold => absurd hcurrent hold
      dsimp only
      split
      · exact hsent
      · exact hsent.trans (follows_fail _ _ _)

theorem follows_onResize (s : Scope) : Follows s s.onResize := by
  unfold onResize
  split
  · exact .refl s
  · cases s.resizeTimer with
    | none => exact .of_hidden rfl rfl rfl rfl rfl rfl rfl fun _ => rfl
    | some timer => exact .of_hidden rfl rfl rfl rfl rfl rfl rfl fun _ => rfl

theorem follows_doFit (fitted : Option (Nat × Nat)) (s : Scope) : Follows s (s.doFit fitted) := by
  rcases fitted with _ | ⟨cols, rows⟩
  · exact .refl s
  · have hsize : Follows s { s with cols := cols, rows := rows } :=
      .of_hidden rfl rfl rfl rfl rfl rfl rfl fun _ => rfl
    exact hsize.trans (follows_onResize _)

theorem follows_fitAndResize (answers : Answers) (s : Scope) :
    Follows s (s.fitAndResize answers) :=
  (follows_doFit answers.fitted s).trans (follows_sendResize answers _)

theorem follows_later (task : Delayed) (s : Scope) : Follows s (s.later task) :=
  .of_hidden rfl rfl rfl rfl rfl rfl rfl fun _ => rfl

theorem follows_onmessage (decoders : Decoders) (data : MessageData) (answers : Answers)
    (s : Scope) : Follows s (s.onmessage decoders data answers) := by
  unfold onmessage
  split
  · exact .refl s
  · next hguard =>
      rcases data with text | _ | ⟨kind, payload⟩
      · exact .refl s
      · exact .refl s
      · dsimp only
        split
        · exact ⟨rfl, rfl, fun h => h, fun h => h, .inr, fun _ => Nat.le_refl _,
            fun hstopped => absurd hstopped hguard, fun _ => rfl⟩
        · split
          · exact follows_fail _ _ s
          · split
            · split
              · exact .refl s
              · split
                · exact follows_fail _ _ s
                · exact .refl s
            · split
              · -- the session is ready
                have hready : Follows s { s with connected := true, status := .connected } := by
                  refine ⟨rfl, rfl, fun h => h, fun h => h, nofun, ?_,
                    fun hstopped => absurd hstopped hguard, fun _ => rfl⟩
                  intro hsettled
                  refine ConnectionStatus.rank_le_connected fun herror => ?_
                  exact absurd (.inr (hsettled herror)) hguard
                exact ((hready.trans (follows_fitAndResize answers _)).trans
                  (follows_later _ _)).trans (follows_later _ _)
              · exact .refl s

theorem follows_fire (timer : Nat) (task : Delayed) (answers : Answers) (s : Scope) :
    Follows s (s.fire timer task answers) := by
  have hdeleted : Follows s (s.deleteTimer timer) :=
    .of_hidden rfl rfl rfl rfl rfl rfl rfl fun _ => rfl
  unfold fire
  dsimp only
  split
  · exact hdeleted
  · cases task with
    | pump => exact hdeleted.trans (follows_pump answers _)
    | sendResize => exact hdeleted.trans (follows_sendResize answers _)
    | fitAndResize => exact hdeleted.trans (follows_fitAndResize answers _)

theorem follows_step {callback : Callback} (step : s.step decoders answers callback = some t) :
    Follows s t := by
  cases called_of_step step with
  | readyState => exact .of_hidden rfl rfl rfl rfl rfl rfl rfl fun _ => rfl
  | onmessage => exact follows_onmessage decoders _ answers s
  | onclose => exact follows_fail _ _ s
  | onerror => exact follows_fail _ _ s
  | timer => exact follows_fire _ _ answers s
  | animationFrame =>
      split
      · exact follows_doFit answers.fitted s
      · exact .refl s
  | observed =>
      split
      · exact follows_fitAndResize answers s
      · exact .refl s
  | onData => exact follows_send _ answers s
  | onResize => exact follows_doFit _ s

end Scope

/-! ## All connections -/

namespace Hook

/-- Every connection but that of the generation is closed, the ref holds the clean-up of
that one, and an error is its failure. -/
structure Consistent (s : Hook) : Prop where
  named : ∀ id c, s.connections id = some c → c.id = id ∧ id ≤ s.generation
  kept : ∀ c, s.connections s.generation = some c → s.cleanupRef = some s.generation
  refs : ∀ id, s.cleanupRef = some id → id = s.generation
  superseded : ∀ id c, s.connections id = some c → id ≠ s.generation → c.closed
  errors : s.status = .error → ∀ c, s.connections s.generation = some c → c.failed

variable {decoders : Decoders} {s next : Hook}

theorem consistent_initial : Consistent initial :=
  ⟨nofun, nofun, nofun, nofun, nofun⟩

theorem connections_put {id other : Nat} {scope : Scope} {d : Connection}
    (opened : (s.put id scope).connections other = some d) :
    (other = id ∧ scope.toConnection = d) ∨ (other ≠ id ∧ s.connections other = some d) := by
  dsimp only [Hook.put] at opened
  rw [Function.update_apply] at opened
  split at opened
  · next hother => exact .inl ⟨hother, Option.some.inj opened⟩
  · next hother => exact .inr ⟨hother, opened⟩

theorem Consistent.put (consistent : Consistent s) {id : Nat} {c : Connection} {scope : Scope}
    (opened : s.connections id = some c) (follows : Follows ⟨s.toShared, c⟩ scope) :
    Consistent (s.put id scope) := by
  have hgeneration : (s.put id scope).generation = s.generation := follows.generation
  obtain ⟨hnamed, hle⟩ := consistent.named id c opened
  refine ⟨?_, ?_, ?_, ?_, ?_⟩
  · intro other d hd
    rw [hgeneration]
    rcases connections_put hd with ⟨rfl, rfl⟩ | ⟨-, hold⟩
    · exact ⟨follows.id.trans hnamed, hle⟩
    · exact consistent.named other d hold
  · rw [hgeneration]
    intro d hd
    rcases connections_put hd with ⟨hid, -⟩ | ⟨-, hold⟩
    · exact consistent.kept c (hid ▸ opened)
    · exact consistent.kept d hold
  · rw [hgeneration]
    exact consistent.refs
  · rw [hgeneration]
    intro other d hd hother
    rcases connections_put hd with ⟨rfl, rfl⟩ | ⟨-, hold⟩
    · exact follows.closed (consistent.superseded other c opened hother)
    · exact consistent.superseded other d hold hother
  · rw [hgeneration]
    intro herror d hd
    rcases connections_put hd with ⟨hid, rfl⟩ | ⟨hid, hold⟩
    · rcases follows.errors herror with hfailed | hbefore
      · exact hfailed
      · exact follows.failed (consistent.errors hbefore c (hid ▸ opened))
    · have hearlier : ¬ (⟨s.toShared, c⟩ : Scope).current :=
        fun hcurrent => hid (hcurrent.trans hnamed)
      have hstatus := (follows.guarded (.inl hearlier)).1
      exact consistent.errors (hstatus.symm.trans herror) d hold

theorem cleanup_cases (s : Hook) :
    (s.cleanupRef = none ∧ s.cleanup = s) ∨
      ∃ id, s.cleanupRef = some id ∧ s.cleanup =
        { s with
          generation := s.generation + 1
          connections := Function.update s.connections id ((s.connections id).map .cleanup)
          sendRef := none
          cleanupRef := none
          fitRef := none } := by
  unfold cleanup
  cases href : s.cleanupRef with
  | none => exact .inl ⟨rfl, rfl⟩
  | some id => exact .inr ⟨id, rfl, rfl⟩

theorem cleanupRef_cleanup (s : Hook) : s.cleanup.cleanupRef = none := by
  rcases s.cleanup_cases with ⟨href, hcleanup⟩ | ⟨id, -, hcleanup⟩
  · rw [hcleanup, href]
  · rw [hcleanup]

theorem Consistent.none_next (consistent : Consistent s) :
    s.connections (s.generation + 1) = none := by
  cases hnext : s.connections (s.generation + 1) with
  | none => rfl
  | some c => exact absurd (consistent.named _ c hnext).2 (Nat.not_succ_le_self _)

theorem Consistent.cleanup (consistent : Consistent s) : Consistent s.cleanup := by
  rcases s.cleanup_cases with ⟨-, hcleanup⟩ | ⟨id, href, hcleanup⟩
  · rw [hcleanup]
    exact consistent
  · obtain rfl := consistent.refs id href
    rw [hcleanup]
    have hnone : Function.update s.connections s.generation
        ((s.connections s.generation).map Connection.cleanup) (s.generation + 1) = none := by
      rw [Function.update_of_ne (Nat.succ_ne_self _)]
      exact consistent.none_next
    refine ⟨?_, ?_, nofun, ?_, ?_⟩
    · intro other c hc
      dsimp only at hc
      rw [Function.update_apply] at hc
      split at hc
      · next hother =>
          obtain ⟨before, hbefore, rfl⟩ := Option.map_eq_some_iff.mp hc
          exact ⟨(consistent.named _ before hbefore).1.trans hother.symm,
            hother ▸ Nat.le_succ _⟩
      · have hnamed := consistent.named other c hc
        exact ⟨hnamed.1, Nat.le_succ_of_le hnamed.2⟩
    · intro c hc
      dsimp only at hc
      rw [hnone] at hc
      cases hc
    · intro other c hc _
      dsimp only at hc
      rw [Function.update_apply] at hc
      split at hc
      · obtain ⟨before, -, rfl⟩ := Option.map_eq_some_iff.mp hc
        rfl
      · next hother => exact consistent.superseded other c hc hother
    · intro _ c hc
      dsimp only at hc
      rw [hnone] at hc
      cases hc

theorem Consistent.connect (consistent : Consistent s) (serverId : Int) (ready : Bool) :
    Consistent (s.connect serverId ready) := by
  have hcleaned := consistent.cleanup
  have href := s.cleanupRef_cleanup
  unfold Hook.connect
  generalize s.cleanup = t at hcleaned href
  -- nothing is open any more
  have hclosed : ∀ id c, t.connections id = some c → c.closed := by
    intro id c hc
    refine hcleaned.superseded id c hc ?_
    rintro rfl
    rw [hcleaned.kept c hc] at href
    cases href
  have hnone := hcleaned.none_next
  dsimp only
  split
  · refine ⟨?_, fun _ _ => rfl, ?_, ?_, nofun⟩
    · intro id c hc
      dsimp only at hc
      rw [Function.update_apply] at hc
      split at hc
      · next hid =>
          obtain rfl := Option.some.inj hc
          exact ⟨hid.symm, Nat.le_of_eq hid⟩
      · have hnamed := hcleaned.named id c hc
        exact ⟨hnamed.1, Nat.le_succ_of_le hnamed.2⟩
    · intro id hid
      exact (Option.some.inj hid).symm
    · intro id c hc hother
      dsimp only at hc
      rw [Function.update_of_ne hother] at hc
      exact hclosed id c hc
  · refine ⟨?_, ?_, ?_, fun id c hc _ => hclosed id c hc, ?_⟩
    · intro id c hc
      have hnamed := hcleaned.named id c hc
      exact ⟨hnamed.1, Nat.le_succ_of_le hnamed.2⟩
    · intro c hc
      dsimp only at hc
      rw [hnone] at hc
      cases hc
    · intro id hid
      dsimp only at hid
      rw [href] at hid
      cases hid
    · intro _ c hc
      dsimp only at hc
      rw [hnone] at hc
      cases hc

theorem Consistent.step (consistent : Consistent s) {action : HookAction}
    (step : s.step decoders action = some next) : Consistent next := by
  rcases step_cases step with ⟨serverId, ready, -, rfl⟩ | rfl | rfl |
    ⟨id, c, callback, answers, scope, hopened, hscope, rfl⟩
  · exact consistent.connect serverId ready
  · exact consistent.cleanup
  · exact consistent
  · exact consistent.put hopened (Scope.follows_step hscope)

theorem Consistent.run (consistent : Consistent s) {actions : List HookAction}
    (run : play (Hook.step decoders) s actions = some next) : Consistent next :=
  play_preserves Consistent consistent (fun held hstep => held.step hstep) run

/-- The arguments of `term.write` of a connection, if there is one. -/
def writtenTo (s : Hook) (id : Nat) : Option (List Bytes) :=
  (s.connections id).map Connection.written

/-- The arguments of `ws.send` of a connection, if there is one. -/
def sentBy (s : Hook) (id : Nat) : Option (List Bytes) :=
  (s.connections id).map Connection.sent

/-- How the hook goes on until `connect` is called: the status moves forward, and an error
stays as it was first shown. -/
structure Settles (s t : Hook) : Prop where
  forward : s.status.rank ≤ t.status.rank
  error : s.status = .error →
    t.status = .error ∧ t.errorMsg = s.errorMsg ∧ t.writtenTo = s.writtenTo

theorem writtenTo_put {id : Nat} {c : Connection} {scope : Scope}
    (opened : s.connections id = some c) (same : scope.written = c.written) :
    (s.put id scope).writtenTo = s.writtenTo := by
  funext other
  rw [writtenTo, writtenTo, Hook.put]
  dsimp only
  rw [Function.update_apply]
  split
  · next hother =>
      rw [hother, opened]
      exact congrArg some same
  · rfl

theorem writtenTo_cleanup (s : Hook) : s.cleanup.writtenTo = s.writtenTo := by
  rcases s.cleanup_cases with ⟨-, hcleanup⟩ | ⟨id, -, hcleanup⟩
  · rw [hcleanup]
  · rw [hcleanup]
    funext other
    rw [writtenTo, writtenTo]
    dsimp only
    rw [Function.update_apply]
    split
    · next hother =>
        rw [hother, Option.map_map]
        rfl
    · rfl

theorem Consistent.settles (consistent : Consistent s) {action : HookAction}
    (unconnected : ∀ serverId ready, action ≠ .connect serverId ready)
    (step : s.step decoders action = some next) : Settles s next := by
  rcases step_cases step with ⟨serverId, ready, haction, -⟩ | rfl | rfl |
    ⟨id, c, callback, answers, scope, hopened, hscope, rfl⟩
  · exact absurd haction (unconnected serverId ready)
  · have hstatus : s.cleanup.status = s.status ∧ s.cleanup.errorMsg = s.errorMsg := by
      rcases s.cleanup_cases with ⟨-, hcleanup⟩ | ⟨id, -, hcleanup⟩
      · rw [hcleanup]
        exact ⟨rfl, rfl⟩
      · rw [hcleanup]
        exact ⟨rfl, rfl⟩
    refine ⟨Nat.le_of_eq (congrArg _ hstatus.1.symm), fun herror => ?_⟩
    exact ⟨hstatus.1.trans herror, hstatus.2, s.writtenTo_cleanup⟩
  · exact ⟨Nat.le_refl _, fun herror => ⟨herror, rfl, rfl⟩⟩
  · have hfollows := Scope.follows_step hscope
    have hnamed := (consistent.named id c hopened).1
    have hstopped : s.status = .error → ¬ (⟨s.toShared, c⟩ : Scope).current ∨ c.failed := by
      intro herror
      by_cases hid : id = s.generation
      · exact .inr (consistent.errors herror c (hid ▸ hopened))
      · exact .inl fun hcurrent => hid (hnamed.symm.trans hcurrent.symm)
    refine ⟨?_, fun herror => ?_⟩
    · by_cases hcurrent : (⟨s.toShared, c⟩ : Scope).current
      · refine hfollows.forward fun herror => ?_
        exact (hstopped herror).resolve_left fun hold => hold hcurrent
      · have hstatus := (hfollows.guarded (.inl hcurrent)).1
        exact Nat.le_of_eq (congrArg _ hstatus.symm)
    · obtain ⟨hstatus, herrorMsg, hwritten⟩ := hfollows.guarded (hstopped herror)
      exact ⟨hstatus.trans herror, herrorMsg, writtenTo_put hopened hwritten⟩

theorem Consistent.settles_run (consistent : Consistent s) {actions : List HookAction}
    (unconnected : ∀ action ∈ actions, ∀ serverId ready, action ≠ .connect serverId ready)
    (run : play (Hook.step decoders) s actions = some next) : Settles s next := by
  have hheld := play_preserves_of_forall (fun t => Consistent t ∧ Settles s t)
    (fun action => ∀ serverId ready, action ≠ .connect serverId ready)
    ⟨consistent, Nat.le_refl _, fun herror => ⟨herror, rfl, rfl⟩⟩ ?_ run unconnected
  · exact hheld.2
  · rintro t u action hother ⟨hconsistent, hbefore⟩ hstep
    have hafter := hconsistent.settles hother hstep
    refine ⟨hconsistent.step hstep, Nat.le_trans hbefore.forward hafter.forward, ?_⟩
    intro herror
    obtain ⟨hstatus, herrorMsg, hwritten⟩ := hbefore.error herror
    obtain ⟨hstatus', herrorMsg', hwritten'⟩ := hafter.error hstatus
    exact ⟨hstatus', herrorMsg'.trans herrorMsg, hwritten'.trans hwritten⟩

/-- A callback of an earlier connection changes nothing that is shown or sent. -/
theorem Consistent.inert (consistent : Consistent s) {id : Nat} {callback : Callback}
    {answers : Answers} (earlier : id ≠ s.generation)
    (step : s.step decoders (.callback id callback answers) = some next) :
    next.status = s.status ∧ next.errorMsg = s.errorMsg ∧ next.writtenTo = s.writtenTo ∧
      next.sentBy = s.sentBy := by
  dsimp only [Hook.step] at step
  obtain ⟨c, scope, hopened, hscope, rfl⟩ := within_eq_some_iff.mp step
  have hfollows := Scope.follows_step hscope
  have hearlier : ¬ (⟨s.toShared, c⟩ : Scope).current :=
    fun hcurrent => earlier (((consistent.named id c hopened).1).symm.trans hcurrent.symm)
  obtain ⟨hstatus, herrorMsg, hwritten⟩ := hfollows.guarded (.inl hearlier)
  refine ⟨hstatus, herrorMsg, writtenTo_put hopened hwritten, ?_⟩
  funext other
  rw [sentBy, sentBy, Hook.put]
  dsimp only
  rw [Function.update_apply]
  split
  · next hother =>
      rw [hother, hopened]
      exact congrArg some (hfollows.silent hearlier)
  · rfl

end Hook

/-- After every run: one socket at most is left unclosed, the callbacks of earlier
connections are inert, and until the next `connect` the status only moves forward, to an
error that stays as it is. -/
theorem earlierConnections_inert {actions : List HookAction} {s : Hook}
    (run : play (Hook.step decoders) Hook.initial actions = some s) :
    (∀ id other c d, s.connections id = some c → s.connections other = some d →
      ¬ c.closed → ¬ d.closed → id = other) ∧
    (∀ id callback answers next, id ≠ s.generation →
      s.step decoders (.callback id callback answers) = some next →
      next.status = s.status ∧ next.errorMsg = s.errorMsg ∧ next.writtenTo = s.writtenTo ∧
        next.sentBy = s.sentBy) ∧
    ∀ later next, (∀ action ∈ later, ∀ serverId ready, action ≠ .connect serverId ready) →
      play (Hook.step decoders) s later = some next → Hook.Settles s next := by
  have hconsistent := Hook.consistent_initial.run run
  refine ⟨?_, ?_, ?_⟩
  · intro id other c d hc hd hopen hopen'
    have hlatest : ∀ i e, s.connections i = some e → ¬ e.closed → i = s.generation :=
      fun i e he hunclosed =>
        Classical.not_not.mp fun hearlier => hunclosed (hconsistent.superseded i e he hearlier)
    rw [hlatest id c hc hopen, hlatest other d hd hopen']
  · intro id callback answers next hearlier hstep
    exact hconsistent.inert hearlier hstep
  · intro later next hunconnected hlater
    exact hconsistent.settles_run hunconnected hlater

/-- A connection to server 1 becomes ready and is replaced by one to server 2. -/
def reconnected : List HookAction :=
  let answers : Answers := ⟨fun _ => 0, fun _ => true, none⟩
  [.connect 1 true, .callback 1 (.readyState .opened) answers,
    .callback 1 (.onmessage (.binary [0x04])) answers, .connect 2 true]

theorem earlierConnections_inert_reconnected :
    ∃ s, play (Hook.step ⟨fun _ => [], fun _ => none⟩) Hook.initial reconnected = some s ∧
      s.generation = 3 ∧
      ∀ callback answers next,
        s.step ⟨fun _ => [], fun _ => none⟩ (.callback 1 callback answers) = some next →
        next.status = s.status := by
  have h : (play (Hook.step ⟨fun _ => [], fun _ => none⟩) Hook.initial reconnected).map
      (fun s => s.generation) = some 3 := rfl
  obtain ⟨s, hrun, hgeneration⟩ := Option.map_eq_some_iff.mp h
  refine ⟨s, hrun, hgeneration, fun callback answers next hstep => ?_⟩
  have hearlier : 1 ≠ s.generation := by
    rw [hgeneration]
    decide
  exact ((earlierConnections_inert hrun).2.1 1 callback answers next hearlier hstep).1

end OpsUp.Ui
