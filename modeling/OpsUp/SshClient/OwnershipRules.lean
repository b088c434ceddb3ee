import OpsUp.SshClient.Session

/-!
# Assertions about what is owned

What holds between the steps of a call whatever happens around them: closing stays
sound, what has been closed stays closed, contexts that have ended stay ended, and
a client that nobody had a reason to close is untouched.
-/

namespace OpsUp.SshClient

open OpsUp.Interaction Relation

namespace Ownership

variable {state before after : Ownership} {guard : Guard} {client : Client}

/-! ## What only grows -/

/-- A later state of the same call, up to what the call itself opens. -/
structure Later (before after : Ownership) : Prop where
  opened : after.opened = before.opened
  dropped : after.dropped = before.dropped
  holders : after.holders = before.holders
  setup : before.setup ≠ none → after.setup ≠ none
  parent : before.parent ≠ none → after.parent ≠ none
  asked : after.asked = true → before.asked = true ∨ before.holders ≠ []
  done : ∀ guard, before.closing.guards.once guard = .done →
    after.closing.guards.once guard = .done

theorem Later.refl (state : Ownership) : Later state state :=
  ⟨rfl, rfl, rfl, id, id, Or.inl, fun _ => id⟩

theorem Later.trans {middle : Ownership} (first : Later before middle)
    (second : Later middle after) : Later before after where
  opened := second.opened.trans first.opened
  dropped := second.dropped.trans first.dropped
  holders := second.holders.trans first.holders
  setup := fun h => second.setup (first.setup h)
  parent := fun h => second.parent (first.parent h)
  asked := fun h => by
    rcases second.asked h with hasked | hholders
    · exact first.asked hasked
    · exact Or.inr (first.holders ▸ hholders)
  done := fun guard h => second.done guard (first.done guard h)

theorem step_done {op : CloseOp Guard} {closing : Closing Guard}
    (step : Closing.Step closeLayers state.closing op closing)
    (done : state.closing.guards.once guard = .done) : closing.guards.once guard = .done := by
  obtain ⟨_, advances⟩ := step
  exact advances.done done

theorem Goroutine.later (goes : Goroutine before after) : Later before after := by
  cases goes with
  | callback ended armed => exact ⟨rfl, rfl, rfl, id, id, Or.inl, fun _ => id⟩
  | registered cancelled registered => exact ⟨rfl, rfl, rfl, id, id, Or.inl, fun _ => id⟩
  | wakes cancelled waits => exact ⟨rfl, rfl, rfl, id, id, Or.inl, fun _ => id⟩
  | retires closed waits => exact ⟨rfl, rfl, rfl, id, id, Or.inl, fun _ => id⟩
  | closes step => exact ⟨rfl, rfl, rfl, id, id, Or.inl, fun _ => step_done step⟩

theorem Around.later (moves : Around before after) : Later before after := by
  cases moves with
  | goroutine goes => exact goes.later
  | cancelled live err => exact ⟨rfl, rfl, rfl, id, nofun, Or.inl, fun _ => id⟩
  | ended live err => exact ⟨rfl, rfl, rfl, nofun, id, Or.inl, fun _ => id⟩
  | asks held =>
      refine ⟨rfl, rfl, rfl, id, id, fun _ => Or.inr ?_, fun _ => id⟩
      exact List.ne_nil_of_mem held

theorem later_of_moves (moves : ReflTransGen Around before after) : Later before after := by
  induction moves with
  | refl => exact .refl before
  | tail _ move ih => exact ih.trans move.later

/-! ## Sound closing -/

abbrev Sound (state : Ownership) : Prop := state.closing.Sound closeLayers

theorem Goroutine.sound (sound : before.Sound) (goes : Goroutine before after) : after.Sound := by
  cases goes with
  | callback ended armed => exact Closing.Sound.spawn sound _
  | registered cancelled registered => exact Closing.Sound.spawn sound _
  | wakes cancelled waits => exact Closing.Sound.spawn sound _
  | retires closed waits => exact sound
  | closes step => exact Closing.Sound.step sound step

theorem stable_sound : Stable Around Sound := by
  intro before after sound moves
  cases moves with
  | goroutine goes => exact goes.sound sound
  | cancelled live err => exact sound
  | ended live err => exact sound
  | asks held => exact Closing.Sound.spawn sound _

/-- The first thread of the caller only goes on by itself. -/
theorem Around.own {own : List (CloseOp Guard)} {others : List (List (CloseOp Guard))}
    (moves : Around before after) (place : before.closing.threads = own :: others) :
    ∃ next rest, after.closing.threads = next :: rest ∧
      (next = own ∨ ∃ op tail pushed, own = op :: tail ∧ next = pushed ++ tail ∧
        Advances closeLayers before.closing.guards op after.closing.guards pushed) := by
  have hspawn : ∀ guard, (before.closing.spawn guard).threads = own :: (others ++ [[.enter guard]]) :=
    fun guard => congrArg (· ++ [[CloseOp.enter guard]]) place
  cases moves with
  | goroutine goes =>
      cases goes with
      | callback ended armed => exact ⟨_, _, hspawn _, Or.inl rfl⟩
      | registered cancelled registered => exact ⟨_, _, hspawn _, Or.inl rfl⟩
      | wakes cancelled waits => exact ⟨_, _, hspawn _, Or.inl rfl⟩
      | retires closed waits => exact ⟨_, _, place, Or.inl rfl⟩
      | closes step =>
          obtain ⟨next, rest, hplace, hnext⟩ := step.head place
          refine ⟨next, rest, hplace, hnext.imp_right ?_⟩
          rintro ⟨tail, pushed, hown, hpushed, advances⟩
          exact ⟨_, tail, pushed, hown, hpushed, advances⟩
  | cancelled live err => exact ⟨_, _, place, Or.inl rfl⟩
  | ended live err => exact ⟨_, _, place, Or.inl rfl⟩
  | asks held => exact ⟨_, _, hspawn _, Or.inl rfl⟩

theorem stable_idle : Stable Around Idle := by
  rintro before after ⟨others, place⟩ moves
  obtain ⟨next, rest, hplace, rfl | ⟨_, _, _, hown, _⟩⟩ := moves.own place
  · exact ⟨rest, hplace⟩
  · cases hown

/-! ## A `Close` that has returned -/

/-- The thread of the caller has closed the guard, or is still about to. -/
def AboutToClose (guard : Guard) (state : Ownership) : Prop :=
  ∃ own others, state.closing.threads = own :: others ∧
    (state.closing.guards.once guard = .done ∨ ∃ op ∈ own, op.guard = guard)

theorem stable_aboutToClose (guard : Guard) : Stable Around (AboutToClose guard) := by
  rintro before after ⟨own, others, place, closes⟩ moves
  obtain ⟨next, rest, hplace, hnext⟩ := moves.own place
  refine ⟨next, rest, hplace, ?_⟩
  rcases closes with hdone | hmentions
  · exact Or.inl (moves.later.done guard hdone)
  · rcases hnext with rfl | ⟨op, tail, pushed, rfl, rfl, advances⟩
    · exact Or.inr hmentions
    · exact advances.closes hmentions

/-- The state in which the caller begins a `Close`. -/
def beginning (guard : Guard) (others : List (List (CloseOp Guard))) (state : Ownership) :
    Ownership :=
  { state with closing := ⟨state.closing.guards, [.enter guard] :: others⟩ }

theorem Sound.beginning (sound : state.Sound) {others : List (List (CloseOp Guard))}
    (place : state.closing.threads = [] :: others) : (state.beginning guard others).Sound := by
  apply Closing.Sound.admits sound
  · intro thread hthread
    rcases List.mem_cons.mp hthread with rfl | hold
    · exact Or.inr ⟨guard, rfl⟩
    · exact Or.inl (place ▸ List.mem_cons_of_mem _ hold)
  · intro op hop
    simp [Closing.pending, place, (hop guard).symm]

/-- What a `Close` that has returned leaves behind. -/
theorem Closes.spec (sound : before.Sound) (closes : before.Closes guard after) :
    after.Sound ∧ after.Idle ∧ Later before after ∧ after.closing.guards.once guard = .done := by
  obtain ⟨others, place, moves, hidle⟩ := closes
  have hlater := later_of_moves moves
  refine ⟨stable_sound.many (sound.beginning place) moves, hidle, ?_, ?_⟩
  · exact ⟨hlater.opened, hlater.dropped, hlater.holders, hlater.setup, hlater.parent,
      hlater.asked, hlater.done⟩
  · obtain ⟨own, rest, hplace, hdone | ⟨op, hop, -⟩⟩ :=
      (stable_aboutToClose guard).many ⟨_, _, rfl, Or.inr ⟨_, List.mem_cons_self, rfl⟩⟩ moves
    · exact hdone
    · obtain ⟨others', hempty⟩ := hidle
      rw [hempty] at hplace
      obtain ⟨rfl, -⟩ := List.cons.inj hplace
      cases hop

/-! ## What is released -/

/-- Every transport of the call has been closed by its client or directly. -/
def Released (state : Ownership) : Prop :=
  ∀ transport ∈ state.opened, transport ∈ state.dropped ∨
    ∃ client : Client, client.transport = transport ∧
      state.closing.guards.once (.client client) = .done

/-- A closed client has closed its jump hosts. -/
theorem family_done (sound : state.Sound) : ∀ {client : Client},
    state.closing.guards.once (.client client) = .done →
      ∀ owned ∈ client.family, state.closing.guards.once (.client owned) = .done
  | ⟨transport, none⟩, done, owned, member => by
      rw [List.mem_singleton.mp member]
      exact done
  | ⟨transport, some jump⟩, done, owned, member => by
      rcases List.mem_cons.mp member with rfl | hjump
      · exact done
      · exact family_done sound (sound.below _ done (.client jump) rfl) owned hjump

/-- Every transport of a closed client has been closed by its owner. -/
theorem closed_of_done (sound : state.Sound)
    (done : state.closing.guards.once (.client client) = .done) :
    ∀ transport ∈ client.transports, ∃ owner : Client, owner.transport = transport ∧
      state.closing.guards.once (.client owner) = .done := by
  intro transport howned
  rw [← client.map_family] at howned
  obtain ⟨owner, hfamily, rfl⟩ := List.mem_map.mp howned
  exact ⟨owner, rfl, family_done sound done owner hfamily⟩

theorem Released.closed (released : state.Released) (sound : state.Sound) :
    ∀ transport ∈ state.opened, state.Closed transport := by
  intro transport hopened
  rcases released transport hopened with hdropped | ⟨client, hclient, hdone⟩
  · exact Or.inl hdropped
  · refine Or.inr ⟨client, hclient, ?_⟩
    rw [Closing.Sound.lasts_of_done sound hdone]
    exact Nat.one_pos

/-- Nothing is left of a failed call. -/
structure Safe (state : Ownership) : Prop where
  sound : state.Sound
  idle : state.Idle
  released : state.Released

theorem stable_safe : Stable Around Safe := by
  intro before after safe moves
  have hlater := moves.later
  refine ⟨stable_sound safe.sound moves, stable_idle safe.idle moves, ?_⟩
  intro transport hopened
  rw [hlater.opened] at hopened
  rcases safe.released transport hopened with hdropped | ⟨client, hclient, hdone⟩
  · exact Or.inl (hlater.dropped ▸ hdropped)
  · exact Or.inr ⟨client, hclient, hlater.done _ hdone⟩

/-! ## What is spared -/

/-- Nothing is closed, unless the parent context or somebody outside has asked for it. -/
def Spared (state : Ownership) : Prop :=
  state.closing.Untouched ∨ state.parent ≠ none ∨ state.asked = true

/-- Only the setup timer disarms itself. -/
theorem Around.armed (moves : Around before after) :
    after.armed = before.armed ∨ (before.setup ≠ none ∧ after.armed = none) := by
  cases moves with
  | goroutine goes =>
      cases goes with
      | callback ended armed => exact Or.inr ⟨ended, rfl⟩
      | registered cancelled registered => exact Or.inl rfl
      | wakes cancelled waits => exact Or.inl rfl
      | retires closed waits => exact Or.inl rfl
      | closes step => exact Or.inl rfl
  | cancelled live err => exact Or.inl rfl
  | ended live err => exact Or.inl rfl
  | asks held => exact Or.inl rfl

theorem untouched_stays {op : CloseOp Guard} {closing : Closing Guard}
    (untouched : state.closing.Untouched) :
    ¬ Closing.Step closeLayers state.closing op closing := by
  rintro ⟨place, -⟩
  have hempty := untouched.1
  rw [Closing.pending, place] at hempty
  simp at hempty

/-- Whatever closes something leaves its reason behind, the setup timer apart. -/
theorem Around.spared (moves : Around before after) (spared : before.Spared)
    (same : after.armed = before.armed) : after.Spared := by
  cases moves with
  | goroutine goes =>
      cases goes with
      | callback ended armed =>
          rw [armed] at same
          cases same
      | registered cancelled registered => exact Or.inr (Or.inl cancelled)
      | wakes cancelled waits => exact Or.inr (Or.inl cancelled)
      | retires closed waits => exact spared
      | closes step =>
          rcases spared with untouched | reason
          · exact absurd step (untouched_stays untouched)
          · exact Or.inr reason
  | cancelled live err => exact Or.inr (Or.inl nofun)
  | ended live err => exact spared
  | asks held => exact Or.inr (Or.inr rfl)

/-- The setup timer may close the client: either it has begun to, and the setup is over,
or it has spared the client so far. -/
def Armed (client : Client) (state : Ownership) : Prop :=
  (state.armed = none ∧ state.setup ≠ none) ∨ (state.armed = some client ∧ state.Spared)

/-- The setup timer can no longer close anything. -/
def Disarmed (state : Ownership) : Prop := state.armed = none ∧ state.Spared

theorem stable_armed (client : Client) : Stable Around (Armed client) := by
  intro before after armed moves
  rcases armed with ⟨hnone, hsetup⟩ | ⟨hsome, hspared⟩
  · left
    refine ⟨?_, moves.later.setup hsetup⟩
    rcases moves.armed with hsame | ⟨-, hnone'⟩
    · exact hsame.trans hnone
    · exact hnone'
  · rcases moves.armed with hsame | ⟨hsetup, hnone⟩
    · exact Or.inr ⟨hsame.trans hsome, moves.spared hspared hsame⟩
    · exact Or.inl ⟨hnone, moves.later.setup hsetup⟩

theorem stable_disarmed : Stable Around Disarmed := by
  rintro before after ⟨hnone, hspared⟩ moves
  have hsame : after.armed = before.armed := by
    rcases moves.armed with hsame | ⟨-, hnone'⟩
    · exact hsame
    · exact hnone'.trans hnone.symm
  exact ⟨hsame.trans hnone, moves.spared hspared hsame⟩

/-- A spared client has been closed for a reason only. -/
theorem Spared.reason (spared : state.Spared) (sound : state.Sound) (kept : state.dropped = [])
    {transport : Transport} (closed : state.Closed transport) :
    state.parent ≠ none ∨ state.asked = true := by
  rcases spared with untouched | reason
  · rcases closed with hdropped | ⟨client, -, hlasts⟩
    · rw [kept] at hdropped
      cases hdropped
    · have hcount := sound.lasts (.client client)
      simp [untouched.1, untouched.2, Once.finished] at hcount
      omega
  · exact reason

/-! ## Who attends to a client -/

/-- A cancellation of the parent context will close the client, or it is closed already. -/
def Attended (client : Client) (state : Ownership) : Prop :=
  client ∈ state.watching ∨ state.registered = some client ∨
    state.closing.guards.once (.client client) ≠ .idle ∨
    .enter (.client client) ∈ state.closing.pending

/-- The close of the client has been asked for. -/
theorem Attended.of_asked
    (asked : state.closing.guards.once (.client client) ≠ .idle ∨
      .enter (.client client) ∈ state.closing.pending) : state.Attended client := by
  rcases asked with hbegun | hpending
  · exact Or.inr (Or.inr (Or.inl hbegun))
  · exact Or.inr (Or.inr (Or.inr hpending))

private theorem enter_spawn (closing : Closing Guard) (guard : Guard) :
    .enter guard ∈ (closing.spawn guard).pending := by
  simp [Closing.spawn, Closing.pending]

private theorem asked_spawn {closing : Closing Guard} {spawned : Guard}
    (asked : closing.guards.once guard ≠ .idle ∨ .enter guard ∈ closing.pending) :
    (closing.spawn spawned).guards.once guard ≠ .idle ∨
      .enter guard ∈ (closing.spawn spawned).pending := by
  rcases asked with hbegun | hpending
  · exact Or.inl hbegun
  · right
    simp only [Closing.spawn, Closing.pending, List.flatten_append, List.mem_append]
    exact Or.inl hpending

theorem stable_attended (client : Client) :
    Stable Around fun state => state.Sound ∧ state.Attended client := by
  rintro before after ⟨sound, attended⟩ moves
  refine ⟨stable_sound sound moves, ?_⟩
  cases moves with
  | goroutine goes =>
      cases goes with
      | callback ended armed =>
          rcases attended with hwatched | hregistered | hasked
          · exact Or.inl hwatched
          · exact Or.inr (Or.inl hregistered)
          · exact .of_asked (asked_spawn hasked)
      | @registered other cancelled registered =>
          rcases attended with hwatched | hregistered | hasked
          · exact Or.inl hwatched
          · rw [registered] at hregistered
            cases hregistered
            exact .of_asked (Or.inr (enter_spawn _ _))
          · exact .of_asked (asked_spawn hasked)
      | @wakes other cancelled waits =>
          rcases attended with hwatched | hregistered | hasked
          · by_cases hclient : client = other
            · subst hclient
              exact .of_asked (Or.inr (enter_spawn _ _))
            · exact Or.inl ((List.mem_erase_of_ne hclient).mpr hwatched)
          · exact Or.inr (Or.inl hregistered)
          · exact .of_asked (asked_spawn hasked)
      | @retires other closed waits =>
          rcases attended with hwatched | hregistered | hasked
          · by_cases hclient : client = other
            · -- its `done` channel is closed, so its close has begun
              subst hclient
              refine .of_asked (Or.inl fun idle => ?_)
              have hcount := sound.firsts (.client client)
              rw [idle] at hcount
              simp only [Once.started] at hcount
              omega
            · exact Or.inl ((List.mem_erase_of_ne hclient).mpr hwatched)
          · exact Or.inr (Or.inl hregistered)
          · exact .of_asked hasked
      | @closes op closing step =>
          rcases attended with hwatched | hregistered | hasked
          · exact Or.inl hwatched
          · by_cases hstops : op = .first (.handle client)
            · -- `s.stop()` is followed by the close of the client
              subst hstops
              exact .of_asked (Or.inr (step.asks_below rfl))
            · refine Or.inr (Or.inl ?_)
              simp only [hregistered]
              rcases op with _ | ⟨_ | owner⟩ | _ | _ <;> simp only [stopped]
              rw [if_neg]
              rintro ⟨⟩
              exact hstops rfl
          · exact .of_asked (step.asked hasked)
  | cancelled live err => exact attended
  | ended live err => exact attended
  | asks held =>
      rcases attended with hwatched | hregistered | hasked
      · exact Or.inl hwatched
      · exact Or.inr (Or.inl hregistered)
      · exact .of_asked (asked_spawn hasked)

theorem Attended.beginning (attended : state.Attended client)
    {others : List (List (CloseOp Guard))} (place : state.closing.threads = [] :: others) :
    (state.beginning guard others).Attended client := by
  rcases attended with hwatched | hregistered | hbegun | hpending
  · exact Or.inl hwatched
  · exact Or.inr (Or.inl hregistered)
  · exact .of_asked (Or.inl hbegun)
  · refine .of_asked (Or.inr ?_)
    simp only [Closing.pending, place, List.flatten_cons, List.nil_append] at hpending
    exact List.mem_append_right _ hpending

end Ownership

end OpsUp.SshClient
