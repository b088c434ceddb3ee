import OpsUp.SftpClient.Files
import OpsUp.SshClient.OwnershipRules

/-!
# Transports have an owner

A call that sets a connection up ends in one of two ways.  With an error,
everything it has opened or taken over is closed.  With a client, nothing is closed
that was not asked for, the setup timer is out of the way, and the client is
attended to: a cancellation of the parent context closes it, as a `Close` does, and
every transport once.
-/

namespace OpsUp.SshClient

open OpsUp.Interaction Program Relation Ownership

variable {ssh : SSH} {holders : List Guard} {opened : List Transport} {client : Client}
  {state before after : Ownership}

/-- Between the steps of a call that has opened some transports and has closed none directly. -/
structure During (transports : List Transport) (outside : List Guard) (state : Ownership) :
    Prop where
  sound : state.Sound
  idle : state.Idle
  opened : state.opened = transports
  dropped : state.dropped = []
  holders : state.holders = outside
  asked : state.asked = true → outside ≠ []

theorem During.later (during : During opened holders before) (later : Later before after)
    (sound : after.Sound) (idle : after.Idle) : During opened holders after where
  sound := sound
  idle := idle
  opened := later.opened.trans during.opened
  dropped := later.dropped.trans during.dropped
  holders := later.holders.trans during.holders
  asked := fun h => by
    rcases later.asked h with hasked | hholders
    · exact during.asked hasked
    · exact during.holders ▸ hholders

/-- The timers, the contexts and the watchers are of no concern to it. -/
theorem During.frame (during : During opened holders before)
    (closing : after.closing = before.closing) (kept : after.opened = before.opened)
    (dropped : after.dropped = before.dropped) (held : after.holders = before.holders)
    (asked : after.asked = before.asked) : During opened holders after := by
  refine ⟨?_, ?_, kept.trans during.opened, dropped.trans during.dropped,
    held.trans during.holders, fun h => during.asked (asked.symm.trans h)⟩
  · change after.closing.Sound closeLayers
    rw [closing]
    exact during.sound
  · rw [Idle, closing]
    exact during.idle

/-- The call has opened one more. -/
theorem During.open (during : During opened holders state) (transport : Transport) :
    During (transport :: opened) holders { state with opened := transport :: state.opened } :=
  ⟨during.sound, during.idle, congrArg (transport :: ·) during.opened, during.dropped,
    during.holders, during.asked⟩

theorem stable_during (opened : List Transport) (holders : List Guard) :
    Stable Around (During opened holders) := fun _ _ during moves =>
  during.later moves.later (stable_sound during.sound moves) (stable_idle during.idle moves)

theorem stable_ended : Stable Around fun state => state.setup ≠ none :=
  fun _ _ ended moves => moves.later.setup ended

/-- A client that has been returned. -/
structure Delivered (holders : List Guard) (client : Client) (state : Ownership) : Prop where
  during : During client.transports holders state
  disarmed : state.Disarmed
  attended : state.Attended client

theorem stable_delivered (holders : List Guard) (client : Client) :
    Stable Around (Delivered holders client) := fun _ _ delivered moves =>
  ⟨stable_during _ _ delivered.during moves, stable_disarmed delivered.disarmed moves,
    (stable_attended client ⟨delivered.during.sound, delivered.attended⟩ moves).2⟩

/-- How a call may end: with a client, or with an error and nothing left. -/
def Settled (holders : List Guard) : Dialed → Ownership → Prop
  | (some client, none) => Delivered holders client
  | (none, some _) => Safe
  | _ => fun _ => False

theorem stable_settled (holders : List Guard) (result : Dialed) :
    Stable Around (Settled holders result) := by
  rcases result with ⟨_ | client, _ | err⟩
  · exact fun _ _ holds _ => holds
  · exact stable_safe
  · exact stable_delivered holders client
  · exact fun _ _ holds _ => holds

/-! ## Commands -/

theorem Settled.disarm {result : Dialed} (settled : Settled holders result state) :
    Settled holders result { state with armed := none } := by
  rcases result with ⟨_ | client, _ | err⟩
  · exact settled
  · exact ⟨settled.sound, settled.idle, settled.released⟩
  · have hduring := settled.during
    exact ⟨hduring.frame rfl rfl rfl rfl rfl, ⟨rfl, settled.disarmed.2⟩, settled.attended⟩
  · exact settled

/-- The setup may end once the call is settled. -/
theorem Settled.ends {result : Dialed} (settled : Settled holders result state)
    (setup : Option String) : Settled holders result { state with setup := setup } := by
  rcases result with ⟨_ | client, _ | err⟩
  · exact settled
  · exact ⟨settled.sound, settled.idle, settled.released⟩
  · have hduring := settled.during
    exact ⟨hduring.frame rfl rfl rfl rfl rfl, settled.disarmed, settled.attended⟩
  · exact settled

/-- What `stop()` tells: the timer was in time or it was not. -/
def AfterStop (opened : List Transport) (holders : List Guard) : Bool → Ownership → Prop
  | false => fun state => During opened holders state ∧ state.setup ≠ none
  | true => fun state => During opened holders state ∧ state.Disarmed

theorem afterStop (during : During opened holders state) (armed : Armed client state) :
    AfterStop opened holders state.armed.isSome { state with armed := none } := by
  have hduring : During opened holders { state with armed := none } :=
    during.frame rfl rfl rfl rfl rfl
  rcases armed with ⟨hnone, hended⟩ | ⟨hsome, hspared⟩
  · rw [hnone]
    exact ⟨hduring, hended⟩
  · rw [hsome]
    exact ⟨hduring, rfl, hspared⟩

/-- What `setup.Err()` tells of a setup that may go on. -/
def AfterErr (opened : List Transport) (holders : List Guard) : Option String → Ownership → Prop
  | some _ => fun state => During opened holders state ∧ state.setup ≠ none
  | none => fun state => During opened holders state ∧ state.Disarmed

theorem afterErr (holds : During opened holders state ∧ state.Disarmed) :
    AfterErr opened holders state.setup state := by
  cases hsetup : state.setup with
  | none => exact holds
  | some err => exact ⟨holds.1, by rw [hsetup]; nofun⟩

/-- What `setup.Err()` tells of a setup that has been given up. -/
def AfterGivenUp : Option String → Ownership → Prop
  | some _ => Safe
  | none => fun _ => False

theorem afterGivenUp (holds : Safe state ∧ state.setup ≠ none) :
    AfterGivenUp state.setup state := by
  cases hsetup : state.setup with
  | none => exact absurd hsetup holds.2
  | some err => exact holds.1

/-- What dialling has opened. -/
def AfterDial (transport : Transport) (opened : List Transport) (holders : List Guard)
    (phase : Ownership → Prop) : Except String Unit → Ownership → Prop
  | .error _ => fun state => During opened holders state ∧ phase state
  | .ok () => fun state => During (transport :: opened) holders state ∧ phase state

/-- Closing a client that owns all transports leaves nothing behind. -/
theorem safe_of_closes {guard : Guard} (sound : before.Sound)
    (opened : before.opened = client.transports) (closes : before.Closes guard after)
    (closed : after.Sound → after.closing.guards.once guard = .done →
      after.closing.guards.once (.client client) = .done) : Safe after := by
  obtain ⟨sound, idle, later, done⟩ := closes.spec sound
  refine ⟨sound, idle, fun transport hmem => Or.inr ?_⟩
  rw [later.opened, opened] at hmem
  exact closed_of_done sound (closed sound done) transport hmem

theorem stable_spared_during (opened : List Transport) (holders : List Guard) :
    Stable Around fun state => During opened holders state ∧ state.Disarmed :=
  (stable_during opened holders).and stable_disarmed

theorem stable_armed_during (opened : List Transport) (holders : List Guard) (client : Client) :
    Stable Around fun state => During opened holders state ∧ Armed client state :=
  (stable_during opened holders).and (stable_armed client)

theorem stable_ended_during (opened : List Transport) (holders : List Guard) :
    Stable Around fun state => During opened holders state ∧ state.setup ≠ none :=
  (stable_during opened holders).and stable_ended

/-! ## `Dial` -/

section Dial

/-- `fail`, when everything has been closed already. -/
theorem triple_fail (context err : String) :
    Triple (owned ssh) Around Safe (fail context err) (Settled holders) := by
  apply Triple.call (fun _ => Safe) stable_safe
  · rintro state reply after safe ⟨rfl, rfl⟩
    exact safe
  · exact fun reply => Triple.ret (stable_settled holders (none, some _)) fun _ => id

/-- Giving a client up: the setup has ended, so there is an error to return. -/
theorem triple_abandon :
    Triple (owned ssh) Around
      (fun state => During client.transports holders state ∧ state.setup ≠ none)
      (abandon client) (Settled holders) := by
  apply Triple.call (fun _ state => Safe state ∧ state.setup ≠ none)
    (stable_ended_during _ _)
  · rintro state reply after ⟨during, ended⟩ closes
    obtain ⟨-, -, later, -⟩ := closes.spec during.sound
    exact ⟨safe_of_closes during.sound during.opened closes fun _ => id, later.setup ended⟩
  · intro _
    apply Triple.call AfterGivenUp (stable_safe.and stable_ended)
    · rintro state reply after holds ⟨rfl, rfl⟩
      exact afterGivenUp holds
    · intro reply
      cases reply with
      | none => exact fun _ _ holds => holds.elim
      | some err => exact Triple.ret (stable_settled holders (none, some err)) fun _ => id

/-- The end of a successful setup: the timer has been stopped in time, or it is given up. -/
theorem triple_settle (client armed : Client) :
    Triple (owned ssh) Around
      (fun state => During client.transports holders state ∧ Armed armed state)
      (settle client) (Settled holders) := by
  apply Triple.call (AfterStop client.transports holders) (stable_armed_during _ _ _)
  · rintro state reply after ⟨during, harmed⟩ ⟨rfl, rfl⟩
    exact afterStop during harmed
  · intro stopped
    cases stopped with
    | false => exact triple_abandon
    | true =>
        apply Triple.call (AfterErr client.transports holders)
          (stable_spared_during _ _)
        · rintro state reply after holds ⟨rfl, rfl⟩
          exact afterErr holds
        · intro reply
          cases reply with
          | some err => exact triple_abandon
          | none =>
              apply Triple.call (fun _ => Delivered holders client)
                (stable_spared_during _ _)
              · rintro state reply after ⟨during, hdisarmed⟩ rfl
                exact ⟨during.frame rfl rfl rfl rfl rfl, hdisarmed, Or.inl List.mem_cons_self⟩
              · exact fun _ => Triple.ret (stable_settled holders (some client, none)) fun _ => id

/-- The timer is armed for the body and stopped after it. -/
theorem triple_guarded (client : Client) {body : Net ssh Dialed}
    (triple : Triple (owned ssh) Around
      (fun state => During opened holders state ∧ Armed client state) body (Settled holders)) :
    Triple (owned ssh) Around (fun state => During opened holders state ∧ state.Disarmed)
      (guarded client body) (Settled holders) := by
  apply Triple.call (fun _ state => During opened holders state ∧ Armed client state)
    (stable_spared_during _ _)
  · rintro state reply after ⟨during, hdisarmed⟩ rfl
    exact ⟨during.frame rfl rfl rfl rfl rfl, Or.inr ⟨rfl, hdisarmed.2⟩⟩
  · intro _
    apply triple.bind
    intro result
    apply Triple.call (fun _ => Settled holders result) (stable_settled _ _)
    · rintro state reply after settled ⟨rfl, rfl⟩
      exact settled.disarm
    · exact fun _ => Triple.ret (stable_settled _ _) fun _ => id

theorem triple_withSetup {body : Net ssh Dialed}
    (triple : Triple (owned ssh) Around
      (fun state => During opened holders state ∧ state.Disarmed) body (Settled holders)) :
    Triple (owned ssh) Around (fun state => During opened holders state ∧ state.Disarmed)
      (withSetup body) (Settled holders) := by
  apply Triple.call (fun _ state => During opened holders state ∧ state.Disarmed)
    (stable_spared_during _ _)
  · rintro state reply after ⟨during, hdisarmed⟩ rfl
    exact ⟨during.frame rfl rfl rfl rfl rfl, hdisarmed⟩
  · intro _
    apply triple.bind
    intro result
    apply Triple.call (fun _ => Settled holders result) (stable_settled _ _)
    · rintro state reply after settled rfl
      exact settled.ends _
    · exact fun _ => Triple.ret (stable_settled _ _) fun _ => id

/-- Closing the client of a failed step leaves an error behind. -/
theorem triple_handshake_failed (context err : String) :
    Triple (owned ssh) Around
      (fun state => During client.transports holders state ∧ Armed client state)
      (.call (.close client) fun _ => fail context err) (Settled holders) := by
  apply Triple.call (fun _ => Safe) (stable_armed_during _ _ _)
  · rintro state reply after ⟨during, -⟩ closes
    exact safe_of_closes during.sound during.opened closes fun _ => id
  · exact fun _ => triple_fail _ _

theorem triple_handshake (client : Client) (address : String) (config : ClientConfig ssh) :
    Triple (owned ssh) Around
      (fun state => During client.transports holders state ∧ Armed client state)
      (handshake client address config) (Settled holders) := by
  apply Triple.call (fun _ state =>
    During client.transports holders state ∧ Armed client state) (stable_armed_during _ _ _)
  · rintro state reply after holds rfl
    exact holds
  · intro reply
    cases reply with
    | error err => exact triple_handshake_failed _ err
    | ok key => exact triple_settle client client

/-- A call that has opened nothing leaves nothing behind. -/
theorem During.safe (during : During [] holders state) : Safe state := by
  refine ⟨during.sound, during.idle, fun transport hopened => ?_⟩
  rw [during.opened] at hopened
  cases hopened

theorem triple_dial (cfg : Config) :
    Triple (owned ssh) Around (fun state => During [] holders state ∧ state.Disarmed)
      (dial ssh cfg) (Settled holders) := by
  unfold dial
  cases makeConfig ssh cfg with
  | error err => exact Triple.ret (stable_settled holders (none, some err)) fun _ holds => holds.1.safe
  | ok config =>
      apply triple_withSetup
      apply Triple.call (AfterDial cfg.tcp [] holders Disarmed)
        (stable_spared_during _ _)
      · rintro state (err | _) after holds rfl
        · exact holds
        · obtain ⟨during, hdisarmed⟩ := holds
          exact ⟨during.open _, hdisarmed⟩
      · rintro (err | _)
        · exact Triple.ret (stable_settled holders (none, some _)) fun _ holds => holds.1.safe
        · exact triple_guarded cfg.client (triple_handshake cfg.client cfg.address config)

/-! ## `DialViaJump` -/

/-- The failed handshake with the target: the jump host and the channel are closed. -/
theorem triple_target_failed {jumpClient : Client} {conn : Transport} (context err : String) :
    Triple (owned ssh) Around
      (fun state => During (conn :: jumpClient.transports) holders state ∧ Armed jumpClient state)
      (.call (.close jumpClient) fun _ => .call (.closeConn conn) fun _ => fail context err)
      (Settled holders) := by
  apply Triple.call (fun _ state => (state.Sound ∧ state.Idle) ∧
    state.opened = conn :: jumpClient.transports ∧
      state.closing.guards.once (.client jumpClient) = .done) (stable_armed_during _ _ _)
  · rintro state reply after ⟨during, -⟩ closes
    obtain ⟨sound, idle, later, done⟩ := closes.spec during.sound
    exact ⟨⟨sound, idle⟩, later.opened.trans during.opened, done⟩
  · intro _
    apply Triple.call (fun _ => Safe)
    · rintro before after ⟨⟨sound, idle⟩, hopened, hdone⟩ moves
      exact ⟨⟨stable_sound sound moves, stable_idle idle moves⟩,
        moves.later.opened.trans hopened, moves.later.done _ hdone⟩
    · rintro state reply after ⟨⟨sound, idle⟩, hopened, hdone⟩ rfl
      refine ⟨sound, idle, fun transport hmem => ?_⟩
      rcases List.mem_cons.mp (hopened ▸ hmem) with rfl | hjump
      · exact Or.inl List.mem_cons_self
      · exact Or.inr (closed_of_done sound hdone transport hjump)
    · exact fun _ => triple_fail _ _

theorem triple_tunnel {jumpClient : Client} (address : String) (config : ClientConfig ssh) :
    Triple (owned ssh) Around
      (fun state => During jumpClient.transports holders state ∧ Armed jumpClient state)
      (tunnel jumpClient address config) (Settled holders) := by
  apply Triple.call (AfterDial (.channel jumpClient.transport address)
    jumpClient.transports holders (Armed jumpClient)) (stable_armed_during _ _ _)
  · rintro state (err | _) after holds rfl
    · exact holds
    · obtain ⟨during, harmed⟩ := holds
      exact ⟨during.open _, harmed⟩
  · rintro (err | _)
    · exact triple_handshake_failed _ err
    · have hphase := stable_armed_during (.channel jumpClient.transport address ::
        jumpClient.transports) holders jumpClient
      apply Triple.call (fun _ state => During (.channel jumpClient.transport address ::
        jumpClient.transports) holders state ∧ Armed jumpClient state) hphase
      · rintro state reply after holds rfl
        exact holds
      · intro reply
        cases reply with
        | error err => exact triple_target_failed _ err
        | ok key => exact triple_settle ⟨_, some jumpClient⟩ jumpClient

theorem triple_dialViaJump (jump target : Config) :
    Triple (owned ssh) Around (fun state => During [] holders state ∧ state.Disarmed)
      (dialViaJump ssh jump target) (Settled holders) := by
  unfold dialViaJump
  cases makeConfig ssh target with
  | error err =>
      refine Triple.ret (stable_settled holders (none, some err)) ?_
      exact fun _ holds => holds.1.safe
  | ok config =>
      apply (triple_dial jump).bind
      rintro ⟨_ | jumpClient, _ | err⟩
      · exact fun _ _ holds => holds.elim
      · exact Triple.ret (stable_settled holders (none, some _)) fun _ => id
      · have hsetup : Triple (owned ssh) Around
            (fun state => During jumpClient.transports holders state ∧ state.Disarmed)
            (withSetup (guarded jumpClient (tunnel jumpClient target.address config)))
            (Settled holders) :=
          triple_withSetup (triple_guarded jumpClient (triple_tunnel target.address config))
        exact hsetup.weaken fun _ delivered => ⟨delivered.during, delivered.disarmed⟩
      · exact fun _ _ holds => holds.elim

end Dial

/-! ## `NewClient` and `NewSession` -/

section Handles

/-- How taking a client over may end. -/
def HandedOver (holders : List Guard) (client : Client) (result : Handed) : Ownership → Prop :=
  fun state => Settled holders (result.1.map Handle.client, result.2) state ∧
    ∀ handle, result.1 = some handle → handle.client = client

theorem stable_handedOver (holders : List Guard) (client : Client) (result : Handed) :
    Stable Around (HandedOver holders client result) :=
  fun _ _ holds moves => ⟨stable_settled holders _ holds.1 moves, holds.2⟩

/-- A failed setup of a handle. -/
theorem triple_handle_error (err : String) :
    Triple (ownership ssh) Around Safe (.ret (none, some err)) (HandedOver holders client) :=
  Triple.ret (stable_handedOver holders client (none, some err)) fun _ safe => ⟨safe, nofun⟩

/-- Closing the handle closes the client as well. -/
theorem triple_abandonHandle :
    Triple (ownership ssh) Around
      (fun state => During client.transports holders state ∧ state.setup ≠ none)
      (abandonHandle client) (HandedOver holders client) := by
  apply Triple.call (fun _ state => Safe state ∧ state.setup ≠ none) (stable_ended_during _ _)
  · rintro state reply after ⟨during, ended⟩ closes
    obtain ⟨-, -, later, -⟩ := closes.spec during.sound
    refine ⟨safe_of_closes during.sound during.opened closes fun sound done => ?_, later.setup ended⟩
    exact sound.below _ done (.client client) rfl
  · intro _
    apply Triple.call AfterGivenUp (stable_safe.and stable_ended)
    · rintro state reply after holds ⟨rfl, rfl⟩
      exact afterGivenUp holds
    · intro reply
      cases reply with
      | none => exact fun _ _ holds => holds.elim
      | some err => exact triple_handle_error err

theorem stable_attended_during (opened : List Transport) (holders : List Guard) (client : Client)
    {phase : Ownership → Prop} (stable : Stable Around phase) :
    Stable Around fun state => (During opened holders state ∧ phase state) ∧
      state.Attended client :=
  fun _ _ holds moves => ⟨⟨stable_during _ _ holds.1.1 moves, stable holds.1.2 moves⟩,
    (stable_attended client ⟨holds.1.1.sound, holds.2⟩ moves).2⟩

theorem triple_settleHandle :
    Triple (ownership ssh) Around
      (fun state => During client.transports holders state ∧ Armed client state)
      (settleHandle client) (HandedOver holders client) := by
  have habandon : Triple (ownership ssh) Around
      (fun state => During client.transports holders state ∧ state.setup ≠ none)
      (abandonHandle client) (HandedOver holders client) := triple_abandonHandle
  apply Triple.call (fun _ state => (During client.transports holders state ∧
    Armed client state) ∧ state.Attended client) (stable_armed_during _ _ _)
  · rintro state reply after ⟨during, harmed⟩ rfl
    exact ⟨⟨during.frame rfl rfl rfl rfl rfl, harmed⟩, Or.inr (Or.inl rfl)⟩
  · intro _
    apply Triple.call (fun stopped state => AfterStop client.transports holders stopped state ∧
      state.Attended client) (stable_attended_during _ _ _ (stable_armed client))
    · rintro state reply after ⟨⟨during, harmed⟩, hattended⟩ ⟨rfl, rfl⟩
      exact ⟨afterStop during harmed, hattended⟩
    · intro stopped
      cases stopped with
      | false => exact habandon.weaken fun _ holds => holds.1
      | true =>
          apply Triple.call (fun reply state => AfterErr client.transports holders reply state ∧
            state.Attended client) (stable_attended_during _ _ _ stable_disarmed)
          · rintro state reply after ⟨holds, hattended⟩ ⟨rfl, rfl⟩
            exact ⟨afterErr holds, hattended⟩
          · intro reply
            cases reply with
            | some err => exact habandon.weaken fun _ holds => holds.1
            | none =>
                refine Triple.ret (stable_handedOver holders client (some ⟨client⟩, none)) ?_
                rintro state ⟨⟨during, hdisarmed⟩, hattended⟩
                refine ⟨⟨during, hdisarmed, hattended⟩, fun handle hhandle => ?_⟩
                rw [← Option.some.inj hhandle]

/-- The setup of a handle begins with its timer armed and ends with it stopped. -/
theorem triple_takingOver {body : Owning ssh Handed}
    (triple : Triple (ownership ssh) Around
      (fun state => During client.transports holders state ∧ Armed client state) body
      (HandedOver holders client)) :
    Triple (ownership ssh) Around
      (fun state => During client.transports holders state ∧ state.Disarmed)
      (takingOver client body) (HandedOver holders client) := by
  apply Triple.call (fun _ state => During client.transports holders state ∧ state.Disarmed)
    (stable_spared_during _ _)
  · rintro state reply after ⟨during, hdisarmed⟩ rfl
    exact ⟨during.frame rfl rfl rfl rfl rfl, hdisarmed⟩
  · intro _
    apply Triple.call (fun _ state => During client.transports holders state ∧ Armed client state)
      (stable_spared_during _ _)
    · rintro state reply after ⟨during, hdisarmed⟩ rfl
      exact ⟨during.frame rfl rfl rfl rfl rfl, Or.inr ⟨rfl, hdisarmed.2⟩⟩
    · intro _
      apply triple.bind
      intro result
      apply Triple.call (fun _ => HandedOver holders client result) (stable_handedOver _ _ _)
      · rintro state reply after holds ⟨rfl, rfl⟩
        exact ⟨holds.1.disarm, holds.2⟩
      · intro _
        apply Triple.call (fun _ => HandedOver holders client result) (stable_handedOver _ _ _)
        · rintro state reply after holds rfl
          exact ⟨holds.1.ends _, holds.2⟩
        · exact fun _ => Triple.ret (stable_handedOver _ _ _) fun _ => id

/-- A client that has been taken over, whatever has become of it. -/
structure Taken (client : Client) (state : Ownership) : Prop where
  sound : state.Sound
  opened : state.opened = client.transports

theorem stable_taken (client : Client) : Stable Around (Taken client) := fun _ _ taken moves =>
  ⟨stable_sound taken.sound moves, moves.later.opened.trans taken.opened⟩

/-- The client is closed and the error of the setup, if it has ended, is returned. -/
theorem triple_handle_failed {error : Option String → String} :
    Triple (ownership ssh) Around (Taken client)
      (.call (.inl (.close client)) fun _ => .call (.inl .setupErr) fun setupErr =>
        .ret (none, some (error setupErr))) (HandedOver holders client) := by
  apply Triple.call (fun _ => Safe) (stable_taken client)
  · rintro state reply after taken closes
    exact safe_of_closes taken.sound taken.opened closes fun _ => id
  · intro _
    apply Triple.call (fun _ => Safe) stable_safe
    · rintro state reply after safe ⟨rfl, rfl⟩
      exact safe
    · exact fun _ => triple_handle_error _

theorem triple_newClient :
    Triple (ownership ssh) Around
      (fun state => During client.transports holders state ∧ state.Disarmed)
      (SftpClient.newClient ssh client) (HandedOver holders client) := by
  apply triple_takingOver
  apply Triple.call (fun _ state => During client.transports holders state ∧ Armed client state)
    (stable_armed_during _ _ _)
  · rintro state reply after holds rfl
    exact holds
  · rintro (err | _)
    · exact triple_handle_failed.weaken fun _ holds => ⟨holds.1.sound, holds.1.opened⟩
    · exact triple_settleHandle

/-- What `openSession` leaves of the client. -/
def AfterOpen (holders : List Guard) (client : Client) : Except String Unit → Ownership → Prop
  | .error _ => Taken client
  | .ok () => fun state => During client.transports holders state ∧ Armed client state

theorem stable_afterOpen (holders : List Guard) (client : Client) (result : Except String Unit) :
    Stable Around (AfterOpen holders client result) := by
  cases result with
  | error err => exact stable_taken client
  | ok _ => exact stable_armed_during _ _ _

theorem triple_failSession (err : String) :
    Triple (ownership ssh) Around
      (fun state => During client.transports holders state ∧ Armed client state)
      (failSession client err) (AfterOpen holders client) := by
  apply Triple.call (fun _ => Taken client) (stable_armed_during _ _ _)
  · rintro state reply after ⟨during, -⟩ closes
    obtain ⟨sound, -, later, -⟩ := closes.spec during.sound
    exact ⟨sound, later.opened.trans during.opened⟩
  · intro _
    apply Triple.call (fun _ => Taken client) (stable_taken client)
    · rintro state reply after taken rfl
      exact taken
    · exact fun _ => Triple.ret (stable_afterOpen holders client (.error err)) fun _ => id

/-- A request on the session, with what follows it. -/
theorem triple_request {command : SessionCommand} {next : command.Reply → Owning ssh (Except String Unit)}
    (quiet : ∀ {state reply after}, sessionOwned state command reply after → after = state)
    (continues : ∀ reply, Triple (ownership ssh) Around
      (fun state => During client.transports holders state ∧ Armed client state) (next reply)
      (AfterOpen holders client)) :
    Triple (ownership ssh) Around
      (fun state => During client.transports holders state ∧ Armed client state)
      (.call (.inr command) next) (AfterOpen holders client) := by
  apply Triple.call (fun _ state => During client.transports holders state ∧ Armed client state)
    (stable_armed_during _ _ _)
  · rintro state reply after holds answer
    rw [quiet answer]
    exact holds
  · exact continues

theorem triple_orFail {context : String} {rest : Owning ssh (Except String Unit)}
    (triple : Triple (ownership ssh) Around
      (fun state => During client.transports holders state ∧ Armed client state) rest
      (AfterOpen holders client)) (reply : Except String Unit) :
    Triple (ownership ssh) Around
      (fun state => During client.transports holders state ∧ Armed client state)
      (orFail client context rest reply) (AfterOpen holders client) := by
  cases reply with
  | error err => exact triple_failSession _
  | ok _ => exact triple

theorem triple_openSession (cols rows : Int) :
    Triple (ownership ssh) Around
      (fun state => During client.transports holders state ∧ Armed client state)
      (openSession client cols rows) (AfterOpen holders client) := by
  apply triple_request id
  rintro (err | _)
  · refine Triple.ret (stable_afterOpen holders client (.error _)) ?_
    exact fun _ holds => ⟨holds.1.sound, holds.1.opened⟩
  · apply triple_request id
    apply triple_orFail
    apply triple_request id
    apply triple_orFail
    apply triple_request id
    apply triple_orFail
    apply triple_request id
    apply triple_orFail
    apply triple_request id
    apply triple_orFail
    exact Triple.ret (stable_afterOpen holders client (.ok ())) fun _ => id

theorem triple_newSession (cols rows : Int) :
    Triple (ownership ssh) Around
      (fun state => During client.transports holders state ∧ state.Disarmed)
      (newSession ssh client cols rows) (HandedOver holders client) := by
  apply triple_takingOver
  apply (triple_openSession cols rows).bind
  rintro (err | _)
  · exact triple_handle_failed
  · exact triple_settleHandle

end Handles

/-! ## After the call -/

/-- What the goroutines of a connection can still do. -/
def cost (client : Client) : Nat := 4 * client.depth + 5

def work (state : Ownership) : Nat :=
  state.closing.work closeLayers + (state.armed.map cost).getD 0 +
    (state.registered.map cost).getD 0 + (state.watching.map cost).sum

theorem Ownership.Goroutine.work_lt (goes : Goroutine before after) : work after < work before := by
  have hspawn : ∀ client, (before.closing.spawn (Guard.client client)).work closeLayers + 1 =
      before.closing.work closeLayers + cost client :=
    fun client => congrArg (· + 1) (Closing.work_spawn (Guard.client client))
  have herase : ∀ client, client ∈ before.watching →
      (before.watching.map cost).sum =
        cost client + ((before.watching.erase client).map cost).sum := by
    intro client waits
    exact ((List.perm_cons_erase waits).map cost).sum_nat
  cases goes with
  | @callback client ended armed =>
      have h := hspawn client
      simp only [work, armed, Option.map_some, Option.getD_some, Option.map_none,
        Option.getD_none]
      omega
  | @registered client cancelled registered =>
      have h := hspawn client
      simp only [work, registered, Option.map_some, Option.getD_some, Option.map_none,
        Option.getD_none]
      omega
  | @wakes client cancelled waits =>
      have h := hspawn client
      have hwatching := herase client waits
      simp only [work]
      omega
  | @retires client closed waits =>
      have hwatching := herase client waits
      simp only [work, cost] at hwatching ⊢
      omega
  | @closes op closing step =>
      have hstep := step.work_lt
      have hstopped : ((stopped before.registered op).map cost).getD 0 ≤
          (before.registered.map cost).getD 0 := by
        rcases op with _ | ⟨_ | owner⟩ | _ | _ <;> simp only [stopped, Nat.le_refl]
        split
        · exact Nat.zero_le _
        · exact Nat.le_refl _
      simp only [work]
      omega

/-- What a returned client keeps to, whoever closes it. -/
structure Held (client : Client) (state : Ownership) : Prop where
  sound : state.Sound
  dropped : state.dropped = []
  disarmed : state.Disarmed
  attended : state.Attended client

theorem stable_held (client : Client) : Stable Around (Held client) := fun _ _ held moves =>
  ⟨stable_sound held.sound moves, moves.later.dropped.trans held.dropped,
    stable_disarmed held.disarmed moves,
    (stable_attended client ⟨held.sound, held.attended⟩ moves).2⟩

/-- The caller may close what it has been given, among everything else. -/
inductive Afterwards (guard : Guard) (state : Ownership) : Ownership → Prop where
  | around {after : Ownership} (moves : Around state after) : Afterwards guard state after
  | closes {after : Ownership} (closes : Closes guard { state with asked := true } after) :
      Afterwards guard state after

theorem stable_held_afterwards (guard : Guard) (client : Client) :
    Stable (Afterwards guard) (Held client) := by
  intro before after held step
  cases step with
  | around moves => exact stable_held client held moves
  | closes closes =>
      obtain ⟨others, place, moves, -⟩ := closes
      have begun : Held client (({ before with asked := true } : Ownership).beginning guard others) :=
        ⟨Sound.beginning held.sound place, held.dropped,
          ⟨held.disarmed.1, Or.inr (Or.inr rfl)⟩, Attended.beginning held.attended place⟩
      exact (stable_held client).many begun moves

/-- Each client of the family has closed its transport, once. -/
def ClosedOnce (client : Client) (state : Ownership) : Prop :=
  ∀ owned ∈ client.family, state.closing.guards.lasts (.client owned) = 1

theorem closedOnce_of_done (sound : state.Sound)
    (done : state.closing.guards.once (.client client) = .done) : ClosedOnce client state :=
  fun owned hfamily => Closing.Sound.lasts_of_done sound (family_done sound done owned hfamily)

/-- When every goroutine has come to its end after a cancellation, the client is closed. -/
theorem Held.closed_at_rest (held : Held client state) (cancelled : state.parent ≠ none)
    (rest : ∀ after, ¬ Goroutine state after) : ClosedOnce client state := by
  have hpending : state.closing.pending = [] := by
    by_contra hbusy
    obtain ⟨op, closing, step⟩ := Closing.Sound.pending_steps held.sound hbusy
    exact rest _ (.closes step)
  have hdone : state.closing.guards.once (.client client) = .done := by
    rcases held.attended with hwatched | hregistered | hbegun | henter
    · exact absurd (.wakes cancelled hwatched) (rest _)
    · exact absurd (.registered cancelled hregistered) (rest _)
    · have hrunning : state.closing.guards.once (.client client) ≠ .running :=
        Closing.Sound.not_running held.sound hpending
      cases honce : state.closing.guards.once (.client client) with
      | idle => exact absurd honce hbegun
      | running => exact absurd honce hrunning
      | done => rfl
    · rw [hpending] at henter
      cases henter
  exact closedOnce_of_done held.sound hdone

/-- A cancellation of the parent context closes the client, in whatever order the
goroutines go on. -/
theorem Held.cancelled (held : Held client state) (cancelled : state.parent ≠ none) :
    Inevitable Goroutine (ClosedOnce client) state := by
  apply inevitable_of_work (fun state => Held client state ∧ state.parent ≠ none) work
  · exact fun holds goes => ⟨stable_held client holds.1 (.goroutine goes),
      goes.later.parent holds.2⟩
  · exact fun _ goes => goes.work_lt
  · exact fun holds rest => holds.1.closed_at_rest holds.2 rest
  · exact ⟨held, cancelled⟩

/-! ## Whole calls -/

/-- The calls that take transports over. -/
inductive Call where
  | dial (cfg : Config)
  | dialViaJump (jump target : Config)
  | newClient (owner : Client)
  | newSession (client : Client) (cols rows : Int)

namespace Call

/-- The client with which a handle has been made. -/
def unhanded (result : Handed) : Dialed := (result.1.map Handle.client, result.2)

def program (ssh : SSH) : Call → Owning ssh Dialed
  | .dial cfg => (SshClient.dial ssh cfg).inl
  | .dialViaJump jump target => (SshClient.dialViaJump ssh jump target).inl
  | .newClient owner => unhanded <$> SftpClient.newClient ssh owner
  | .newSession client cols rows => unhanded <$> SshClient.newSession ssh client cols rows

/-- What is handed over to the call. -/
def given : Call → List Transport
  | .dial _ => []
  | .dialViaJump _ _ => []
  | .newClient owner => owner.transports
  | .newSession client _ _ => client.transports

/-- What the caller closes afterwards. -/
def guard : Call → Client → Guard
  | .dial _, client => .client client
  | .dialViaJump _ _, client => .client client
  | .newClient _, client => .handle client
  | .newSession _ _ _, client => .handle client

/-- A call begins with what it is given, which is closed, or being closed, for a reason
only. -/
structure Begins (call : Call) (state : Ownership) : Prop where
  during : During call.given state.holders state
  disarmed : state.Disarmed

end Call

/-- A returned client, in every later state. -/
structure Kept (guard : Guard) (client : Client) (state : Ownership) : Prop where
  reason : ∀ transport, state.Closed transport → state.parent ≠ none ∨ state.asked = true
  once : ∀ owned ∈ client.family, state.closing.guards.lasts (.client owned) ≤ 1
  closed : ∀ after, state.Closes guard after → ClosedOnce client after
  cancelled : state.parent ≠ none → Inevitable Goroutine (ClosedOnce client) state

/-- What has become of all transports when a call returns. -/
structure Owns (call : Call) (start : Ownership) (result : Dialed) (final : Ownership) :
    Prop where
  answered : result.1 = none ↔ result.2 ≠ none
  opened : call.given ⊆ final.opened
  released : result.1 = none → ∀ transport ∈ final.opened, final.Closed transport
  owned : ∀ client, result.1 = some client → final.opened = client.transports
  spared : ∀ client, result.1 = some client → ∀ transport, final.Closed transport →
    final.parent ≠ none ∨ (final.asked = true ∧ start.holders ≠ [])
  kept : ∀ client, result.1 = some client → ∀ later,
    ReflTransGen (Afterwards (call.guard client)) final later →
      Kept (call.guard client) client later

theorem Held.kept {guard : Guard} (held : Held client state)
    (closes : ∀ {after : Ownership}, after.Sound → after.closing.guards.once guard = .done →
      after.closing.guards.once (.client client) = .done) : Kept guard client state where
  reason := fun _ closed => held.disarmed.2.reason held.sound held.dropped closed
  once := fun owned _ => Closing.Sound.lasts_le_one held.sound (.client owned)
  closed := by
    intro after hcloses
    obtain ⟨sound, -, -, done⟩ := hcloses.spec held.sound
    exact closedOnce_of_done sound (closes sound done)
  cancelled := held.cancelled

/-- Closing what the caller has been given closes the client. -/
theorem Call.guard_closes (call : Call) {after : Ownership} (sound : after.Sound)
    (done : after.closing.guards.once (call.guard client) = .done) :
    after.closing.guards.once (.client client) = .done := by
  cases call with
  | dial cfg => exact done
  | dialViaJump jump target => exact done
  | newClient owner => exact sound.below _ done (.client client) rfl
  | newSession taken cols rows => exact sound.below _ done (.client client) rfl

/-- No command takes a transport off the list of those that were opened. -/
theorem opened_grows {command : (owning ssh).Command} {reply : (owning ssh).Reply command}
    (answer : ownership ssh before command reply after) : before.opened ⊆ after.opened := by
  have hcloses : ∀ guard, before.Closes guard after → before.opened ⊆ after.opened := by
    rintro guard ⟨others, -, moves, -⟩
    rw [(later_of_moves moves).opened]
    exact List.Subset.refl _
  rcases command with command | command
  · cases command with
    | contextErr | setupErr | stop =>
        obtain ⟨-, rfl⟩ := answer
        exact List.Subset.refl _
    | withTimeout | cancel | afterFunc | newClientConn | watch | closeConn =>
        obtain rfl := answer
        exact List.Subset.refl _
    | dialContext address =>
        cases reply with
        | error err =>
            obtain rfl := answer
            exact List.Subset.refl _
        | ok _ =>
            obtain rfl := answer
            exact List.subset_cons_self _ _
    | dialChannel client address =>
        cases reply with
        | error err =>
            obtain rfl := answer
            exact List.Subset.refl _
        | ok _ =>
            obtain rfl := answer
            exact List.subset_cons_self _ _
    | close client => exact hcloses _ answer
  · cases command with
    | closeHandle client => exact hcloses _ answer
    | _ =>
        obtain rfl := answer
        exact List.Subset.refl _

theorem amid_opened {α : Type} {program rest : Owning ssh α} {start final : Ownership}
    {events : List (Event (owning ssh))}
    (run : Amid (ownership ssh) Around program start events rest final) :
    start.opened ⊆ final.opened := by
  induction run with
  | refl => exact List.Subset.refl _
  | move moved _ ih => exact moved.later.opened ▸ ih
  | call answer _ ih => exact List.Subset.trans (opened_grows answer) ih

theorem Call.triple (call : Call) :
    Triple (ownership ssh) Around (fun state => During call.given holders state ∧ state.Disarmed)
      (call.program ssh) (Settled holders) := by
  cases call with
  | dial cfg => exact (triple_dial cfg).inl id
  | dialViaJump jump target => exact (triple_dialViaJump jump target).inl id
  | newClient owner =>
      apply triple_newClient.bind
      exact fun result => Triple.ret (stable_settled holders (unhanded result)) fun _ => And.left
  | newSession client cols rows =>
      apply (triple_newSession cols rows).bind
      exact fun result => Triple.ret (stable_settled holders (unhanded result)) fun _ => And.left

/--
However a call is interrupted: with an error, all transports it opened or was given are
closed; with a client, they are owned by it, unclosed unless the parent context was
cancelled or somebody outside closed it, and closed once after a `Close` or a
cancellation.
-/
theorem transport_ownership {call : Call} {start final : Ownership} {result : Dialed}
    {events : List (Event (owning ssh))} (begins : call.Begins start)
    (run : Amid (ownership ssh) Around (call.program ssh) start events (.ret result) final) :
    Owns call start result final := by
  have settled : Settled start.holders result final :=
    call.triple.returns ⟨begins.during, begins.disarmed⟩ run
  have hopened : call.given ⊆ final.opened := begins.during.opened ▸ amid_opened run
  rcases result with ⟨_ | client, _ | err⟩
  · exact settled.elim
  · refine ⟨⟨fun _ => nofun, fun _ => rfl⟩, hopened, fun _ => ?_, nofun, nofun, nofun⟩
    exact settled.released.closed settled.sound
  · have held : Held client final :=
      ⟨settled.during.sound, settled.during.dropped, settled.disarmed, settled.attended⟩
    refine ⟨⟨nofun, fun h => absurd rfl h⟩, hopened, nofun, ?_, ?_, ?_⟩
    · rintro _ ⟨⟩
      exact settled.during.opened
    · rintro _ ⟨⟩ transport hclosed
      rcases held.disarmed.2.reason held.sound held.dropped hclosed with hparent | hasked
      · exact Or.inl hparent
      · exact Or.inr ⟨hasked, settled.during.asked hasked⟩
    · rintro _ ⟨⟩ later moves
      have hlater := (stable_held_afterwards (call.guard client) client).many held moves
      exact hlater.kept fun sound done => call.guard_closes sound done
  · exact settled.elim

/-! ## A call that succeeds -/

/-- Every key is the same. -/
def unitSSH : SSH where
  PublicKey := Unit
  Signer := Unit
  fingerprintSHA256 := fun _ => ""
  parsePrivateKey := fun _ => .ok ()

def gatewayConfig : Config where
  host := "gateway"
  port := 22
  username := "root"
  authType := "password"
  privateKey := []
  password := [0]
  hostKey := ""

/-- Nothing has happened yet. -/
def untouched : Ownership where
  parent := none
  setup := none
  armed := none
  registered := none
  watching := []
  holders := []
  asked := false
  opened := []
  dropped := []
  closing := ⟨⟨fun _ => .idle, fun _ => 0, fun _ => 0⟩, [[]]⟩

theorem untouched_begins {call : Call} (nothing : call.given = []) : call.Begins untouched := by
  have hclosing : untouched.closing.Untouched := ⟨rfl, fun _ => rfl⟩
  have hsound : untouched.Sound := hclosing.sound fun _ => ⟨rfl, rfl⟩
  exact ⟨⟨hsound, ⟨[], rfl⟩, nothing.symm, rfl, rfl, nofun⟩, rfl, Or.inl hclosing⟩

/-- The only thread that is closing a client goes on. -/
theorem around_closing (state : Ownership) {guards later : Guards Guard} {op : CloseOp Guard}
    {pushed : List (CloseOp Guard)} (kept : stopped state.registered op = state.registered)
    (advances : Advances closeLayers guards op later pushed) :
    Around { state with closing := ⟨guards, [[op]]⟩ }
      { state with closing := ⟨later, [pushed]⟩ } := by
  have step : Closing.Step closeLayers ⟨guards, [[op]]⟩ op ⟨later, [] ++ (pushed ++ []) :: []⟩ :=
    .step rfl advances
  rw [List.append_nil, List.nil_append] at step
  have goes : Around { state with closing := ⟨guards, [[op]]⟩ } _ := .goroutine (.closes step)
  rwa [kept] at goes

/-- The client of a direct connection is closed, with nothing else going on. -/
theorem exists_closes (state : Ownership) (transport : Transport)
    (only : state.closing.threads = [[]])
    (idle : state.closing.guards.once (.client ⟨transport, none⟩) = .idle) :
    ∃ closing, state.Closes (.client ⟨transport, none⟩) { state with closing := closing } := by
  let guard : Guard := .client ⟨transport, none⟩
  have path := ReflTransGen.single (around_closing state rfl (.begin idle))
    |>.tail (around_closing state rfl (.first guard))
    |>.tail (around_closing state rfl (.last guard))
    |>.tail (around_closing state rfl (.leave guard))
  exact ⟨_, [], only, path, [], rfl⟩

theorem armed_reply (state : Ownership) (client : Client) : ownership unitSSH state
    (.inl (.afterFunc client)) () { state with armed := some client } := rfl

theorem stop_reply (state : Ownership) : ownership unitSSH state (.inl .stop)
    state.armed.isSome { state with armed := none } := ⟨rfl, rfl⟩

theorem cancel_reply (state : Ownership) : ownership unitSSH state (.inl .cancel) ()
    { state with setup := state.setup <|> some errCanceled } := rfl

/-- The gateway has been dialled and the call cancelled. -/
def gatewayCancelled : Ownership :=
  { untouched with
    parent := some errCanceled
    setup := some errCanceled
    armed := some gatewayConfig.client
    opened := [gatewayConfig.tcp] }

/-- The dial is cancelled while the handshake is under way. -/
theorem gateway_interrupted : ∃ events final, Amid (ownership unitSSH) Around
    ((Call.dial gatewayConfig).program unitSSH) untouched events
    (.ret (none, some "ssh handshake gateway:22: context canceled")) final ∧
      gatewayConfig.tcp ∈ final.opened := by
  obtain ⟨closing, hcloses⟩ := exists_closes gatewayCancelled gatewayConfig.tcp rfl rfl
  have begun : ownership unitSSH untouched (.inl .withTimeout) () untouched := rfl
  have socket : ownership unitSSH untouched (.inl (.dialContext "gateway:22")) (.ok ())
      { untouched with opened := [gatewayConfig.tcp] } := rfl
  have broken : ∀ config : ClientConfig unitSSH, ownership unitSSH gatewayCancelled
      (.inl (.newClientConn gatewayConfig.tcp "gateway:22" config)) (.error "EOF")
      gatewayCancelled := fun _ => rfl
  have closed : ownership unitSSH gatewayCancelled (.inl (.close gatewayConfig.client)) ()
      { gatewayCancelled with closing := closing } := hcloses
  have ended : ∀ state : Ownership, ownership unitSSH state (.inl .setupErr) state.setup state :=
    fun _ => ⟨rfl, rfl⟩
  have run : ∃ events, Amid (ownership unitSSH) Around
      ((Call.dial gatewayConfig).program unitSSH) untouched events
      (.ret (none, some "ssh handshake gateway:22: context canceled"))
      { gatewayCancelled with closing := closing, armed := none } := by
    apply Amid.exists_call begun
    apply Amid.exists_call socket
    apply Amid.exists_call (armed_reply _ _)
    apply Amid.exists_move (.cancelled rfl errCanceled)
    apply Amid.exists_move (.ended rfl errCanceled)
    apply Amid.exists_call (broken _)
    apply Amid.exists_call closed
    apply Amid.exists_call (ended _)
    apply Amid.exists_call (stop_reply _)
    apply Amid.exists_call (cancel_reply _)
    exact ⟨[], .refl _ _⟩
  obtain ⟨events, run⟩ := run
  exact ⟨events, _, run, List.mem_singleton_self _⟩

def targetConfig : Config := { gatewayConfig with host := "target" }

/-- The target behind the gateway. -/
def targetClient : Client := ⟨.channel gatewayConfig.tcp "target:22", some gatewayConfig.client⟩

/-- Both connections are watched, and their setups are over. -/
def targetDialled : Ownership :=
  { untouched with
    setup := some errCanceled
    watching := [targetClient, gatewayConfig.client]
    opened := [targetClient.transport, gatewayConfig.tcp] }

theorem target_dialled : ∃ events, Amid (ownership unitSSH) Around
    ((Call.dialViaJump gatewayConfig targetConfig).program unitSSH) untouched events
    (.ret (some targetClient, none)) targetDialled := by
  have live : ∀ state : Ownership, ownership unitSSH state (.inl .setupErr) state.setup state :=
    fun _ => ⟨rfl, rfl⟩
  have begun : ∀ state : Ownership, ownership unitSSH state (.inl .withTimeout) ()
      { state with setup := state.parent } := fun _ => rfl
  have socket : ownership unitSSH untouched (.inl (.dialContext "gateway:22")) (.ok ())
      { untouched with opened := [gatewayConfig.tcp] } := rfl
  have channel : ∀ state : Ownership, ownership unitSSH state
      (.inl (.dialChannel gatewayConfig.client "target:22")) (.ok ())
      { state with opened := targetClient.transport :: state.opened } := fun _ => rfl
  have shaken : ∀ (state : Ownership) (transport : Transport) (address : String)
      (config : ClientConfig unitSSH), ownership unitSSH state
        (.inl (.newClientConn transport address config)) (.ok ()) state :=
    fun _ _ _ _ => rfl
  have watched : ∀ (state : Ownership) (client : Client), ownership unitSSH state
      (.inl (.watch client)) () { state with watching := client :: state.watching } :=
    fun _ _ => rfl
  apply Amid.exists_call (begun _)
  apply Amid.exists_call socket
  apply Amid.exists_call (armed_reply _ _)
  apply Amid.exists_call (shaken _ _ _ _)
  apply Amid.exists_call (stop_reply _)
  apply Amid.exists_call (live _)
  apply Amid.exists_call (watched _ _)
  apply Amid.exists_call (stop_reply _)
  apply Amid.exists_call (cancel_reply _)
  -- the gateway is up, and the target is dialled through it
  apply Amid.exists_call (begun _)
  apply Amid.exists_call (armed_reply _ _)
  apply Amid.exists_call (channel _)
  apply Amid.exists_call (shaken _ _ _ _)
  apply Amid.exists_call (stop_reply _)
  apply Amid.exists_call (live _)
  apply Amid.exists_call (watched _ _)
  apply Amid.exists_call (stop_reply _)
  apply Amid.exists_call (cancel_reply _)
  exact ⟨[], .refl _ _⟩

/-- A route through a jump host is owned as a whole; a dial that is cancelled in its
handshake leaves nothing open. -/
theorem transport_ownership_gateway :
    Owns (.dialViaJump gatewayConfig targetConfig) untouched (some targetClient, none)
        targetDialled ∧
      ∃ final, Owns (.dial gatewayConfig) untouched
          (none, some "ssh handshake gateway:22: context canceled") final ∧
        gatewayConfig.tcp ∈ final.opened ∧ final.Closed gatewayConfig.tcp := by
  obtain ⟨events, run⟩ := target_dialled
  obtain ⟨broken, final, interrupted, hopened⟩ := gateway_interrupted
  have owns := transport_ownership (untouched_begins rfl) interrupted
  exact ⟨transport_ownership (untouched_begins rfl) run, final, owns, hopened,
    owns.released rfl _ hopened⟩

end OpsUp.SshClient
