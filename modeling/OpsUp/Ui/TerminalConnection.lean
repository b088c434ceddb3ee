import OpsUp.Interaction.Transition
import OpsUp.Ui.InputFrames
import Mathlib.Logic.Function.Basic

/-!
# Terminal connections of the client

`useTerminalConnection` opens a socket and a terminal for each call of `connect` and
closes those of the call before.  The closures of one call read and write their own
variables and what the component shares; the closures of earlier calls live on in timers
and event handlers, so any of them may still be called.
-/

namespace OpsUp.Ui

open OpsUp.Go OpsUp.Js OpsUp.Interaction

/-! ## The variables of a connection -/

inductive ConnectionStatus where
  | connecting
  | connected
  | error
  deriving DecidableEq

/-- `ws.readyState` -/
inductive ReadyState where
  | connecting
  | opened
  | closing
  | closed
  deriving DecidableEq

/-- A socket only moves on. -/
def ReadyState.rank : ReadyState → Nat
  | .connecting => 0
  | .opened => 1
  | .closing => 2
  | .closed => 3

/-- `ws.close()` -/
def ReadyState.close : ReadyState → ReadyState
  | .connecting => .closing
  | .opened => .closing
  | .closing => .closing
  | .closed => .closed

/-- The callbacks that `later` is given. -/
inductive Delayed where
  | pump
  | sendResize
  | fitAndResize
  deriving DecidableEq

/-- The refs and the state of the component. -/
structure Shared where
  generation : Nat
  status : ConnectionStatus
  errorMsg : JsString

/-- The variables of one call of `connect`, its socket and its terminal. -/
structure Connection where
  id : Nat
  serverId : Int
  connected : Bool
  failed : Bool
  queue : List Bytes
  queueIndex : Nat
  pumpTimer : Option Nat
  resizeTimer : Option Nat
  /-- the timers that are set -/
  timers : List (Nat × Delayed)
  /-- the next timer handle -/
  nextTimer : Nat
  readyState : ReadyState
  /-- `ws.close` has been called -/
  closed : Bool
  /-- the arguments of `ws.send` -/
  sent : List Bytes
  /-- the input that was queued -/
  accepted : List JsString
  cols : Nat
  rows : Nat
  /-- the arguments of `term.write` -/
  written : List Bytes

/-- The frames that are still to be sent. -/
def Connection.queued (c : Connection) : List Bytes := c.queue.drop c.queueIndex

theorem Connection.queued_ne_nil_iff {c : Connection} :
    c.queued ≠ [] ↔ c.queueIndex < c.queue.length := by
  rw [queued, ne_eq, List.drop_eq_nil_iff, Nat.not_le]

/-- The stdin frames given to `ws.send`. -/
def Connection.stdinSent (c : Connection) : List Bytes :=
  c.sent.filter fun frame => frame.head? = some 0x00

def Connection.opened (id : Nat) (serverId : Int) : Connection where
  id := id
  serverId := serverId
  connected := false
  failed := false
  queue := []
  queueIndex := 0
  pumpTimer := none
  resizeTimer := none
  timers := []
  nextTimer := 1
  readyState := .connecting
  closed := false
  sent := []
  accepted := []
  cols := 80
  rows := 24
  written := []

/-- What the closures of a connection read and write. -/
structure Scope extends Shared, Connection

/-- `current()` -/
def Scope.current (s : Scope) : Prop := s.generation = s.id

instance (s : Scope) : Decidable s.current := inferInstanceAs (Decidable (s.generation = s.id))

/-! ## The browser -/

/-- What the socket and the layout answer during one callback. -/
structure Answers where
  /-- `ws.bufferedAmount`, after so many calls of `send` -/
  bufferedAmount : Nat → Nat
  /-- whether that call of `send` returns -/
  sends : Nat → Bool
  /-- the new size that `fit` finds for the terminal -/
  fitted : Option (Nat × Nat)

/-- What a status frame says. -/
structure StatusFrame where
  connected : Option Bool
  message : JsString

structure Decoders where
  /-- `new TextDecoder().decode` -/
  textDecode : Bytes → JsString
  /-- `JSON.parse` -/
  jsonParse : JsString → Option StatusFrame

/-- `event.data` -/
inductive MessageData where
  | text (data : JsString)
  | binary (data : Bytes)

/-! ## The closures -/

def inputLost : JsString := jsString "；连接中断，部分输入可能未送达，请检查后重试"

def inputFailed : JsString := jsString "发送输入失败"

def sizeFailed : JsString := jsString "发送终端尺寸失败"

def sessionEnded : JsString := jsString "会话已结束"

def disconnected : JsString := jsString "SSH 连接已断开"

def socketFailed : JsString := jsString "WebSocket 连接失败"

def notLoggedIn : JsString := jsString "未登录，请重新登录"

/-- The amount from which on the socket is given no more frames. -/
def bufferLimit : Nat := 256 * 1024

namespace Scope

/-- The new timer is `s.nextTimer`. -/
def later (task : Delayed) (s : Scope) : Scope :=
  { s with timers := s.timers ++ [(s.nextTimer, task)], nextTimer := s.nextTimer + 1 }

/-- `timers.delete`, and `clearTimeout` when the timer is still set. -/
def deleteTimer (timer : Nat) (s : Scope) : Scope :=
  { s with timers := s.timers.filter fun entry => entry.1 ≠ timer }

def fail (message : JsString) (bufferedAmount : Nat) (s : Scope) : Scope :=
  if ¬ s.current ∨ s.failed then s
  else
    { s with
      failed := true
      connected := false
      queue := []
      queueIndex := 0
      errorMsg :=
        if s.queueIndex < s.queue.length ∨ bufferedAmount > 0 then message ++ inputLost
        else message
      status := .error
      readyState := s.readyState.close
      closed := true }

/-- The condition under which `pump`, `send` and `sendResize` go on. -/
def sendable (s : Scope) : Prop := s.current ∧ s.connected ∧ s.readyState = .opened

instance (s : Scope) : Decidable s.sendable :=
  inferInstanceAs (Decidable (s.current ∧ s.connected ∧ s.readyState = .opened))

/-- The loop of `pump` over the queued frames: how many are given to `send`, after the
first `count`, and whether the last call threw. -/
def handOver (answers : Answers) : Nat → List Bytes → Nat × Bool
  | count, [] => (count, false)
  | count, _ :: rest =>
      if answers.bufferedAmount count < bufferLimit then
        if answers.sends count then handOver answers (count + 1) rest
        else (count + 1, true)
      else (count, false)

theorem handOver_le (answers : Answers) (count : Nat) (frames : List Bytes) :
    (handOver answers count frames).1 ≤ count + frames.length := by
  induction frames generalizing count with
  | nil => exact Nat.le_refl _
  | cons frame rest ih =>
      have hrest := ih (count + 1)
      rw [handOver, List.length_cons]
      split
      · split
        · omega
        · dsimp only
          omega
      · dsimp only
        omega

def pump (answers : Answers) (s : Scope) : Scope :=
  let s := { s with pumpTimer := none }
  if ¬ s.sendable then s
  else
    let (count, threw) := handOver answers 0 s.queued
    let s := { s with queueIndex := s.queueIndex + count, sent := s.sent ++ s.queued.take count }
    if threw then s.fail inputFailed (answers.bufferedAmount count)
    else if s.queueIndex < s.queue.length then
      { s.later .pump with pumpTimer := some s.nextTimer }
    else { s with queue := [], queueIndex := 0 }

/-- The first `count` queued frames have been given to the socket. -/
def advance (count : Nat) (s : Scope) : Scope :=
  { s with queueIndex := s.queueIndex + count, sent := s.sent ++ s.queued.take count }

/-- Such a `pump` hands over some frames and then fails, sets the timer again, or empties the
queue. -/
theorem pump_of_sendable {answers : Answers} {s t : Scope} (sendable : s.sendable)
    (advanced : t = { s with pumpTimer := none }.advance (handOver answers 0 s.queued).1) :
    s.pump answers =
      if (handOver answers 0 s.queued).2 then
        t.fail inputFailed (answers.bufferedAmount (handOver answers 0 s.queued).1)
      else if t.queueIndex < t.queue.length then
        { t.later .pump with pumpTimer := some t.nextTimer }
      else { t with queue := [], queueIndex := 0 } := by
  rw [advanced]
  exact if_neg (Classical.not_not.mpr sendable)

theorem pump_of_not_sendable {answers : Answers} {s : Scope} (blocked : ¬ s.sendable) :
    s.pump answers = { s with pumpTimer := none } := if_pos blocked

/-- All that `pump` does, or it does nothing. -/
theorem pump_cases (answers : Answers) (s : Scope) :
    (¬ s.sendable ∧ s.pump answers = { s with pumpTimer := none }) ∨
      s.sendable ∧ ∃ count t, count ≤ s.queued.length ∧
        t = { s with pumpTimer := none }.advance count ∧
        ((∃ bufferedAmount, s.pump answers = t.fail inputFailed bufferedAmount) ∨
          (t.queued ≠ [] ∧
            s.pump answers = { t.later .pump with pumpTimer := some t.nextTimer }) ∨
          (t.queued = [] ∧ s.pump answers = { t with queue := [], queueIndex := 0 })) := by
  by_cases hsendable : s.sendable
  · refine .inr ⟨hsendable, (handOver answers 0 s.queued).1,
      { s with pumpTimer := none }.advance (handOver answers 0 s.queued).1, ?_, rfl, ?_⟩
    · have hle := handOver_le answers 0 s.queued
      rwa [Nat.zero_add] at hle
    · rw [pump_of_sendable hsendable rfl]
      split
      · exact .inl ⟨_, rfl⟩
      · split
        · next hwaiting => exact .inr (.inl ⟨Connection.queued_ne_nil_iff.mpr hwaiting, rfl⟩)
        · next hdrained =>
            have hqueued := mt Connection.queued_ne_nil_iff.mp hdrained
            exact .inr (.inr ⟨Classical.not_not.mp hqueued, rfl⟩)
  · exact .inl ⟨hsendable, pump_of_not_sendable hsendable⟩

/-- `sendRef.current` -/
def send (data : JsString) (answers : Answers) (s : Scope) : Scope :=
  if ¬ s.sendable then s
  else
    let s := { s with queue := s.queue ++ inputFrames data, accepted := s.accepted ++ [data] }
    if s.pumpTimer = none then s.pump answers else s

def sendResize (answers : Answers) (s : Scope) : Scope :=
  if ¬ s.sendable then s
  else
    let s := { s with sent := s.sent ++ [resizeFrame s.cols s.rows] }
    if answers.sends 0 then s else s.fail sizeFailed (answers.bufferedAmount 1)

/-- The subscription to `term.onResize`. -/
def onResize (s : Scope) : Scope :=
  if ¬ s.current then s
  else
    let s :=
      match s.resizeTimer with
      | none => s
      | some timer => s.deleteTimer timer
    { s.later .sendResize with resizeTimer := some s.nextTimer }

/-- `doFit`: a terminal that takes a new size says so at once. -/
def doFit (fitted : Option (Nat × Nat)) (s : Scope) : Scope :=
  match fitted with
  | none => s
  | some (cols, rows) => { s with cols := cols, rows := rows }.onResize

def fitAndResize (answers : Answers) (s : Scope) : Scope :=
  (s.doFit answers.fitted).sendResize answers

def onmessage (decoders : Decoders) (data : MessageData) (answers : Answers) (s : Scope) :
    Scope :=
  if ¬ s.current ∨ s.failed then s
  else
    match data with
    | .text _ => s
    | .binary [] => s
    | .binary (kind :: payload) =>
        if kind = 0x00 ∨ kind = 0x01 then { s with written := s.written ++ [payload] }
        else if kind = 0x02 then
          s.fail (decoders.textDecode payload) (answers.bufferedAmount 0)
        else if kind = 0x03 then
          match decoders.jsonParse (decoders.textDecode payload) with
          | none => s
          | some value =>
              if value.connected = some false then
                s.fail (if value.message = [] then sessionEnded else value.message)
                  (answers.bufferedAmount 0)
              else s
        else if kind = 0x04 then
          let s := { s with connected := true, status := .connected }
          ((s.fitAndResize answers).later .fitAndResize).later .fitAndResize
        else s

/-- What `later` calls when the time has come. -/
def fire (timer : Nat) (task : Delayed) (answers : Answers) (s : Scope) : Scope :=
  let s := s.deleteTimer timer
  if ¬ s.current then s
  else
    match task with
    | .pump => s.pump answers
    | .sendResize => s.sendResize answers
    | .fitAndResize => s.fitAndResize answers

end Scope

/-! ## Callbacks -/

/-- What can happen to a connection. -/
inductive Callback where
  /-- the socket moves on -/
  | readyState (next : ReadyState)
  | onmessage (data : MessageData)
  | onclose
  | onerror
  | timer (timer : Nat) (task : Delayed)
  | animationFrame
  /-- the resize observer -/
  | observed
  | onData (data : JsString)
  | onResize (cols rows : Nat)

/-- A timer of the current connection fires only while it is set; of an earlier connection
any callback may be called. -/
def Scope.step (decoders : Decoders) (answers : Answers) (s : Scope) : Callback → Option Scope
  | .readyState next =>
      if s.readyState.rank < next.rank then some { s with readyState := next } else none
  | .onmessage data => some (s.onmessage decoders data answers)
  | .onclose => some (s.fail disconnected (answers.bufferedAmount 0))
  | .onerror => some (s.fail socketFailed (answers.bufferedAmount 0))
  | .timer timer task =>
      if s.current ∧ (timer, task) ∉ s.timers then none else some (s.fire timer task answers)
  | .animationFrame => some (if s.current then s.doFit answers.fitted else s)
  | .observed => some (if s.current then s.fitAndResize answers else s)
  -- under `current()` the ref holds the `send` of this connection
  | .onData data => some (if s.current then s.send data answers else s)
  | .onResize cols rows => some { s with cols := cols, rows := rows }.onResize

theorem Scope.step_onData {decoders : Decoders} {answers : Answers} {s : Scope}
    {data : JsString} :
    s.step decoders answers (.onData data) = some (s.send data answers) := by
  by_cases hcurrent : s.current
  · rw [Scope.step, if_pos hcurrent]
  · have hblocked : ¬ s.sendable := fun hsendable => hcurrent hsendable.1
    rw [Scope.step, if_neg hcurrent, Scope.send, if_pos hblocked]

/-- All that a callback can do. -/
inductive Scope.Called (decoders : Decoders) (answers : Answers) (s : Scope) :
    Callback → Scope → Prop where
  | readyState {next : ReadyState} (forward : s.readyState.rank < next.rank) :
      Called decoders answers s (.readyState next) { s with readyState := next }
  | onmessage {data : MessageData} :
      Called decoders answers s (.onmessage data) (s.onmessage decoders data answers)
  | onclose :
      Called decoders answers s .onclose (s.fail disconnected (answers.bufferedAmount 0))
  | onerror :
      Called decoders answers s .onerror (s.fail socketFailed (answers.bufferedAmount 0))
  | timer {timer : Nat} {task : Delayed} (set : s.current → (timer, task) ∈ s.timers) :
      Called decoders answers s (.timer timer task) (s.fire timer task answers)
  | animationFrame :
      Called decoders answers s .animationFrame
        (if s.current then s.doFit answers.fitted else s)
  | observed :
      Called decoders answers s .observed (if s.current then s.fitAndResize answers else s)
  | onData {data : JsString} : Called decoders answers s (.onData data) (s.send data answers)
  | onResize {cols rows : Nat} :
      Called decoders answers s (.onResize cols rows) (s.doFit (some (cols, rows)))

theorem Scope.called_of_step {decoders : Decoders} {answers : Answers} {s t : Scope}
    {callback : Callback} (step : s.step decoders answers callback = some t) :
    Called decoders answers s callback t := by
  cases callback with
  | readyState next =>
      obtain ⟨hforward, hnext⟩ := Option.ite_none_right_eq_some.mp step
      exact Option.some.inj hnext ▸ .readyState hforward
  | onmessage data => exact Option.some.inj step ▸ .onmessage
  | onclose => exact Option.some.inj step ▸ .onclose
  | onerror => exact Option.some.inj step ▸ .onerror
  | timer timer task =>
      obtain ⟨hset, hnext⟩ := Option.ite_none_left_eq_some.mp step
      refine Option.some.inj hnext ▸ .timer fun hcurrent => ?_
      exact Classical.not_not.mp fun hmem => hset ⟨hcurrent, hmem⟩
  | animationFrame => exact Option.some.inj step ▸ .animationFrame
  | observed => exact Option.some.inj step ▸ .observed
  | onData data =>
      rw [Scope.step_onData] at step
      exact Option.some.inj step ▸ .onData
  | onResize cols rows => exact Option.some.inj step ▸ .onResize

/-! ## The hook -/

/-- The component; a connection is kept under the generation that opened it. -/
structure Hook extends Shared where
  connections : Nat → Option Connection
  /-- the connection whose `send` the ref holds -/
  sendRef : Option Nat
  /-- the connection whose clean-up the ref holds -/
  cleanupRef : Option Nat
  /-- the connection whose terminal `doFit` fits -/
  fitRef : Option Nat

inductive HookAction where
  /-- `connect`; the token and the container may be missing -/
  | connect (serverId : Int) (ready : Bool)
  /-- the clean-up of the effect, when the server changes or the component goes -/
  | cleanup
  /-- a callback of any connection, earlier ones included -/
  | callback (id : Nat) (callback : Callback) (answers : Answers)
  | sendShortcut (data : JsString) (answers : Answers)
  /-- `doFit` of an effect or of the visual viewport -/
  | fit (fitted : Option (Nat × Nat))

/-- What is answered during the action, if it calls a closure. -/
def HookAction.answers : HookAction → Answers
  | .callback _ _ answers => answers
  | .sendShortcut _ answers => answers
  | _ => ⟨fun _ => 0, fun _ => true, none⟩

def Connection.cleanup (c : Connection) : Connection :=
  { c with
    connected := false
    readyState := c.readyState.close
    closed := true
    timers := []
    queue := [] }

namespace Hook

def initial : Hook where
  generation := 0
  status := .connecting
  errorMsg := []
  connections := fun _ => none
  sendRef := none
  cleanupRef := none
  fitRef := none

/-- `cleanupRef.current()` -/
def cleanup (s : Hook) : Hook :=
  match s.cleanupRef with
  | none => s
  | some id =>
      { s with
        generation := s.generation + 1
        connections := Function.update s.connections id ((s.connections id).map .cleanup)
        sendRef := none
        cleanupRef := none
        fitRef := none }

def connect (serverId : Int) (ready : Bool) (s : Hook) : Hook :=
  let s := s.cleanup
  let id := s.generation + 1
  let s := { s with generation := id, status := .connecting, errorMsg := [] }
  if ready then
    { s with
      connections := Function.update s.connections id (some (.opened id serverId))
      sendRef := some id
      cleanupRef := some id
      fitRef := some id }
  else { s with status := .error, errorMsg := notLoggedIn }

/-- What a closure of a connection has changed. -/
def put (id : Nat) (scope : Scope) (s : Hook) : Hook :=
  { s with
    toShared := scope.toShared
    connections := Function.update s.connections id (some scope.toConnection) }

/-- A closure of a connection runs. -/
def within (id : Nat) (closure : Scope → Option Scope) (s : Hook) : Option Hook :=
  match s.connections id with
  | none => none
  | some c => (closure ⟨s.toShared, c⟩).map fun scope => s.put id scope

/-- A closure that a ref holds runs, if there is one. -/
def through (ref : Option Nat) (closure : Scope → Scope) (s : Hook) : Option Hook :=
  match ref with
  | none => some s
  | some id => s.within id fun scope => some (closure scope)

def step (decoders : Decoders) (s : Hook) : HookAction → Option Hook
  | .connect serverId ready => some (s.connect serverId ready)
  | .cleanup => some s.cleanup
  | .callback id callback answers => s.within id fun scope => scope.step decoders answers callback
  | .sendShortcut data answers => s.through s.sendRef (·.send data answers)
  | .fit fitted => s.through s.fitRef (·.doFit fitted)

theorem within_eq_some_iff {id : Nat} {closure : Scope → Option Scope} {s next : Hook} :
    s.within id closure = some next ↔
      ∃ c scope, s.connections id = some c ∧ closure ⟨s.toShared, c⟩ = some scope ∧
        s.put id scope = next := by
  unfold within
  cases hconnection : s.connections id with
  | none => simp
  | some c => simp [Option.map_eq_some_iff]

theorem put_self {id : Nat} {c : Connection} {s : Hook} (opened : s.connections id = some c) :
    s.put id ⟨s.toShared, c⟩ = s := by
  unfold put
  dsimp only
  rw [← opened, Function.update_eq_self]

/-- The callback that an action amounts to, and its connection. -/
def acts (s : Hook) : HookAction → Option (Nat × Callback)
  | .connect _ _ => none
  | .cleanup => none
  | .callback id callback _ => some (id, callback)
  | .sendShortcut data _ => s.sendRef.map fun id => (id, .onData data)
  | .fit none => none
  | .fit (some (cols, rows)) => s.fitRef.map fun id => (id, .onResize cols rows)

theorem step_acts {decoders : Decoders} {s next : Hook} {action : HookAction}
    (step : s.step decoders action = some next) :
    (s.acts action = none ∧
      ((∃ serverId ready, action = .connect serverId ready ∧ next = s.connect serverId ready) ∨
        next = s.cleanup ∨ next = s)) ∨
      ∃ id c callback scope, s.acts action = some (id, callback) ∧ s.connections id = some c ∧
        Scope.step decoders action.answers ⟨s.toShared, c⟩ callback = some scope ∧
        next = s.put id scope := by
  cases action with
  | connect serverId ready =>
      exact .inl ⟨rfl, .inl ⟨serverId, ready, rfl, (Option.some.inj step).symm⟩⟩
  | cleanup => exact .inl ⟨rfl, .inr (.inl (Option.some.inj step).symm)⟩
  | callback id callback answers =>
      dsimp only [Hook.step] at step
      obtain ⟨c, scope, hopened, hscope, rfl⟩ := within_eq_some_iff.mp step
      exact .inr ⟨id, c, callback, scope, rfl, hopened, hscope, rfl⟩
  | sendShortcut data answers =>
      dsimp only [Hook.step, through] at step
      split at step
      · next href =>
          refine .inl ⟨?_, .inr (.inr (Option.some.inj step).symm)⟩
          rw [acts, href, Option.map_none]
      · next id href =>
          obtain ⟨c, scope, hopened, hscope, rfl⟩ := within_eq_some_iff.mp step
          refine .inr ⟨id, c, .onData data, scope, ?_, hopened, ?_, rfl⟩
          · rw [acts, href, Option.map_some]
          · rw [Scope.step_onData]
            exact hscope
  | fit fitted =>
      dsimp only [Hook.step, through] at step
      rcases fitted with _ | ⟨cols, rows⟩
      · split at step
        · exact .inl ⟨rfl, .inr (.inr (Option.some.inj step).symm)⟩
        · obtain ⟨c, scope, hopened, hscope, rfl⟩ := within_eq_some_iff.mp step
          obtain rfl := Option.some.inj hscope
          exact .inl ⟨rfl, .inr (.inr (put_self hopened))⟩
      · split at step
        · next href =>
            refine .inl ⟨?_, .inr (.inr (Option.some.inj step).symm)⟩
            rw [acts, href, Option.map_none]
        · next id href =>
            obtain ⟨c, scope, hopened, hscope, rfl⟩ := within_eq_some_iff.mp step
            obtain rfl := Option.some.inj hscope
            refine .inr ⟨id, c, .onResize cols rows, _, ?_, hopened, rfl, rfl⟩
            rw [acts, href, Option.map_some]

/-- Apart from `connect` and the clean-up, all that happens is a callback of some
connection. -/
theorem step_cases {decoders : Decoders} {s next : Hook} {action : HookAction}
    (step : s.step decoders action = some next) :
    (∃ serverId ready, action = .connect serverId ready ∧ next = s.connect serverId ready) ∨
      next = s.cleanup ∨ next = s ∨
      ∃ id c callback answers scope, s.connections id = some c ∧
        Scope.step decoders answers ⟨s.toShared, c⟩ callback = some scope ∧
        next = s.put id scope := by
  rcases step_acts step with ⟨-, hconnect | hcleanup | hsame⟩ |
    ⟨id, c, callback, scope, -, hopened, hscope, hnext⟩
  · exact .inl hconnect
  · exact .inr (.inl hcleanup)
  · exact .inr (.inr (.inl hsame))
  · exact .inr (.inr (.inr ⟨id, c, callback, action.answers, scope, hopened, hscope, hnext⟩))

end Hook

end OpsUp.Ui
