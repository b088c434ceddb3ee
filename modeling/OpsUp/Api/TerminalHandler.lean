import OpsUp.Go.Strings
import OpsUp.Interaction.Transition
import Mathlib.Logic.Function.Basic

/-!
# Terminal sessions

`runTerminal` joins a browser and a remote shell: one goroutine reads the browser
into a bounded queue, one acts on the queue, two pump the output of the shell to the
browser, and one waits for both pumps.  Any of them may cancel the session.  A
goroutine that returns runs its deferred cancel with its last step.
-/

namespace OpsUp.Api

open OpsUp.Go OpsUp.Interaction

def msgTypeStdin : UInt8 := 0x00

def msgTypeResize : UInt8 := 0x01

def msgTypeStdout : UInt8 := 0x00

def msgTypeStderr : UInt8 := 0x01

def msgTypeError : UInt8 := 0x02

def msgTypeConnectd : UInt8 := 0x04

def maxTerminalMessage : Nat := 64 * 1024

def terminalInputQueue : Nat := 32

/-! ## What one message asks for -/

/-- The decoded body of a resize message. -/
structure Size where
  cols : Int
  rows : Int
  deriving DecidableEq

/-- `Session.Resize` up to its request, `WindowChange(rows, cols)`. -/
def resize (cols rows : Int) : Option (Int × Int) :=
  if cols < 1 ∨ rows < 1 ∨ cols > 1000 ∨ rows > 1000 then none else some (rows, cols)

/-- What the input goroutine does with a message. -/
inductive Dispatch where
  /-- `sess.Write` -/
  | write (data : Bytes)
  /-- `WindowChange` -/
  | windowChange (rows cols : Int)
  /-- return -/
  | refuse
  /-- `msg[0]` of an empty message -/
  | panics
  deriving DecidableEq

/-- The switch over `msg[0]`; `unmarshal` is `json.Unmarshal` into a size. -/
def dispatch (unmarshal : Bytes → Option Size) : Bytes → Dispatch
  | [] => .panics
  | kind :: payload =>
      if kind = msgTypeStdin then .write payload
      else if kind = msgTypeResize then
        match unmarshal payload with
        | none => .refuse
        | some size =>
            match resize size.cols size.rows with
            | none => .refuse
            | some (rows, cols) => .windowChange rows cols
      else .refuse

/-! ## The browser side: reader, queue and consumer -/

inductive MessageKind where
  | text
  | binary
  deriving DecidableEq

/-- `readTerminalInput`, between two of its operations. -/
inductive Reader where
  | reading
  /-- in the `select`, with a message to queue -/
  | offering (msg : Bytes)
  | returned
  deriving DecidableEq

/-- The goroutine that acts on the queue. -/
inductive Consumer where
  /-- not started yet -/
  | waiting
  /-- in the `select` -/
  | selecting
  /-- with a message from the queue -/
  | dispatching (msg : Bytes)
  /-- in a write or a window change -/
  | calling
  | returned
  | panicked
  deriving DecidableEq

structure Input where
  cancelled : Bool
  reader : Reader
  /-- the binary messages with content, as received -/
  received : List Bytes
  queue : List Bytes
  consumer : Consumer
  /-- the messages acted on -/
  acted : List Bytes
  /-- the arguments of `Session.Write` -/
  written : List Bytes
  /-- the arguments of `WindowChange` -/
  resized : List (Int × Int)

inductive InputAction where
  /-- `ReadMessage` delivers a message -/
  | receive (kind : MessageKind) (msg : Bytes)
  /-- `ReadMessage` fails -/
  | disconnect
  /-- the three branches of the reader's `select` -/
  | enqueue
  | notice
  | overflow
  /-- the consumer is started -/
  | start
  /-- the two branches of the consumer's `select` -/
  | take
  | stop
  | dispatch
  /-- a write or a window change returns -/
  | callReturns (ok : Bool)
  /-- the session is cancelled elsewhere -/
  | cancel

def Input.initial : Input where
  cancelled := false
  reader := .reading
  received := []
  queue := []
  consumer := .waiting
  acted := []
  written := []
  resized := []

/-- The consumer acts on a message. -/
def Input.act (s : Input) (msg : Bytes) : Dispatch → Input
  | .write data =>
      { s with acted := s.acted ++ [msg], written := s.written ++ [data], consumer := .calling }
  | .windowChange rows cols =>
      { s with acted := s.acted ++ [msg], resized := s.resized ++ [(rows, cols)],
               consumer := .calling }
  | .refuse => { s with acted := s.acted ++ [msg], consumer := .returned, cancelled := true }
  | .panics => { s with consumer := .panicked }

/-- One step of the browser side.  A `select` takes any branch that is ready, and the
default only when none is. -/
def Input.step (unmarshal : Bytes → Option Size) (s : Input) : InputAction → Option Input
  | .receive kind msg =>
      if s.reader ≠ .reading ∨ msg.length > maxTerminalMessage then none
      else if kind ≠ .binary ∨ msg = [] then some s
      else some { s with reader := .offering msg, received := s.received ++ [msg] }
  | .disconnect =>
      if s.reader = .reading then some { s with reader := .returned, cancelled := true } else none
  | .enqueue =>
      match s.reader with
      | .offering msg =>
          if s.queue.length < terminalInputQueue then
            some { s with reader := .reading, queue := s.queue ++ [msg] }
          else none
      | _ => none
  | .notice =>
      match s.reader with
      | .offering _ => if s.cancelled then some { s with reader := .returned } else none
      | _ => none
  | .overflow =>
      match s.reader with
      | .offering _ =>
          if s.queue.length < terminalInputQueue ∨ s.cancelled then none
          else some { s with reader := .returned, cancelled := true }
      | _ => none
  | .start => if s.consumer = .waiting then some { s with consumer := .selecting } else none
  | .take =>
      match s.consumer, s.queue with
      | .selecting, msg :: rest => some { s with consumer := .dispatching msg, queue := rest }
      | _, _ => none
  | .stop =>
      if s.consumer = .selecting ∧ s.cancelled then some { s with consumer := .returned } else none
  | .dispatch =>
      match s.consumer with
      | .dispatching msg => some (s.act msg (Api.dispatch unmarshal msg))
      | _ => none
  | .callReturns ok =>
      if s.consumer ≠ .calling then none
      else if ok then some { s with consumer := .selecting }
      else some { s with consumer := .returned, cancelled := true }
  | .cancel => some { s with cancelled := true }

/-! ## The shell side: the pumps -/

inductive OutputKind where
  | stdout
  | stderr
  deriving DecidableEq

def OutputKind.msgType : OutputKind → UInt8
  | .stdout => msgTypeStdout
  | .stderr => msgTypeStderr

/-- The error that a `Read` returns beside its data. -/
inductive ReadEnd where
  | more
  | eof
  | failed
  deriving DecidableEq

/-- `pumpTerminalOutput`, between two of its operations. -/
inductive Pump where
  | reading
  | sending (data : Bytes) (last : ReadEnd)
  | returned
  deriving DecidableEq

/-- An output stream of the shell and its pump; `read` counts the bytes that the pump
has taken. -/
structure Stream where
  produced : Bytes
  ended : Bool
  read : Nat
  pump : Pump

def Stream.initial : Stream := ⟨[], false, 0, .reading⟩

def Stream.unread (stream : Stream) : Bytes := stream.produced.drop stream.read

/-- Where a pump is after its write, and whether it cancels the session. -/
def afterRead : ReadEnd → Pump × Bool
  | .more => (.reading, false)
  | .eof => (.returned, false)
  | .failed => (.returned, true)

/-- `sendTypedMsg` up to the write. -/
def typedMsg (kind : UInt8) (payload : Bytes) : Bytes := kind :: payload

def outputBuffer : Nat := 8192

/-! ## The session -/

inductive Phase where
  | dialing
  | running
  | over
  deriving DecidableEq

structure Terminal where
  input : Input
  phase : Phase
  streams : OutputKind → Stream
  /-- what has been sent to the browser -/
  frames : List Bytes
  /-- the transports and the socket are closed -/
  closed : Bool

inductive Action where
  | input (action : InputAction)
  /-- the dial, the session and the first frame succeed -/
  | connect (greeting : Bytes)
  /-- one of them fails; an error frame may be sent -/
  | connectFails (report : Option Bytes)
  /-- the shell writes to a stream, or ends it -/
  | produce (kind : OutputKind) (data : Bytes)
  | finish (kind : OutputKind)
  /-- a pump reads `n` bytes -/
  | read (kind : OutputKind) (n : Nat) (last : ReadEnd)
  /-- a pump writes to the socket -/
  | send (kind : OutputKind) (ok : Bool)
  /-- both pumps have returned -/
  | drained
  | pingFails
  | parentCancelled
  /-- after `ctx.Done` -/
  | close

def Terminal.initial : Terminal where
  input := .initial
  phase := .dialing
  streams := fun _ => .initial
  frames := []
  closed := false

def Terminal.cancel (t : Terminal) : Terminal :=
  { t with input := { t.input with cancelled := true } }

def Terminal.setStream (t : Terminal) (kind : OutputKind) (stream : Stream) : Terminal :=
  { t with streams := Function.update t.streams kind stream }

/-- The pump goes on, or returns, with an error when `failed`. -/
def Terminal.setPump (t : Terminal) (kind : OutputKind) (next : Pump × Bool) : Terminal :=
  let moved := t.setStream kind { t.streams kind with pump := next.1 }
  if next.2 then moved.cancel else moved

/-- A `Read` of at most the buffer returns `n` bytes; the end comes after the last of them. -/
def Terminal.stepRead (t : Terminal) (kind : OutputKind) (n : Nat) (last : ReadEnd) :
    Option Terminal :=
  let stream := t.streams kind
  if t.phase ≠ .running ∨ stream.pump ≠ .reading ∨ n > outputBuffer ∨ n > stream.unread.length then
    none
  else if last = .eof ∧ (stream.ended = false ∨ n < stream.unread.length) then none
  else
    let taken := t.setStream kind { stream with read := stream.read + n }
    if n = 0 then some (taken.setPump kind (afterRead last))
    else some (taken.setPump kind (.sending (stream.unread.take n) last, false))

def Terminal.stepSend (t : Terminal) (kind : OutputKind) (ok : Bool) : Option Terminal :=
  match (t.streams kind).pump with
  | .sending data last =>
      if ok then
        some ({ t with frames := t.frames ++ [typedMsg kind.msgType data] }.setPump kind
          (afterRead last))
      else some (t.setPump kind (.returned, true))
  | _ => none

/-- One step of the session. -/
def Terminal.step (unmarshal : Bytes → Option Size) (t : Terminal) : Action → Option Terminal
  | .input .start => none
  | .input .cancel => none
  | .input action => (t.input.step unmarshal action).map fun input => { t with input := input }
  | .connect greeting =>
      if t.phase = .dialing then
        (t.input.step unmarshal .start).map fun input =>
          { t with input := input, phase := .running,
                   frames := t.frames ++ [typedMsg msgTypeConnectd greeting] }
      else none
  | .connectFails report =>
      if t.phase = .dialing then
        some { t with phase := .over, frames := t.frames ++ report.toList.map (typedMsg msgTypeError),
                      input := { t.input with cancelled := true } }
      else none
  | .produce kind data =>
      if t.phase ≠ .running ∨ (t.streams kind).ended then none
      else some (t.setStream kind
        { t.streams kind with produced := (t.streams kind).produced ++ data })
  | .finish kind =>
      if t.phase = .running then some (t.setStream kind { t.streams kind with ended := true })
      else none
  | .read kind n last => t.stepRead kind n last
  | .send kind ok => t.stepSend kind ok
  | .drained =>
      if (t.streams .stdout).pump = .returned ∧ (t.streams .stderr).pump = .returned then
        some t.cancel
      else none
  | .pingFails => some t.cancel
  | .parentCancelled => some t.cancel
  | .close => if t.input.cancelled then some { t with closed := true } else none

end OpsUp.Api
