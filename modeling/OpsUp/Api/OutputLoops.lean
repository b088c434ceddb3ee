import OpsUp.Api.RdpRelay
import OpsUp.Api.TerminalOutput
import OpsUp.Interaction.CopyLoop

/-!
# The output loops

`pumpTerminalOutput` copies the output of the shell to the browser, the loop at the end of
`relayRDP` that of the desktop.  Both read into one buffer, write what is new in it, and only
then look at the error of the read.  In every run of their sessions the browser has got what
these loops have delivered.
-/

namespace OpsUp.Api

open OpsUp.Go OpsUp.Interaction

inductive ReadError where
  | eof
  | other (err : String)
  deriving DecidableEq

/-- What a `Read` with a buffer returns.  It may use all of the buffer, whatever it counts. -/
structure ReadCall (size : Nat) where
  buffer : Vector UInt8 size
  n : Nat
  within : n ≤ size
  err : Option ReadError

/-- `buf[:n]` -/
def ReadCall.data {size : Nat} (call : ReadCall size) : Bytes := call.buffer.toList.take call.n

/-- A read and the error of the write after it, if there is one. -/
abbrev OutputRound (size : Nat) : Type := ReadCall size × Option String

def OutputRound.round {size : Nat} (output : OutputRound size) : Round ReadError String UInt8 :=
  ⟨output.1.data, output.1.err, output.2⟩

/-- The error that is returned, `none` for `nil`. -/
def pumpTerminalOutput (kind : UInt8) (outputs : List (OutputRound outputBuffer)) :
    LoopRun String Bytes (Option String) :=
  copyLoop (typedMsg kind)
    (fun
      | .eof => none
      | .other err => some err)
    some (outputs.map OutputRound.round)

/-- The output loop of `relayRDP`, which returns whatever the error is. -/
def relayOutput (outputs : List (OutputRound relayBuffer)) : LoopRun String Bytes Unit :=
  copyLoop id (fun _ => ()) (fun _ => ()) (outputs.map OutputRound.round)

/-- The count of a read is the length of its data, so `n > 0` asks whether there is any. -/
theorem ReadCall.length_data {size : Nat} (call : ReadCall size) : call.data.length = call.n := by
  rw [data, List.length_take_of_le]
  rw [Vector.length_toList]
  exact call.within

/-- Every write that is needed succeeds. -/
def WritesSucceed (rounds : List (Round ReadError String UInt8)) : Prop :=
  ∀ round ∈ upToEnd rounds, 0 < round.data.length → round.failed = none

/-- What is read up to the end is written in order, one message for each read with data; a write
that fails is the last. -/
structure Transparent {ρ : Type} (message : Bytes → Bytes)
    (rounds : List (Round ReadError String UInt8)) (run : LoopRun String Bytes ρ) : Prop where
  framed : ∀ write ∈ run.writes, ∃ payload : Bytes, payload ≠ [] ∧ write.1 = message payload
  complete : WritesSucceed rounds →
    run.writes = (payloads (upToEnd rounds)).map (fun payload => (message payload, none)) ∧
      (payloads (upToEnd rounds)).flatten = ((upToEnd rounds).map Round.data).flatten ∧
      (run.returned = none ↔ ending rounds = none)
  broken : ∀ front sent err back, run.writes = front ++ (sent, some err) :: back →
    back = [] ∧ (∀ write ∈ front, write.2 = none) ∧
      ∃ earlier : List Bytes, front.map Prod.fst = earlier.map message ∧
        earlier.flatten <+: ((upToEnd rounds).map Round.data).flatten

variable {ρ : Type} {message : Bytes → Bytes} {stopped : ReadError → ρ} {broken : String → ρ}

/-- Any such loop is transparent. -/
theorem copyLoop_transparent (rounds : List (Round ReadError String UInt8)) :
    Transparent message rounds (copyLoop message stopped broken rounds) := by
  have hmessages : (copyLoop message stopped broken rounds).writes.map Prod.fst <+:
      (payloads (upToEnd rounds)).map message := copyLoop_prefix rounds
  refine ⟨?_, ?_, ?_⟩
  · intro write hwrite
    obtain ⟨payload, hpayload, hmessage⟩ :=
      List.mem_map.mp (hmessages.subset (List.mem_map_of_mem hwrite))
    exact ⟨payload, List.length_pos_iff.mp (length_of_mem_payloads hpayload), hmessage.symm⟩
  · intro hsucceed
    rw [copyLoop_of_writes hsucceed]
    exact ⟨rfl, flatten_payloads _, Option.map_eq_none_iff⟩
  · intro front sent err back place
    obtain ⟨hback, hfront, -⟩ := copyLoop_failed place
    refine ⟨hback, hfront, ?_⟩
    rw [place, List.map_append] at hmessages
    obtain ⟨more, hmore⟩ := (List.prefix_append _ _).trans hmessages
    obtain ⟨earlier, later, hsplit, hearlier, -⟩ := List.map_eq_append_iff.mp hmore.symm
    refine ⟨earlier, hearlier.symm, ?_⟩
    rw [← flatten_payloads, hsplit, List.flatten_append]
    exact List.prefix_append _ _

/-- Both loops are transparent, and the terminal pump returns `nil` only at the end of its
stream. -/
theorem output_loops_transparent (kind : UInt8) (terminal : List (OutputRound outputBuffer))
    (desktop : List (OutputRound relayBuffer)) :
    Transparent (fun payload => kind :: payload) (terminal.map OutputRound.round)
        (pumpTerminalOutput kind terminal) ∧
      (WritesSucceed (terminal.map OutputRound.round) →
        ((pumpTerminalOutput kind terminal).returned = some none ↔
          ending (terminal.map OutputRound.round) = some .eof)) ∧
      Transparent id (desktop.map OutputRound.round) (relayOutput desktop) := by
  refine ⟨copyLoop_transparent _, ?_, copyLoop_transparent _⟩
  intro hsucceed
  rw [pumpTerminalOutput, copyLoop_of_writes hsucceed]
  cases ending (terminal.map OutputRound.round) with
  | none => simp
  | some err =>
      cases err with
      | eof => simp
      | other err => simp

/-! ## The loops within their sessions -/

/-- The call that reads exactly this data. -/
def ReadCall.ofData {size : Nat} (data : Bytes) (within : data.length ≤ size)
    (err : Option ReadError) : ReadCall size where
  buffer := ⟨(data ++ List.replicate (size - data.length) 0).toArray, by simp [within]⟩
  n := data.length
  within := within
  err := err

theorem OutputRound.round_ofData {size : Nat} {data : Bytes} (within : data.length ≤ size)
    (err : Option ReadError) (failed : Option String) :
    round (.ofData data within err, failed) = ⟨data, err, failed⟩ := by
  simp [round, ReadCall.data, ReadCall.ofData]

/-- Some rounds make such a loop deliver these messages, and return this. -/
def Copies (message : Bytes → Bytes) (stopped : ReadError → ρ) (broken : String → ρ) (size : Nat)
    (sent : List Bytes) (result : Option ρ) : Prop :=
  ∃ outputs : List (OutputRound size),
    (copyLoop message stopped broken (outputs.map OutputRound.round)).delivered = sent ∧
      (copyLoop message stopped broken (outputs.map OutputRound.round)).returned = result

section Copies

variable {size : Nat} {frames : List Bytes} {data : Bytes}

theorem copies_nil : Copies message stopped broken size [] none := ⟨[], rfl, rfl⟩

/-- A loop that has not returned makes one more round. -/
theorem Copies.round (copies : Copies message stopped broken size frames none)
    (output : OutputRound size) :
    Copies message stopped broken size
      (frames ++ (copyLoop message stopped broken [output.round]).delivered)
      (copyLoop message stopped broken [output.round]).returned := by
  obtain ⟨outputs, rfl, hrunning⟩ := copies
  refine ⟨outputs ++ [output], ?_, ?_⟩
  · rw [List.map_append, delivered_append hrunning]
    rfl
  · rw [List.map_append, copyLoop_append hrunning]
    rfl

/-- A read without data. -/
theorem Copies.empty (copies : Copies message stopped broken size frames none)
    (err : Option ReadError) : Copies message stopped broken size frames (err.map stopped) := by
  have hloop : copyLoop message stopped broken [⟨[], err, none⟩] = ⟨[], err.map stopped⟩ := by
    cases err <;> rfl
  have hround := copies.round (.ofData [] (Nat.zero_le _) err, none)
  rw [OutputRound.round_ofData, hloop] at hround
  exact List.append_nil frames ▸ hround

/-- A read whose data is sent. -/
theorem Copies.sent (copies : Copies message stopped broken size frames none)
    (content : data ≠ []) (within : data.length ≤ size) (err : Option ReadError) :
    Copies message stopped broken size (frames ++ [message data]) (err.map stopped) := by
  have hloop : copyLoop message stopped broken [⟨data, err, none⟩] =
      ⟨[(message data, none)], err.map stopped⟩ := by
    rw [copyLoop_cons_of_written (List.length_pos_iff.mpr content) rfl]
    cases err <;> rfl
  have hround := copies.round (.ofData data within err, none)
  rw [OutputRound.round_ofData, hloop] at hround
  exact hround

/-- A read whose data cannot be sent. -/
theorem Copies.lost (copies : Copies message stopped broken size frames none)
    (content : data ≠ []) (within : data.length ≤ size) (failure : String) :
    Copies message stopped broken size frames (some (broken failure)) := by
  have hround := copies.round (.ofData data within none, some failure)
  rw [OutputRound.round_ofData,
    copyLoop_cons_of_failed (List.length_pos_iff.mpr content) rfl] at hround
  exact List.append_nil frames ▸ hround

end Copies

/-- The main goroutine of the relay is in its loop, or has left it. -/
def RelayMain.Copying (frames : List Bytes) : RelayMain → Prop
  | .reading => Copies id (fun _ => ()) (fun _ => ()) relayBuffer frames none
  | .writing data _ =>
      Copies id (fun _ => ()) (fun _ => ()) relayBuffer frames none ∧
        data ≠ [] ∧ data.length ≤ relayBuffer
  | _ => Copies id (fun _ => ()) (fun _ => ()) relayBuffer frames (some ())

theorem Relay.read_copying {r next : Relay} {data : Bytes} {failed : Bool}
    (copying : r.main.Copying r.frames) (step : r.step (.read data failed) = some next) :
    next.main.Copying next.frames := by
  dsimp only [Relay.step] at step
  split at step
  · cases step
  · next hready =>
      rw [not_or, not_not, Nat.not_lt] at hready
      obtain ⟨hreading, hlength⟩ := hready
      have hcopies := copying
      rw [hreading] at hcopies
      split at step
      · next hdata =>
          obtain rfl := Option.some.inj step
          exact ⟨hcopies, hdata, hlength⟩
      · split at step
        · obtain rfl := Option.some.inj step
          exact Copies.empty hcopies (some .eof)
        · obtain rfl := Option.some.inj step
          exact copying

theorem Relay.written_copying {r next : Relay} {ok : Bool} (copying : r.main.Copying r.frames)
    (step : r.step (.written ok) = some next) : next.main.Copying next.frames := by
  dsimp only [Relay.step] at step
  split at step
  · next data last hwriting =>
      rw [hwriting] at copying
      obtain ⟨hcopies, hdata, hlength⟩ := copying
      split at step
      · obtain rfl := Option.some.inj step
        exact hcopies.lost hdata hlength ""
      · split at step
        · obtain rfl := Option.some.inj step
          exact hcopies.sent hdata hlength (some .eof)
        · obtain rfl := Option.some.inj step
          exact hcopies.sent hdata hlength none
  · cases step

/-- The other actions move the main goroutine only from its deferred function. -/
theorem Relay.step_copying {r next : Relay} {action : RelayAction}
    (copying : r.main.Copying r.frames) (step : r.step action = some next) :
    next.main.Copying next.frames := by
  cases action with
  | read data failed => exact Relay.read_copying copying step
  | written ok => exact Relay.written_copying copying step
  | receive kind data =>
      dsimp only [Relay.step] at step
      split at step
      · cases step
      · split at step
        · obtain rfl := Option.some.inj step
          exact copying
        · obtain rfl := Option.some.inj step
          exact copying
  | disconnect =>
      dsimp only [Relay.step] at step
      split at step
      · obtain rfl := Option.some.inj step
        exact copying
      · cases step
  | copied n ok =>
      dsimp only [Relay.step] at step
      split at step
      · split at step
        · cases step
        · split at step
          · obtain rfl := Option.some.inj step
            exact copying
          · obtain rfl := Option.some.inj step
            exact copying
      · cases step
  | ping ok =>
      dsimp only [Relay.step] at step
      split at step
      · cases step
      · split at step
        · obtain rfl := Option.some.inj step
          exact copying
        · obtain rfl := Option.some.inj step
          exact copying
  | notice =>
      dsimp only [Relay.step] at step
      split at step
      · obtain rfl := Option.some.inj step
        exact copying
      · cases step
  | cancel =>
      obtain rfl := Option.some.inj step
      exact copying
  | afterFunc =>
      dsimp only [Relay.step] at step
      split at step
      · obtain rfl := Option.some.inj step
        exact copying
      · cases step
  | finish =>
      dsimp only [Relay.step] at step
      split at step
      · next hready =>
          obtain rfl := Option.some.inj step
          rw [hready.1] at copying
          exact copying
      · cases step

/-- What the browser has got of the target is what the output loop has delivered, and the main
goroutine has returned from it or not as the loop has. -/
theorem relay_copying {actions : List RelayAction} {relay : Relay}
    (run : play Relay.step Relay.initial actions = some relay) :
    ∃ outputs, (relayOutput outputs).delivered = relay.frames ∧
      ((relayOutput outputs).returned = none ↔
        relay.main = .reading ∨ ∃ data last, relay.main = .writing data last) := by
  have hinitial : Relay.initial.main.Copying Relay.initial.frames := copies_nil
  have hcopying := play_preserves (fun relay => relay.main.Copying relay.frames) hinitial
    Relay.step_copying run
  cases hmain : relay.main with
  | reading =>
      rw [hmain] at hcopying
      obtain ⟨outputs, hframes, hrunning⟩ := hcopying
      exact ⟨outputs, hframes, fun _ => Or.inl rfl, fun _ => hrunning⟩
  | writing data last =>
      rw [hmain] at hcopying
      obtain ⟨⟨outputs, hframes, hrunning⟩, -, -⟩ := hcopying
      exact ⟨outputs, hframes, fun _ => Or.inr ⟨data, last, rfl⟩, fun _ => hrunning⟩
  | waiting =>
      rw [hmain] at hcopying
      obtain ⟨outputs, hframes, hreturned⟩ := hcopying
      refine ⟨outputs, hframes, fun hnone => ?_, by simp⟩
      cases hnone.symm.trans hreturned
  | returned =>
      rw [hmain] at hcopying
      obtain ⟨outputs, hframes, hreturned⟩ := hcopying
      refine ⟨outputs, hframes, fun hnone => ?_, by simp⟩
      cases hnone.symm.trans hreturned

/-- What the pump of one output does with the error of a read. -/
def pumpStopped : ReadError → Option String
  | .eof => none
  | .other err => some err

/-- A pump of the terminal is in its loop, or has left it. -/
def Pump.Copying (kind : OutputKind) (frames : List Bytes) : Pump → Prop
  | .reading => Copies (typedMsg kind.msgType) pumpStopped some outputBuffer frames none
  | .sending data _ =>
      Copies (typedMsg kind.msgType) pumpStopped some outputBuffer frames none ∧
        data ≠ [] ∧ data.length ≤ outputBuffer
  | .returned =>
      ∃ result, Copies (typedMsg kind.msgType) pumpStopped some outputBuffer frames (some result)

/-- The frames of one type, in order. -/
def framesOn (kind : UInt8) (frames : List Bytes) : List Bytes :=
  frames.filter fun frame => frame.head? = some kind

theorem framesOn_append (kind : UInt8) (front back : List Bytes) :
    framesOn kind (front ++ back) = framesOn kind front ++ framesOn kind back :=
  List.filter_append front back

theorem framesOn_typedMsg (kind : UInt8) (payload : Bytes) :
    framesOn kind [typedMsg kind payload] = [typedMsg kind payload] := by
  simp [framesOn, typedMsg]

theorem framesOn_typedMsg_of_ne {kind other : UInt8} (different : other ≠ kind) (payload : Bytes) :
    framesOn kind [typedMsg other payload] = [] := by
  simp [framesOn, typedMsg, different]

/-- The error beside the data of a read. -/
def ReadEnd.error : ReadEnd → Option ReadError
  | .more => none
  | .eof => some .eof
  | .failed => some (.other "")

namespace Terminal

variable {t next : Terminal}

/-- After its write, a pump reads again or returns. -/
theorem afterRead_copying {kind : OutputKind} {frames : List Bytes} {last : ReadEnd}
    (copies : Copies (typedMsg kind.msgType) pumpStopped some outputBuffer frames
      (last.error.map pumpStopped)) : (afterRead last).1.Copying kind frames := by
  cases last with
  | more => exact copies
  | eof => exact ⟨none, copies⟩
  | failed => exact ⟨some "", copies⟩

/-- Each pump does what its loop does. -/
def Copying (t : Terminal) : Prop :=
  ∀ kind, (t.streams kind).pump.Copying kind (framesOn kind.msgType t.frames)

theorem Copying.setStream (copying : t.Copying) {kind : OutputKind} {stream : Stream}
    (changed : stream.pump.Copying kind (framesOn kind.msgType t.frames)) :
    (t.setStream kind stream).Copying := by
  intro other
  by_cases hother : other = kind
  · subst hother
    rw [streams_setStream_self]
    exact changed
  · rw [streams_setStream_of_ne t hother]
    exact copying other

/-- A frame of another type is none of a pump's. -/
theorem Copying.append (copying : t.Copying) {kind : UInt8}
    (different : ∀ other : OutputKind, kind ≠ other.msgType) (payloads : List Bytes) :
    Copying { t with frames := t.frames ++ payloads.map (typedMsg kind) } := by
  intro other
  have hnone : framesOn other.msgType (payloads.map (typedMsg kind)) = [] := by
    refine List.filter_eq_nil_iff.mpr fun frame hframe => ?_
    obtain ⟨payload, -, rfl⟩ := List.mem_map.mp hframe
    simp [typedMsg, different other]
  rw [framesOn_append, hnone, List.append_nil]
  exact copying other

theorem Copying.setPump (copying : t.Copying) {kind : OutputKind} {pump : Pump × Bool}
    (changed : pump.1.Copying kind (framesOn kind.msgType t.frames)) :
    (t.setPump kind pump).Copying := by
  intro other
  rw [streams_setPump, frames_setPump]
  exact copying.setStream changed other

theorem Copying.read {kind : OutputKind} {n : Nat} {last : ReadEnd} (copying : t.Copying)
    (step : t.stepRead kind n last = some next) : next.Copying := by
  unfold stepRead at step
  dsimp only at step
  split at step
  · cases step
  · next hready =>
      rw [not_or, not_or, not_or, not_not, not_not] at hready
      obtain ⟨-, hreading, hbuffer, havailable⟩ := hready
      have hcopies := copying kind
      rw [hreading] at hcopies
      have htaken : (t.setStream kind { t.streams kind with
          read := (t.streams kind).read + n }).Copying := copying.setStream (copying kind)
      split at step
      · cases step
      · split at step
        · obtain rfl := Option.some.inj step
          exact htaken.setPump (afterRead_copying (hcopies.empty last.error))
        · next hnonzero =>
            obtain rfl := Option.some.inj step
            have hlength : ((t.streams kind).unread.take n).length = n :=
              List.length_take_of_le (Nat.not_lt.mp havailable)
            refine htaken.setPump ⟨hcopies, ?_, ?_⟩
            · intro hnil
              rw [hnil] at hlength
              exact hnonzero hlength.symm
            · rw [hlength]
              exact Nat.not_lt.mp hbuffer

theorem Copying.send {kind : OutputKind} {ok : Bool} (copying : t.Copying)
    (step : t.stepSend kind ok = some next) : next.Copying := by
  unfold stepSend at step
  split at step
  · next data last hsending =>
      have hpump := copying kind
      rw [hsending] at hpump
      obtain ⟨hcopies, hdata, hlength⟩ := hpump
      split at step
      · obtain rfl := Option.some.inj step
        intro other
        rw [streams_setPump, frames_setPump, framesOn_append]
        by_cases hother : other = kind
        · subst hother
          rw [streams_setStream_self, framesOn_typedMsg]
          exact afterRead_copying (hcopies.sent hdata hlength last.error)
        · rw [streams_setStream_of_ne _ hother,
            framesOn_typedMsg_of_ne (OutputKind.msgType_ne fun h => hother h.symm), List.append_nil]
          exact copying other
      · obtain rfl := Option.some.inj step
        exact copying.setPump ⟨some "", hcopies.lost hdata hlength ""⟩
  · cases step

variable {unmarshal : Bytes → Option Size}

theorem Copying.step {action : Action} (copying : t.Copying)
    (step : t.step unmarshal action = some next) : next.Copying := by
  cases action with
  | input action =>
      obtain ⟨input, -, rfl⟩ := step_input step
      exact copying
  | connect greeting =>
      dsimp only [Terminal.step] at step
      split at step
      · obtain ⟨input, -, rfl⟩ := Option.map_eq_some_iff.mp step
        exact copying.append (by rintro (_ | _) <;> decide) [greeting]
      · cases step
  | connectFails report =>
      dsimp only [Terminal.step] at step
      split at step
      · obtain rfl := Option.some.inj step
        exact copying.append (by rintro (_ | _) <;> decide) report.toList
      · cases step
  | produce kind data =>
      dsimp only [Terminal.step] at step
      split at step
      · cases step
      · obtain rfl := Option.some.inj step
        exact copying.setStream (copying kind)
  | finish kind =>
      dsimp only [Terminal.step] at step
      split at step
      · obtain rfl := Option.some.inj step
        exact copying.setStream (copying kind)
      · cases step
  | read kind n last => exact copying.read step
  | send kind ok => exact copying.send step
  | drained =>
      dsimp only [Terminal.step] at step
      split at step
      · obtain rfl := Option.some.inj step
        exact copying
      · cases step
  | pingFails =>
      obtain rfl := Option.some.inj step
      exact copying
  | parentCancelled =>
      obtain rfl := Option.some.inj step
      exact copying
  | close =>
      dsimp only [Terminal.step] at step
      split at step
      · obtain rfl := Option.some.inj step
        exact copying
      · cases step

end Terminal

/-- Of either output, the browser has got what the loop of its pump has delivered, and the pump
has returned or not as the loop has. -/
theorem terminal_copying {unmarshal : Bytes → Option Size} {actions : List Action} {t : Terminal}
    (run : play (Terminal.step unmarshal) Terminal.initial actions = some t) (kind : OutputKind) :
    ∃ outputs, (pumpTerminalOutput kind.msgType outputs).delivered =
        framesOn kind.msgType t.frames ∧
      ((pumpTerminalOutput kind.msgType outputs).returned = none ↔
        (t.streams kind).pump ≠ .returned) := by
  have hinitial : Terminal.initial.Copying := fun _ => copies_nil
  have hcopying := play_preserves Terminal.Copying hinitial Terminal.Copying.step run kind
  cases hpump : (t.streams kind).pump with
  | reading =>
      rw [hpump] at hcopying
      obtain ⟨outputs, hframes, hrunning⟩ := hcopying
      exact ⟨outputs, hframes, by simp, fun _ => hrunning⟩
  | sending data last =>
      rw [hpump] at hcopying
      obtain ⟨⟨outputs, hframes, hrunning⟩, -, -⟩ := hcopying
      exact ⟨outputs, hframes, by simp, fun _ => hrunning⟩
  | returned =>
      rw [hpump] at hcopying
      obtain ⟨result, outputs, hframes, hreturned⟩ := hcopying
      refine ⟨outputs, hframes, fun hnone => ?_, fun hrunning => absurd rfl hrunning⟩
      cases hnone.symm.trans hreturned

end OpsUp.Api
