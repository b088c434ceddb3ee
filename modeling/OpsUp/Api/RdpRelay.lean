import OpsUp.Api.TerminalHandler

/-!
# The RDP relay

`relayRDP` runs once TLS is up.  One goroutine copies the frames of the browser to the
target, one pings the browser, and the main one sends the browser what the target says.
What each side has got is always a beginning of what the other side has sent.
-/

namespace OpsUp.Api

open OpsUp.Go OpsUp.Interaction

def maxRdpMessage : Nat := 4 * 1024 * 1024

def relayBuffer : Nat := 64 * 1024

/-- The goroutine that reads the browser, between two of its operations. -/
inductive FrameReader where
  | reading
  /-- with a frame to copy to the target -/
  | copying (data : Bytes)
  | returned
  deriving DecidableEq

/-- The main goroutine. -/
inductive RelayMain where
  | reading
  /-- with data of the target, after which the read has failed when `last` -/
  | writing (data : Bytes) (last : Bool)
  /-- waiting for the others in its deferred function -/
  | waiting
  | returned
  deriving DecidableEq

structure Relay where
  cancelled : Bool
  reader : FrameReader
  pinging : Bool
  main : RelayMain
  /-- the binary frames after the first one -/
  received : List Bytes
  /-- what has been written to the TLS connection -/
  sent : Bytes
  /-- what has been read from the TLS connection -/
  taken : Bytes
  /-- the binary frames that the browser has got -/
  frames : List Bytes
  closed : Bool

inductive RelayAction where
  /-- `ReadMessage` delivers a message, or fails -/
  | receive (kind : MessageKind) (data : Bytes)
  | disconnect
  /-- `io.Copy` returns after `n` bytes -/
  | copied (n : Nat) (ok : Bool)
  | ping (ok : Bool)
  /-- the pinger sees the end of the context -/
  | notice
  /-- `conn.Read` returns data, an error, or both -/
  | read (data : Bytes) (failed : Bool)
  | written (ok : Bool)
  /-- the request is cancelled -/
  | cancel
  /-- what is to be done after the end of the context -/
  | afterFunc
  /-- the other two have returned -/
  | finish

def Relay.initial : Relay where
  cancelled := false
  reader := .reading
  pinging := true
  main := .reading
  received := []
  sent := []
  taken := []
  frames := []
  closed := false

/-- The main goroutine returns, and its deferred function begins. -/
def Relay.leave (r : Relay) : Relay := { r with main := .waiting, cancelled := true, closed := true }

def Relay.step (r : Relay) : RelayAction → Option Relay
  | .receive kind data =>
      if r.reader ≠ .reading ∨ data.length > maxRdpMessage then none
      else if kind ≠ .binary then some { r with reader := .returned, cancelled := true }
      else some { r with reader := .copying data, received := r.received ++ [data] }
  | .disconnect =>
      if r.reader = .reading then some { r with reader := .returned, cancelled := true } else none
  | .copied n ok =>
      match r.reader with
      | .copying data =>
          if n > data.length ∨ (ok = true ∧ n ≠ data.length) ∨ (ok = false ∧ data = []) then none
          else if ok then some { r with reader := .reading, sent := r.sent ++ data }
          else some { r with reader := .returned, sent := r.sent ++ data.take n, cancelled := true }
      | _ => none
  | .ping ok =>
      if r.pinging = false then none
      else if ok then some r
      else some { r with pinging := false, cancelled := true }
  | .notice => if r.pinging ∧ r.cancelled then some { r with pinging := false } else none
  | .read data failed =>
      if r.main ≠ .reading ∨ data.length > relayBuffer then none
      else if data ≠ [] then some { r with main := .writing data failed, taken := r.taken ++ data }
      else if failed then some r.leave
      else some r
  | .written ok =>
      match r.main with
      | .writing data last =>
          if ok = false then some r.leave
          else if last then some { r with frames := r.frames ++ [data] }.leave
          else some { r with frames := r.frames ++ [data], main := .reading }
      | _ => none
  | .cancel => some { r with cancelled := true }
  | .afterFunc => if r.cancelled then some { r with closed := true } else none
  | .finish =>
      if r.main = .waiting ∧ r.reader = .returned ∧ r.pinging = false then
        some { r with main := .returned }
      else none

/-! ## What is relayed -/

/-- What the target has got of the frames of the browser. -/
def Copied (reader : FrameReader) (received : List Bytes) (sent : Bytes) : Prop :=
  match reader with
  | .reading => sent = received.flatten
  | .copying data => ∃ earlier, received = earlier ++ [data] ∧ sent = earlier.flatten
  | .returned => sent <+: received.flatten

/-- What the browser has got of the data of the target. -/
def Forwarded (main : RelayMain) (taken : Bytes) (frames : List Bytes) : Prop :=
  match main with
  | .reading => frames.flatten = taken
  | .writing data _ => frames.flatten ++ data = taken
  | _ => frames.flatten <+: taken

theorem Copied.sent_prefix {reader : FrameReader} {received : List Bytes} {sent : Bytes}
    (copied : Copied reader received sent) : sent <+: received.flatten := by
  cases reader with
  | reading => exact copied ▸ List.prefix_rfl
  | copying data =>
      obtain ⟨earlier, rfl, rfl⟩ := copied
      rw [List.flatten_append]
      exact List.prefix_append _ _
  | returned => exact copied

theorem Forwarded.frames_prefix {main : RelayMain} {taken : Bytes} {frames : List Bytes}
    (forwarded : Forwarded main taken frames) : frames.flatten <+: taken := by
  cases main with
  | reading => exact forwarded ▸ List.prefix_rfl
  | writing data last => exact ⟨data, forwarded⟩
  | waiting => exact forwarded
  | returned => exact forwarded

structure Relay.Faithful (r : Relay) : Prop where
  copied : Copied r.reader r.received r.sent
  forwarded : Forwarded r.main r.taken r.frames

theorem Relay.initial_faithful : Relay.initial.Faithful := ⟨rfl, rfl⟩

theorem Relay.Faithful.leave {r : Relay} (faithful : r.Faithful) : r.leave.Faithful :=
  ⟨faithful.copied, faithful.forwarded.frames_prefix⟩

/-- The reader returns; what it held is not copied. -/
theorem Relay.Faithful.stopReader {r : Relay} (faithful : r.Faithful) :
    Relay.Faithful { r with reader := .returned, cancelled := true } :=
  ⟨faithful.copied.sent_prefix, faithful.forwarded⟩

theorem Relay.receive_faithful {r next : Relay} {kind : MessageKind} {data : Bytes}
    (faithful : r.Faithful) (step : r.step (.receive kind data) = some next) : next.Faithful := by
  simp only [Relay.step] at step
  split at step
  · cases step
  · next hready =>
      have hreading : r.reader = .reading := by
        by_contra hother
        exact hready (Or.inl hother)
      split at step
      · obtain rfl := Option.some.inj step
        exact faithful.stopReader
      · obtain rfl := Option.some.inj step
        have hcopied := faithful.copied
        rw [hreading] at hcopied
        exact ⟨⟨r.received, rfl, hcopied⟩, faithful.forwarded⟩

theorem Relay.copied_faithful {r next : Relay} {n : Nat} {ok : Bool} (faithful : r.Faithful)
    (step : r.step (.copied n ok) = some next) : next.Faithful := by
  simp only [Relay.step] at step
  split at step
  · next data hcopying =>
      have hcopied := faithful.copied
      rw [hcopying] at hcopied
      obtain ⟨earlier, hreceived, hsent⟩ := hcopied
      split at step
      · cases step
      · split at step
        · obtain rfl := Option.some.inj step
          refine ⟨?_, faithful.forwarded⟩
          change r.sent ++ data = r.received.flatten
          rw [hreceived, hsent, List.flatten_append, List.flatten_singleton]
        · obtain rfl := Option.some.inj step
          refine ⟨?_, faithful.forwarded⟩
          change r.sent ++ data.take n <+: r.received.flatten
          rw [hreceived, hsent, List.flatten_append, List.flatten_singleton]
          exact List.prefix_append_right_inj _ |>.mpr (List.take_prefix n data)
  · cases step

theorem Relay.read_faithful {r next : Relay} {data : Bytes} {failed : Bool}
    (faithful : r.Faithful) (step : r.step (.read data failed) = some next) : next.Faithful := by
  simp only [Relay.step] at step
  split at step
  · cases step
  · next hready =>
      have hreading : r.main = .reading := by
        by_contra hother
        exact hready (Or.inl hother)
      have hforwarded := faithful.forwarded
      rw [hreading] at hforwarded
      split at step
      · obtain rfl := Option.some.inj step
        refine ⟨faithful.copied, ?_⟩
        change r.frames.flatten ++ data = r.taken ++ data
        rw [hforwarded]
      · split at step
        · obtain rfl := Option.some.inj step
          exact faithful.leave
        · obtain rfl := Option.some.inj step
          exact faithful

theorem Relay.written_faithful {r next : Relay} {ok : Bool} (faithful : r.Faithful)
    (step : r.step (.written ok) = some next) : next.Faithful := by
  simp only [Relay.step] at step
  split at step
  · next data last hwriting =>
      have hforwarded := faithful.forwarded
      rw [hwriting] at hforwarded
      have hframes : (r.frames ++ [data]).flatten = r.taken := by
        rw [List.flatten_append, List.flatten_singleton]
        exact hforwarded
      split at step
      · obtain rfl := Option.some.inj step
        exact faithful.leave
      · split at step
        · obtain rfl := Option.some.inj step
          have hgot : (r.frames ++ [data]).flatten <+: r.taken := hframes ▸ List.prefix_rfl
          exact ⟨faithful.copied, hgot⟩
        · obtain rfl := Option.some.inj step
          exact ⟨faithful.copied, hframes⟩
  · cases step

theorem Relay.step_faithful {r next : Relay} {action : RelayAction} (faithful : r.Faithful)
    (step : r.step action = some next) : next.Faithful := by
  cases action with
  | receive kind data => exact Relay.receive_faithful faithful step
  | disconnect =>
      simp only [Relay.step] at step
      split at step
      · obtain rfl := Option.some.inj step
        exact faithful.stopReader
      · cases step
  | copied n ok => exact Relay.copied_faithful faithful step
  | ping ok =>
      simp only [Relay.step] at step
      split at step
      · cases step
      · split at step
        · obtain rfl := Option.some.inj step
          exact faithful
        · obtain rfl := Option.some.inj step
          exact ⟨faithful.copied, faithful.forwarded⟩
  | notice =>
      simp only [Relay.step] at step
      split at step
      · obtain rfl := Option.some.inj step
        exact ⟨faithful.copied, faithful.forwarded⟩
      · cases step
  | read data failed => exact Relay.read_faithful faithful step
  | written ok => exact Relay.written_faithful faithful step
  | cancel =>
      obtain rfl := Option.some.inj step
      exact ⟨faithful.copied, faithful.forwarded⟩
  | afterFunc =>
      simp only [Relay.step] at step
      split at step
      · obtain rfl := Option.some.inj step
        exact ⟨faithful.copied, faithful.forwarded⟩
      · cases step
  | finish =>
      simp only [Relay.step] at step
      split at step
      · obtain rfl := Option.some.inj step
        exact ⟨faithful.copied, faithful.forwarded.frames_prefix⟩
      · cases step

/-- After any run of the relay, either side has got a beginning of what the other has sent. -/
theorem relay_prefixes {actions : List RelayAction} {relay : Relay}
    (run : play Relay.step Relay.initial actions = some relay) :
    relay.sent <+: relay.received.flatten ∧ relay.frames.flatten <+: relay.taken := by
  have hfaithful := play_preserves Relay.Faithful Relay.initial_faithful Relay.step_faithful run
  exact ⟨hfaithful.copied.sent_prefix, hfaithful.forwarded.frames_prefix⟩

end OpsUp.Api
