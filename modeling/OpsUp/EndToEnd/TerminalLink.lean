import OpsUp.Api.SessionCourse
import OpsUp.EndToEnd.Numbers
import OpsUp.Api.TerminalFrames
import OpsUp.Interaction.Links
import OpsUp.Ui.ClientFrames
import Mathlib.Data.List.Infix

/-!
# From the keyboard to the shell and back

Every connection of the client is the browser side of one session of the server.  Their
frames arrive in order and at most once; when they arrive, what the ends do meanwhile and
which of them give up is left open.
-/

namespace OpsUp.EndToEnd

open OpsUp.Go OpsUp.Js OpsUp.Interaction OpsUp.Ui OpsUp.Api

deriving instance DecidableEq for MessageData

/-! ## The link -/

/-- The message that an action of a session reads from the socket. -/
def reads : Action → Option (MessageKind × Bytes)
  | .input (.receive kind msg) => some (kind, msg)
  | _ => none

/-- The client and the sessions of its connections. -/
def sessions (decoders : Decoders) :
    Ends Nat Hook Terminal HookAction Action (MessageKind × Bytes) MessageData where
  client := Hook.step decoders
  server := Terminal.step unmarshalSize
  clientStart := .initial
  serverStart := .initial
  opened := fun h id => (h.connections id).isSome
  requests := fun h id => (h.sentTo id).map fun frame => (.binary, frame)
  replies := fun t => t.frames.map .binary
  clientTakes := HookAction.takes
  serverTakes := reads

variable {decoders : Decoders} {actions : List (LinkAction Nat HookAction Action)}
  {s : Linked Nat Hook Terminal} {id : Nat} {c : Connection}

theorem requestsGrow : (sessions decoders).RequestsGrow := by
  intro before client next action id hbefore hstep
  have hconsistent : Hook.Consistent client := Hook.consistent_initial.run hbefore
  exact (hconsistent.sentTo_prefix hstep id).map _

theorem repliesGrow : (sessions decoders).RepliesGrow := by
  intro server next action hstep
  exact (Terminal.frames_prefix hstep).map _

/-! ## What each end knows of the other -/

theorem showing_of_run (run : play (sessions decoders).step (sessions decoders).start actions = some s) :
    Hook.Showing ((sessions decoders).toClient s) s.client := by
  refine Ends.client_invariant (fun h taken => Hook.Showing taken h) Hook.showing_initial ?_ ?_
    requestsGrow repliesGrow run
  · intro before client next action taken hbefore hshowing htakes hstep
    have hnext := hshowing.step (Hook.consistent_initial.run hbefore) hstep
    have hnone : (fun id => taken id ++ Hook.given action id) = taken := by
      funext id
      have hgiven : Hook.given action id = [] := Hook.given_eq_nil fun data hdata => by
        cases (show action.takes = none from htakes).symm.trans hdata
      rw [hgiven, List.append_nil]
    exact hnone ▸ hnext
  · intro before client next action taken link message hbefore hshowing htakes hstep
    have hnext := hshowing.step (Hook.consistent_initial.run hbefore) hstep
    have hgiven : (fun id => taken id ++ Hook.given action id) =
        Function.update taken link (taken link ++ [message]) := by
      funext id
      rw [Function.update_apply]
      split
      · next hsame =>
          subst hsame
          rw [Hook.given_of_takes htakes]
      · next hother =>
          have hnone : Hook.given action id = [] := Hook.given_eq_nil fun data hdata => by
            cases (show action.takes = some (link, message) from htakes).symm.trans hdata
            exact hother rfl
          rw [hnone, List.append_nil]
    exact hgiven ▸ hnext

/-- What the shell and the sockets of a session have in common in every run. -/
structure Served (taken : List (MessageKind × Bytes)) (t : Terminal) : Prop where
  received : t.input.received = taken.filterMap Terminal.kept
  course : t.Course
  passes : t.Passes
  waits : t.Waits
  resized : t.input.resized = t.input.acted.filterMap (Terminal.windowSize unmarshalSize)

theorem served_of_run (run : play (sessions decoders).step (sessions decoders).start actions = some s)
    (id : Nat) : Served ((sessions decoders).toServer s id) (s.servers id) := by
  refine Ends.server_invariant (fun t taken => Served taken t)
    ⟨rfl, Terminal.course_initial, Terminal.passes_initial, fun _ => ⟨rfl, rfl⟩, rfl⟩ ?_ ?_
    requestsGrow repliesGrow run id
  · intro server next action taken hserved htakes hstep
    have hshell := Terminal.shell_of_step hstep
    refine ⟨?_, hserved.course.shell hshell, hserved.passes.shell hshell,
      hserved.waits.step hstep,
      Terminal.resized_of_change hserved.resized (Terminal.change_of_step hstep)⟩
    have hother : ∀ kind msg, action ≠ .input (.receive kind msg) := by
      rintro kind msg rfl
      cases htakes
    rw [Terminal.received_of_step hstep hother]
    exact hserved.received
  · intro server next action taken message hserved htakes hstep
    have hshell := Terminal.shell_of_step hstep
    refine ⟨?_, hserved.course.shell hshell, hserved.passes.shell hshell,
      hserved.waits.step hstep,
      Terminal.resized_of_change hserved.resized (Terminal.change_of_step hstep)⟩
    obtain ⟨kind, msg⟩ := message
    have hreceive : action = .input (.receive kind msg) := by
      change reads action = _ at htakes
      unfold reads at htakes
      split at htakes
      · obtain ⟨rfl, rfl⟩ := Prod.mk.inj (Option.some.inj htakes)
        rfl
      · cases htakes
    subst hreceive
    rw [Terminal.received_of_receive hstep, hserved.received, List.filterMap_append]
    cases hkept : Terminal.kept (kind, msg) with
    | none => simp [hkept]
    | some kept => simp [hkept]

/-! ## Frames of sizes -/

/-- The sizes that the server accepts. -/
def Fits (cols rows : Nat) : Prop := (1 ≤ cols ∧ cols ≤ 1000) ∧ 1 ≤ rows ∧ rows ≤ 1000

instance (cols rows : Nat) : Decidable (Fits cols rows) :=
  inferInstanceAs (Decidable ((1 ≤ cols ∧ cols ≤ 1000) ∧ 1 ≤ rows ∧ rows ≤ 1000))

theorem unmarshalSize_sizeText_eq (cols rows : Nat) :
    unmarshalSize (sizeText cols rows) =
      if cols < int64Cutoff ∧ rows < int64Cutoff then some ⟨cols, rows⟩ else none := by
  by_cases hfits : cols < int64Cutoff ∧ rows < int64Cutoff
  · rw [if_pos hfits]
    exact unmarshalSize_sizeText hfits.1 hfits.2
  · rw [if_neg hfits]
    have hcols : ∀ size : Size, ∀ value, setSizeField size (bytesOf "cols") value =
        (decodeInt size.cols value).map fun cols => { size with cols := cols } := fun _ _ => rfl
    have hrows : ∀ size : Size, ∀ value, setSizeField size (bytesOf "rows") value =
        (decodeInt size.rows value).map fun rows => { size with rows := rows } := fun _ _ => rfl
    rw [unmarshalSize, parseJson_sizeText]
    simp only [List.foldlM_cons, List.foldlM_nil, hcols, hrows, decodeInt, parseInt_decimalBytes]
    by_cases hcolsFit : cols < int64Cutoff
    · have hrowsFit : ¬ rows < int64Cutoff := fun hrowsFit => hfits ⟨hcolsFit, hrowsFit⟩
      simp [hcolsFit, hrowsFit]
    · simp [hcolsFit]

/-- A resize frame asks for its size, or ends the session. -/
theorem dispatch_resizeFrame (cols rows : Nat) :
    dispatch unmarshalSize (resizeFrame cols rows) =
      if Fits cols rows then .windowChange rows cols else .refuse := by
  change dispatch unmarshalSize (msgTypeResize :: sizeText cols rows) = _
  rw [dispatch_resize, unmarshalSize_sizeText_eq]
  by_cases hfits : Fits cols rows
  · have hsmall : cols < int64Cutoff ∧ rows < int64Cutoff := by
      obtain ⟨⟨-, hcols⟩, -, hrows⟩ := hfits
      rw [int64Cutoff]
      omega
    have hrange : ¬ ((cols : Int) < 1 ∨ (rows : Int) < 1 ∨ (cols : Int) > 1000 ∨
        (rows : Int) > 1000) := by
      obtain ⟨⟨hone, hcols⟩, hone', hrows⟩ := hfits
      omega
    rw [if_pos hfits, if_pos hsmall]
    dsimp only
    rw [resize, if_neg hrange]
  · rw [if_neg hfits]
    split
    · rfl
    · next size hsize =>
        obtain ⟨-, hsize⟩ := Option.ite_none_right_eq_some.mp hsize
        obtain rfl := Option.some.inj hsize
        have hrange : (cols : Int) < 1 ∨ (rows : Int) < 1 ∨ (cols : Int) > 1000 ∨
            (rows : Int) > 1000 := by
          unfold Fits at hfits
          omega
        dsimp only
        rw [resize, if_pos hrange]

/-! ## From the keyboard to the shell -/

theorem filterMap_stdinPayload_filter (frames : List Bytes) :
    (frames.filter fun frame => frame.head? = some 0x00).filterMap stdinPayload =
      frames.filterMap stdinPayload := by
  rw [List.filterMap_filter]
  refine List.filterMap_congr fun frame _ => ?_
  cases frame with
  | nil => rfl
  | cons kind payload =>
      by_cases hkind : kind = 0x00
      · simp [hkind, stdinPayload, msgTypeStdin]
      · simp [hkind, stdinPayload, msgTypeStdin]

theorem filterMap_stdinPayload_stdinFrames (payloads : List Bytes) :
    (payloads.map stdinFrame).filterMap stdinPayload = payloads := by
  rw [List.filterMap_map]
  exact List.filterMap_some

/-- The frames of a connection that have arrived are what the server has received. -/
theorem received_eq {t : Terminal} {taken : Nat} (built : ∀ frame ∈ c.sent, ClientFrame frame)
    (received : t.input.received =
      ((c.sent.map fun frame => (MessageKind.binary, frame)).take taken).filterMap Terminal.kept) :
    t.input.received = c.sent.take taken := by
  rw [received, ← List.map_take, List.filterMap_map]
  have hkept : ∀ frame ∈ c.sent.take taken,
      (Terminal.kept ∘ fun frame => (MessageKind.binary, frame)) frame = some frame := by
    intro frame hframe
    have hcontent : frame ≠ [] := (built frame (List.mem_of_mem_take hframe)).content
    exact if_neg (not_or.mpr ⟨fun hkind => hkind rfl, hcontent⟩)
  rw [List.filterMap_congr hkept, List.filterMap_some]

/-- What the input frames that a connection has sent carry is the beginning of what was typed,
and all of it once the queue of a connection that goes on is empty. -/
theorem typed_of_sent {h : Hook} (pumping : Pumping ⟨h.toShared, c⟩) :
    (c.sent.filterMap stdinPayload).flatten <+: c.accepted.flatMap textEncode ∧
      (c.queued = [] → h.generation = c.id → ¬ c.failed →
        (c.sent.filterMap stdinPayload).flatten = c.accepted.flatMap textEncode) := by
  obtain ⟨sent, rest, hsent, -, hbytes, -, hall⟩ := pumping.payloads
  have hpayloads : c.sent.filterMap stdinPayload = sent := by
    rw [← filterMap_stdinPayload_filter]
    exact (congrArg (List.filterMap stdinPayload) hsent).trans
      (filterMap_stdinPayload_stdinFrames sent)
  have hbytes : (sent ++ rest).flatten = c.accepted.flatMap textEncode := hbytes
  rw [hpayloads, ← hbytes, List.flatten_append]
  refine ⟨List.prefix_append _ _, fun hqueued hcurrent hhealthy => ?_⟩
  rw [hall hqueued hcurrent hhealthy, List.flatten_nil, List.append_nil]

/-- A frame of the client that the server refuses is a resize to a size it does not accept. -/
theorem refused_of_built {frame : Bytes} (built : ClientFrame frame)
    (refused : dispatch unmarshalSize frame = .refuse) :
    ∃ cols rows, frame = resizeFrame cols rows ∧ ¬ Fits cols rows := by
  rcases built with ⟨payload, rfl, -⟩ | ⟨cols, rows, rfl⟩
  · cases refused
  · refine ⟨cols, rows, rfl, fun hfits => ?_⟩
    rw [dispatch_resizeFrame, if_pos hfits] at refused
    cases refused

/-- The window change of a frame of the client has the size of the frame. -/
theorem windowSize_of_built {frame : Bytes} (built : ClientFrame frame) {size : Int × Int}
    (asked : Terminal.windowSize unmarshalSize frame = some size) :
    ∃ cols rows : Nat, frame = resizeFrame cols rows ∧ Fits cols rows ∧ size = ((rows : Int), (cols : Int)) := by
  rcases built with ⟨payload, rfl, -⟩ | ⟨cols, rows, rfl⟩
  · cases asked
  · unfold Terminal.windowSize at asked
    rw [dispatch_resizeFrame] at asked
    by_cases hfits : Fits cols rows
    · rw [if_pos hfits] at asked
      exact ⟨cols, rows, rfl, hfits, (Option.some.inj asked).symm⟩
    · rw [if_neg hfits] at asked
      cases asked

/--
In every run of the client and the server together, whatever connections are opened and
however their steps interleave: a session has received exactly the frames of its connection
that have arrived, in order; what the shell is written is a beginning of what was typed into
that connection, and all of it once everything has arrived and nothing failed; the window
changes are, in order, those of the sizes sent, and what ends a session is never input but a
size out of range.
-/
theorem typed_reaches_shell
    (run : play (sessions decoders).step (sessions decoders).start actions = some s)
    (opened : s.client.connections id = some c) :
    let t := s.servers id
    t.input.received = c.sent.take (s.requestsTaken id) ∧
    t.input.written.flatten <+: c.accepted.flatMap textEncode ∧
    t.input.resized <+: c.sent.filterMap (Terminal.windowSize unmarshalSize) ∧
    (∀ size ∈ t.input.resized, ∃ cols rows : Nat, resizeFrame cols rows ∈ c.sent ∧
      Fits cols rows ∧ size = ((rows : Int), (cols : Int))) ∧
    (∀ frame ∈ t.input.acted, dispatch unmarshalSize frame = .refuse →
      ∃ cols rows, frame = resizeFrame cols rows ∧ ¬ Fits cols rows) ∧
    (s.requestsTaken id = c.sent.length → t.input.acted = t.input.received →
      c.queued = [] → id = s.client.generation → ¬ c.failed →
        t.input.written.flatten = c.accepted.flatMap textEncode) := by
  obtain ⟨own, hclient⟩ := Ends.client_run run
  obtain ⟨served, hserver⟩ := Ends.server_run run id
  have hid := ((Hook.consistent_initial.run hclient).named id c opened).1
  have hshows := (showing_of_run run).shows id c opened
  have hserved := served_of_run run id
  have hordered : Input.Ordered unmarshalSize (s.servers id).input :=
    Terminal.ordered_of_run hserver
  have hreceived : (s.servers id).input.received = c.sent.take (s.requestsTaken id) := by
    refine received_eq hshows.sent ?_
    have htaken := hserved.received
    rwa [Ends.toServer, show (sessions decoders).requests s.client id =
      (s.client.sentTo id).map fun frame => (.binary, frame) from rfl,
      Hook.sentTo_of_opened opened] at htaken
  have hacted : (s.servers id).input.acted <+: c.sent := by
    obtain ⟨dropped, horder, -⟩ := hordered.order
    have hfront : (s.servers id).input.acted <+: (s.servers id).input.received := by
      rw [horder, List.append_assoc, List.append_assoc]
      exact List.prefix_append _ _
    exact hfront.trans (hreceived ▸ List.take_prefix _ _)
  obtain ⟨htyped, hall⟩ := typed_of_sent (Hook.Pumped.run hclient id c opened)
  have hbuilt : ∀ frame ∈ (s.servers id).input.acted, ClientFrame frame := fun frame hframe =>
    hshows.sent frame (hacted.subset hframe)
  refine ⟨hreceived, ?_, ?_, ?_, ?_, ?_⟩
  · rw [hordered.written]
    exact (List.IsPrefix.flatten (hacted.filterMap stdinPayload)).trans htyped
  · rw [hserved.resized]
    exact hacted.filterMap _
  · intro size hsize
    rw [hserved.resized] at hsize
    obtain ⟨frame, hframe, hasked⟩ := List.mem_filterMap.mp hsize
    obtain ⟨cols, rows, rfl, hfits, hsize⟩ := windowSize_of_built (hbuilt frame hframe) hasked
    exact ⟨cols, rows, hacted.subset hframe, hfits, hsize⟩
  · exact fun frame hframe hrefused => refused_of_built (hbuilt frame hframe) hrefused
  · intro harrived hdone hqueued hcurrent hhealthy
    rw [hordered.written, hdone, hreceived, harrived, List.take_length]
    exact hall hqueued (hcurrent.symm.trans hid.symm) hhealthy

/-- A letter is typed once the session is ready, and reaches the shell. -/
def typedLetter : List (LinkAction Nat HookAction Action) :=
  let answers : Answers := ⟨fun _ => 0, fun _ => true, none⟩
  [.client (.connect 7 true), .client (.callback 1 (.readyState .opened) answers),
    .server 1 (.connect []), .client (.callback 1 (.onmessage (.binary [0x04])) answers),
    .client (.callback 1 (.onData [0x41]) answers),
    .server 1 (.input (.receive .binary (resizeFrame 80 24))), .server 1 (.input .enqueue),
    .server 1 (.input .take), .server 1 (.input .dispatch),
    .server 1 (.input (.callReturns true)),
    .server 1 (.input (.receive .binary [0x00, 0x41])), .server 1 (.input .enqueue),
    .server 1 (.input .take), .server 1 (.input .dispatch)]

theorem typed_reaches_shell_letter :
    ∃ s c, play (sessions ⟨fun _ => [], fun _ => none⟩).step (sessions ⟨fun _ => [], fun _ => none⟩).start
        typedLetter = some s ∧ s.client.connections 1 = some c ∧
      (s.servers 1).input.received = c.sent.take (s.requestsTaken 1) ∧
      (s.servers 1).input.written = [[0x41]] := by
  have hview : (play (sessions ⟨fun _ => [], fun _ => none⟩).step
      (sessions ⟨fun _ => [], fun _ => none⟩).start typedLetter).map
        (fun s => ((s.client.connections 1).isSome, (s.servers 1).input.written)) =
          some (true, [[0x41]]) := by
    decide +kernel
  obtain ⟨s, hrun, hstate⟩ := Option.map_eq_some_iff.mp hview
  obtain ⟨hopened, hwritten⟩ := Prod.mk.inj hstate
  obtain ⟨c, hc⟩ := Option.isSome_iff_exists.mp hopened
  exact ⟨s, c, hrun, hc, (typed_reaches_shell hrun hc).1, hwritten⟩

/-! ## From the shell to the screen -/

/-- What a frame has the terminal show. -/
def screenPayload (frame : Bytes) : Option Bytes := outputPayload (.binary frame)

/-- What a terminal shows comes from the first frames of its session. -/
theorem shown_frames (shows : Shows ((sessions decoders).toClient s id) ⟨s.client.toShared, c⟩) :
    ∃ shown, shown <+: (s.servers id).frames.take (s.repliesTaken id) ∧
      c.written = shown.filterMap screenPayload ∧
      (s.client.generation = c.id → ¬ c.failed →
        shown = (s.servers id).frames.take (s.repliesTaken id)) := by
  obtain ⟨messages, hfront, hwritten, hall⟩ := shows.shown
  have htaken : (sessions decoders).toClient s id =
      ((s.servers id).frames.take (s.repliesTaken id)).map .binary := List.map_take.symm
  rw [htaken] at hfront hall
  obtain ⟨rest, hrest⟩ := hfront
  obtain ⟨shown, others, hframes, rfl, -⟩ := List.map_eq_append_iff.mp hrest.symm
  refine ⟨shown, hframes ▸ List.prefix_append _ _, ?_, fun hcurrent hhealthy => ?_⟩
  · rw [List.filterMap_map] at hwritten
    exact hwritten
  · have hsame := hall hcurrent hhealthy
    exact List.map_injective_iff.mpr (fun _ _ h => MessageData.binary.inj h) hsame

theorem sentOn_front (kind : UInt8) {front all : List Bytes} (part : front <+: all) :
    sentOn kind front <+: sentOn kind all := by
  obtain ⟨rest, rfl⟩ := part
  rw [sentOn_append]
  exact List.prefix_append _ _

/--
In every such run, the terminal of a connection shows the output among the first frames of its
session, and of each stream of the shell these carry a beginning; a connection that is
current and has not failed shows all that has arrived, which is all that the shell wrote once
nothing is under way.
-/
theorem output_reaches_screen
    (run : play (sessions decoders).step (sessions decoders).start actions = some s)
    (opened : s.client.connections id = some c) :
    let t := s.servers id
    ∃ shown, shown <+: t.frames.take (s.repliesTaken id) ∧
      c.written = shown.filterMap screenPayload ∧
      (∀ kind : OutputKind, sentOn kind.msgType shown <+: (t.streams kind).produced) ∧
      (id = s.client.generation → ¬ c.failed →
        shown = t.frames.take (s.repliesTaken id) ∧
        (s.repliesTaken id = t.frames.length →
          (∀ kind, (t.streams kind).pump = .reading ∧ (t.streams kind).unread = []) →
            ∀ kind : OutputKind, sentOn kind.msgType shown = (t.streams kind).produced)) := by
  obtain ⟨own, hclient⟩ := Ends.client_run run
  have hid := ((Hook.consistent_initial.run hclient).named id c opened).1
  have hserved := served_of_run run id
  obtain ⟨shown, hfront, hwritten, hall⟩ := shown_frames ((showing_of_run run).shows id c opened)
  refine ⟨shown, hfront, hwritten, fun kind => ?_, fun hcurrent hhealthy => ?_⟩
  · have hsent : shown <+: (s.servers id).frames := hfront.trans (List.take_prefix _ _)
    exact (sentOn_front _ hsent).trans (hserved.passes kind).prefix_produced
  · have hshown := hall (hcurrent.symm.trans hid.symm) hhealthy
    refine ⟨hshown, fun harrived hidle kind => ?_⟩
    rw [hshown, harrived, List.take_length]
    exact (hserved.passes kind).complete (hidle kind).1 (hidle kind).2

/-- The shell prints one letter, and it is shown. -/
def printedLetter : List (LinkAction Nat HookAction Action) :=
  let answers : Answers := ⟨fun _ => 0, fun _ => true, none⟩
  [.client (.connect 7 true), .client (.callback 1 (.readyState .opened) answers),
    .server 1 (.connect []), .server 1 (.produce .stdout [0x42]),
    .server 1 (.read .stdout 1 .more), .server 1 (.send .stdout true),
    .client (.callback 1 (.onmessage (.binary [0x04])) answers),
    .client (.callback 1 (.onmessage (.binary [0x00, 0x42])) answers)]

theorem output_reaches_screen_letter :
    ∃ s c, play (sessions ⟨fun _ => [], fun _ => none⟩).step (sessions ⟨fun _ => [], fun _ => none⟩).start
        printedLetter = some s ∧ s.client.connections 1 = some c ∧ c.written = [[0x42]] ∧
      ∃ shown, shown <+: (s.servers 1).frames.take (s.repliesTaken 1) ∧
        c.written = shown.filterMap screenPayload := by
  have hview : (play (sessions ⟨fun _ => [], fun _ => none⟩).step
      (sessions ⟨fun _ => [], fun _ => none⟩).start printedLetter).map
        (fun s => (s.client.connections 1).map Connection.written) = some (some [[0x42]]) := by
    rfl
  obtain ⟨s, hrun, hstate⟩ := Option.map_eq_some_iff.mp hview
  obtain ⟨c, hc, hwritten⟩ := Option.map_eq_some_iff.mp hstate
  obtain ⟨shown, hfront, hshown, -⟩ := output_reaches_screen hrun hc
  exact ⟨s, c, hrun, hc, hwritten, shown, hfront, hshown⟩

/-! ## Before the greeting -/

/--
A connection that says it is connected, has taken input, has sent a frame or shows anything
belongs to a session whose shell has been started; a session whose shell has not been started
has received nothing and acted on nothing.
-/
theorem nothing_before_greeting
    (run : play (sessions decoders).step (sessions decoders).start actions = some s)
    (opened : s.client.connections id = some c) :
    let t := s.servers id
    (c.connected ∨ c.accepted ≠ [] ∨ c.sent ≠ [] ∨ c.written ≠ [] → t.phase = .running) ∧
    (t.phase ≠ .running → t.input.received = [] ∧ t.input.acted = []) := by
  have hshows := (showing_of_run run).shows id c opened
  have hserved := served_of_run run id
  have hgreeted : (∃ data ∈ (sessions decoders).toClient s id, Greeting data) →
      (s.servers id).phase = .running := by
    rintro ⟨data, hdata, payload, rfl⟩
    obtain ⟨frame, hframe, hbinary⟩ := List.mem_map.mp (List.mem_of_mem_take hdata)
    refine hserved.course.running_of_mem hframe ?_
    rw [MessageData.binary.inj hbinary]
    exact fun hhead => absurd (Option.some.inj hhead) (by decide)
  refine ⟨?_, fun hphase => ⟨?_, (hserved.waits hphase).2⟩⟩
  · rintro (hconnected | haccepted | hsent | hwritten)
    · exact hgreeted (hshows.greeted (.inl hconnected))
    · exact hgreeted (hshows.greeted (.inr (.inr haccepted)))
    · exact hgreeted (hshows.greeted (.inr (.inl hsent)))
    · obtain ⟨shown, hfront, hshown, -⟩ := shown_frames hshows
      rw [hshown] at hwritten
      obtain ⟨payload, hpayload⟩ := List.exists_mem_of_ne_nil _ hwritten
      obtain ⟨frame, hframe, hoffered⟩ := List.mem_filterMap.mp hpayload
      refine hserved.course.running_of_mem
        (List.mem_of_mem_take (hfront.subset hframe)) fun hhead => ?_
      cases frame with
      | nil => cases hhead
      | cons kind rest =>
          obtain rfl := Option.some.inj hhead
          cases hoffered
  · have hunsent : c.sent = [] := Classical.not_not.mp fun hsent =>
      hphase (hgreeted (hshows.greeted (.inr (.inl hsent))))
    rw [(typed_reaches_shell run opened).1, hunsent, List.take_nil]

theorem nothing_before_greeting_dialing :
    ∃ s c, play (sessions ⟨fun _ => [], fun _ => none⟩).step (sessions ⟨fun _ => [], fun _ => none⟩).start
        [.client (.connect 7 true)] = some s ∧ s.client.connections 1 = some c ∧
      (s.servers 1).phase = .dialing ∧ (s.servers 1).input.received = [] := by
  have hview : (play (sessions ⟨fun _ => [], fun _ => none⟩).step
      (sessions ⟨fun _ => [], fun _ => none⟩).start [.client (.connect 7 true)]).map
        (fun s => ((s.client.connections 1).isSome, (s.servers 1).phase)) =
          some (true, .dialing) := by
    rfl
  obtain ⟨s, hrun, hstate⟩ := Option.map_eq_some_iff.mp hview
  obtain ⟨hopened, hphase⟩ := Prod.mk.inj hstate
  obtain ⟨c, hc⟩ := Option.isSome_iff_exists.mp hopened
  have hwaiting : (s.servers 1).phase ≠ .running := by
    rw [hphase]
    nofun
  exact ⟨s, c, hrun, hc, hphase, ((nothing_before_greeting hrun hc).2 hwaiting).1⟩

end OpsUp.EndToEnd
