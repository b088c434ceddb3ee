import OpsUp.Ui.InputPump

/-!
# What a connection sends and shows

A connection gives only two kinds of frames to its socket, and none before the greeting of
the server; what its terminal shows is the output among the messages it has taken, up to
the one after which it failed or was superseded.
-/

namespace OpsUp.Ui

open OpsUp.Go OpsUp.Js OpsUp.Interaction

variable {answers : Answers} {decoders : Decoders} {s t u : Scope}

def StdinFrame (frame : Bytes) : Prop :=
  ∃ payload, frame = stdinFrame payload ∧ 0 < payload.length ∧ payload.length ≤ inputChunkBytes

/-- The frames that the client builds. -/
def ClientFrame (frame : Bytes) : Prop :=
  StdinFrame frame ∨ ∃ cols rows, frame = resizeFrame cols rows

theorem stdinFrame_of_mem {data : JsString} {frame : Bytes} (mem : frame ∈ inputFrames data) :
    StdinFrame frame := by
  obtain ⟨payloads, hframes, -, hlengths⟩ := inputFrames_payloads data
  rw [hframes] at mem
  obtain ⟨payload, hpayload, rfl⟩ := List.mem_map.mp mem
  exact ⟨payload, rfl, hlengths payload hpayload⟩

theorem ClientFrame.content {frame : Bytes} (built : ClientFrame frame) : frame ≠ [] := by
  rcases built with ⟨payload, rfl, -⟩ | ⟨cols, rows, rfl⟩
  · exact List.cons_ne_nil _ _
  · exact List.cons_ne_nil _ _

/-! ## Sending -/

/-- What a closure may do that takes no message: it sends queued frames and frames it builds,
only while the session is ready, and writes nothing to the terminal. -/
structure Sends (s t : Scope) : Prop where
  written : t.written = s.written
  connected : t.connected → s.connected
  queue : ∀ frame ∈ t.queue, frame ∈ s.queue ∨ StdinFrame frame
  sent : ∃ new, t.sent = s.sent ++ new ∧ ∀ frame ∈ new, frame ∈ s.queue ∨ ClientFrame frame
  silent : ¬ s.connected → t.sent = s.sent ∧ t.accepted = s.accepted

theorem Sends.of_same (written : t.written = s.written) (connected : t.connected → s.connected)
    (queue : ∀ frame ∈ t.queue, frame ∈ s.queue) (sent : t.sent = s.sent)
    (accepted : t.accepted = s.accepted) : Sends s t where
  written := written
  connected := connected
  queue := fun frame hframe => .inl (queue frame hframe)
  sent := ⟨[], by rw [sent, List.append_nil], nofun⟩
  silent := fun _ => ⟨sent, accepted⟩

theorem Sends.refl (s : Scope) : Sends s s :=
  .of_same rfl id (fun _ hframe => hframe) rfl rfl

theorem Sends.trans (first : Sends s t) (second : Sends t u) : Sends s u where
  written := second.written.trans first.written
  connected := fun hconnected => first.connected (second.connected hconnected)
  queue := by
    intro frame hframe
    rcases second.queue frame hframe with hqueued | hbuilt
    · exact first.queue frame hqueued
    · exact .inr hbuilt
  sent := by
    obtain ⟨early, hearly, hfirst⟩ := first.sent
    obtain ⟨late, hlate, hsecond⟩ := second.sent
    refine ⟨early ++ late, ?_, fun frame hframe => ?_⟩
    · rw [hlate, hearly, List.append_assoc]
    · rcases List.mem_append.mp hframe with hold | hnew
      · exact hfirst frame hold
      · rcases hsecond frame hnew with hqueued | hbuilt
        · exact (first.queue frame hqueued).imp id .inl
        · exact .inr hbuilt
  silent := by
    intro hunready
    obtain ⟨hsent, haccepted⟩ := first.silent hunready
    obtain ⟨hsent', haccepted'⟩ := second.silent (mt first.connected hunready)
    exact ⟨hsent'.trans hsent, haccepted'.trans haccepted⟩

namespace Scope

theorem sends_fail (message : JsString) (bufferedAmount : Nat) (s : Scope) :
    Sends s (s.fail message bufferedAmount) := by
  unfold fail
  split
  · exact .refl s
  · exact .of_same rfl nofun nofun rfl rfl

theorem mem_queue_of_mem_queued {frame : Bytes} (mem : frame ∈ s.queued) : frame ∈ s.queue :=
  List.mem_of_mem_drop mem

theorem sends_advance (connected : s.connected) (count : Nat) : Sends s (s.advance count) where
  written := rfl
  connected := id
  queue := fun _ hframe => .inl hframe
  sent := ⟨s.queued.take count, rfl, fun _ hframe =>
    .inl (mem_queue_of_mem_queued (List.mem_of_mem_take hframe))⟩
  silent := fun hunready => absurd connected hunready

theorem sends_pump (answers : Answers) (s : Scope) : Sends s (s.pump answers) := by
  have hcleared : Sends s { s with pumpTimer := none } :=
    .of_same rfl id (fun _ hframe => hframe) rfl rfl
  rcases pump_cases answers s with ⟨-, hpump⟩ | ⟨hsendable, count, t, -, rfl, hpump⟩
  · rw [hpump]
    exact hcleared
  · have hadvanced : Sends s ({ s with pumpTimer := none }.advance count) :=
      hcleared.trans (sends_advance (s := { s with pumpTimer := none }) hsendable.2.1 count)
    rcases hpump with ⟨bufferedAmount, hpump⟩ | ⟨-, hpump⟩ | ⟨-, hpump⟩
    · rw [hpump]
      exact hadvanced.trans (sends_fail _ _ _)
    · rw [hpump]
      exact hadvanced.trans (.of_same rfl id (fun _ hframe => hframe) rfl rfl)
    · rw [hpump]
      exact hadvanced.trans (.of_same rfl id nofun rfl rfl)

theorem sends_send (data : JsString) (answers : Answers) (s : Scope) :
    Sends s (s.send data answers) := by
  unfold send
  split
  · exact .refl s
  · next hblocked =>
      have hconnected : s.connected := (Classical.not_not.mp hblocked).2.1
      have hqueued : Sends s { s with
          queue := s.queue ++ inputFrames data, accepted := s.accepted ++ [data] } := by
        refine ⟨rfl, id, ?_, ⟨[], (List.append_nil _).symm, nofun⟩,
          fun hunready => absurd hconnected hunready⟩
        intro frame hframe
        exact (List.mem_append.mp hframe).imp id stdinFrame_of_mem
      dsimp only
      split
      · exact hqueued.trans (sends_pump answers _)
      · exact hqueued

theorem sends_sendResize (answers : Answers) (s : Scope) : Sends s (s.sendResize answers) := by
  unfold sendResize
  split
  · exact .refl s
  · next hblocked =>
      have hconnected : s.connected := (Classical.not_not.mp hblocked).2.1
      have hsent : Sends s { s with sent := s.sent ++ [resizeFrame s.cols s.rows] } := by
        refine ⟨rfl, id, fun _ hframe => .inl hframe, ⟨_, rfl, fun frame hframe => ?_⟩,
          fun hunready => absurd hconnected hunready⟩
        exact .inr (.inr ⟨s.cols, s.rows, List.mem_singleton.mp hframe⟩)
      dsimp only
      split
      · exact hsent
      · exact hsent.trans (sends_fail _ _ _)

theorem sends_later (task : Delayed) (s : Scope) : Sends s (s.later task) :=
  .of_same rfl id (fun _ hframe => hframe) rfl rfl

theorem sends_doFit (fitted : Option (Nat × Nat)) (s : Scope) : Sends s (s.doFit fitted) := by
  rcases fitted with _ | ⟨cols, rows⟩
  · exact .refl s
  · dsimp only [doFit]
    unfold onResize
    split
    · exact .of_same rfl id (fun _ hframe => hframe) rfl rfl
    · cases s.resizeTimer with
      | none => exact .of_same rfl id (fun _ hframe => hframe) rfl rfl
      | some timer => exact .of_same rfl id (fun _ hframe => hframe) rfl rfl

theorem sends_fitAndResize (answers : Answers) (s : Scope) : Sends s (s.fitAndResize answers) :=
  (sends_doFit answers.fitted s).trans (sends_sendResize answers _)

theorem sends_fire (timer : Nat) (task : Delayed) (answers : Answers) (s : Scope) :
    Sends s (s.fire timer task answers) := by
  have hdeleted : Sends s (s.deleteTimer timer) :=
    .of_same rfl id (fun _ hframe => hframe) rfl rfl
  unfold fire
  dsimp only
  split
  · exact hdeleted
  · cases task with
    | pump => exact hdeleted.trans (sends_pump answers _)
    | sendResize => exact hdeleted.trans (sends_sendResize answers _)
    | fitAndResize => exact hdeleted.trans (sends_fitAndResize answers _)

/-- All callbacks but the handler of messages. -/
theorem sends_step {callback : Callback} (step : s.step decoders answers callback = some t)
    (other : ∀ data, callback ≠ .onmessage data) : Sends s t := by
  cases called_of_step step with
  | readyState => exact .of_same rfl id (fun _ hframe => hframe) rfl rfl
  | onmessage => exact absurd rfl (other _)
  | onclose => exact sends_fail _ _ s
  | onerror => exact sends_fail _ _ s
  | timer => exact sends_fire _ _ answers s
  | animationFrame =>
      split
      · exact sends_doFit answers.fitted s
      · exact .refl s
  | observed =>
      split
      · exact sends_fitAndResize answers s
      · exact .refl s
  | onData => exact sends_send _ answers s
  | onResize => exact sends_doFit _ s

end Scope

/-! ## Messages -/

/-- What a message has the terminal show. -/
def outputPayload : MessageData → Option Bytes
  | .binary (kind :: payload) => if kind = 0x00 ∨ kind = 0x01 then some payload else none
  | _ => none

/-- The frame after which the session is ready. -/
def Greeting (data : MessageData) : Prop := ∃ payload, data = .binary (0x04 :: payload)

/-- The session is ready. -/
def Scope.ready (s : Scope) : Scope := { s with connected := true, status := .connected }

/-- The handler of messages shows output, or notes the greeting, and otherwise takes no more
part in what is shown or sent than other closures. -/
theorem Scope.onmessage_cases (data : MessageData) (healthy : ¬ (¬ s.current ∨ s.failed)) :
    (∃ payload, outputPayload data = some payload ∧
      s.onmessage decoders data answers = { s with written := s.written ++ [payload] }) ∨
    (Greeting data ∧ outputPayload data = none ∧
      Sends s.ready (s.onmessage decoders data answers)) ∨
    (outputPayload data = none ∧ Sends s (s.onmessage decoders data answers)) := by
  unfold Scope.onmessage
  rw [if_neg healthy]
  rcases data with text | _ | ⟨kind, payload⟩
  · exact .inr (.inr ⟨rfl, .refl s⟩)
  · exact .inr (.inr ⟨rfl, .refl s⟩)
  · dsimp only [outputPayload]
    split
    · exact .inl ⟨payload, rfl, rfl⟩
    · split
      · exact .inr (.inr ⟨rfl, sends_fail _ _ s⟩)
      · split
        · split
          · exact .inr (.inr ⟨rfl, .refl s⟩)
          · split
            · exact .inr (.inr ⟨rfl, sends_fail _ _ s⟩)
            · exact .inr (.inr ⟨rfl, .refl s⟩)
        · split
          · next hgreeting =>
              have hready : Sends s.ready (((s.ready.fitAndResize answers).later
                  .fitAndResize).later .fitAndResize) :=
                ((sends_fitAndResize answers s.ready).trans (sends_later _ _)).trans
                  (sends_later _ _)
              exact .inr (.inl ⟨⟨payload, by rw [hgreeting]⟩, rfl, hready⟩)
          · exact .inr (.inr ⟨rfl, .refl s⟩)

/-- What was sent stays sent. -/
theorem Scope.sent_prefix {callback : Callback} (step : s.step decoders answers callback = some t) :
    s.sent <+: t.sent := by
  by_cases hmessage : ∃ data, callback = .onmessage data
  · obtain ⟨data, rfl⟩ := hmessage
    obtain rfl := Option.some.inj step
    by_cases hstopped : ¬ s.current ∨ s.failed
    · have hsame : s.onmessage decoders data answers = s := if_pos hstopped
      exact hsame.symm ▸ List.prefix_refl _
    · rcases Scope.onmessage_cases data hstopped with ⟨payload, -, hnext⟩ | ⟨-, -, hsends⟩ |
        ⟨-, hsends⟩
      · exact hnext.symm ▸ List.prefix_refl _
      · obtain ⟨new, hsent, -⟩ := hsends.sent
        exact ⟨new, hsent.symm⟩
      · obtain ⟨new, hsent, -⟩ := hsends.sent
        exact ⟨new, hsent.symm⟩
  · obtain ⟨new, hsent, -⟩ := (sends_step step (not_exists.mp hmessage)).sent
    exact ⟨new, hsent.symm⟩

/-! ## One connection and the messages it has taken -/

/-- The frames of a connection are well formed, none was sent before the greeting, and the
terminal shows the output of the first messages, of all of them while the connection is
current and has not failed. -/
structure Shows (taken : List MessageData) (s : Scope) : Prop where
  queue : ∀ frame ∈ s.queue, StdinFrame frame
  sent : ∀ frame ∈ s.sent, ClientFrame frame
  greeted : s.connected ∨ s.sent ≠ [] ∨ s.accepted ≠ [] → ∃ data ∈ taken, Greeting data
  shown : ∃ shown, shown <+: taken ∧ s.written = shown.filterMap outputPayload ∧
    (s.current → ¬ s.failed → shown = taken)

variable {taken : List MessageData}

theorem Shows.sends (shows : Shows taken s) (sends : Sends s t) (current : t.current → s.current)
    (failed : s.failed → t.failed) : Shows taken t where
  queue := by
    intro frame hframe
    exact (sends.queue frame hframe).elim (shows.queue frame) id
  sent := by
    obtain ⟨new, hsent, hnew⟩ := sends.sent
    intro frame hframe
    rw [hsent] at hframe
    rcases List.mem_append.mp hframe with hold | hlate
    · exact shows.sent frame hold
    · exact (hnew frame hlate).elim (fun hqueued => .inl (shows.queue frame hqueued)) id
  greeted := by
    intro hactive
    by_cases hconnected : s.connected
    · exact shows.greeted (.inl hconnected)
    · obtain ⟨hsent, haccepted⟩ := sends.silent hconnected
      rcases hactive with hready | hsome | hsome
      · exact absurd (sends.connected hready) hconnected
      · exact shows.greeted (.inr (.inl (hsent ▸ hsome)))
      · exact shows.greeted (.inr (.inr (haccepted ▸ hsome)))
  shown := by
    obtain ⟨shown, hprefix, hwritten, hall⟩ := shows.shown
    refine ⟨shown, hprefix, sends.written.trans hwritten, fun hcurrent hhealthy => ?_⟩
    exact hall (current hcurrent) (mt failed hhealthy)

/-- A message that the connection does not look at. -/
theorem Shows.ignore (shows : Shows taken s) (stopped : ¬ s.current ∨ s.failed)
    (data : MessageData) : Shows (taken ++ [data]) s where
  queue := shows.queue
  sent := shows.sent
  greeted := by
    intro hactive
    obtain ⟨greeting, hmem, hgreeting⟩ := shows.greeted hactive
    exact ⟨greeting, List.mem_append_left _ hmem, hgreeting⟩
  shown := by
    obtain ⟨shown, hprefix, hwritten, -⟩ := shows.shown
    refine ⟨shown, hprefix.trans (List.prefix_append _ _), hwritten, ?_⟩
    exact fun hcurrent hhealthy => (stopped.elim (absurd hcurrent) hhealthy).elim

/-- A message that is looked at and shows nothing. -/
theorem Shows.silent (shows : Shows taken s) (healthy : ¬ (¬ s.current ∨ s.failed))
    {data : MessageData} (quiet : outputPayload data = none) : Shows (taken ++ [data]) s where
  queue := shows.queue
  sent := shows.sent
  greeted := by
    intro hactive
    obtain ⟨greeting, hmem, hgreeting⟩ := shows.greeted hactive
    exact ⟨greeting, List.mem_append_left _ hmem, hgreeting⟩
  shown := by
    obtain ⟨shown, -, hwritten, hall⟩ := shows.shown
    obtain ⟨hcurrent, hworking⟩ := not_or.mp healthy
    obtain rfl := hall (Classical.not_not.mp hcurrent) hworking
    refine ⟨shown ++ [data], List.prefix_refl _, ?_, fun _ _ => rfl⟩
    rw [hwritten, List.filterMap_append, List.filterMap_cons, quiet]
    exact (List.append_nil _).symm

theorem Shows.onmessage (shows : Shows taken s) (data : MessageData) :
    Shows (taken ++ [data]) (s.onmessage decoders data answers) := by
  have hfollows := Scope.follows_onmessage decoders data answers s
  by_cases hstopped : ¬ s.current ∨ s.failed
  · have hsame : s.onmessage decoders data answers = s := by
      unfold Scope.onmessage
      exact if_pos hstopped
    rw [hsame]
    exact shows.ignore hstopped data
  · rcases Scope.onmessage_cases data hstopped with ⟨payload, houtput, hnext⟩ |
      ⟨hgreeting, hquiet, hsends⟩ | ⟨hquiet, hsends⟩
    · rw [hnext]
      obtain ⟨shown, -, hwritten, hall⟩ := shows.shown
      obtain ⟨hcurrent, hworking⟩ := not_or.mp hstopped
      obtain rfl := hall (Classical.not_not.mp hcurrent) hworking
      refine ⟨shows.queue, shows.sent, fun hactive => ?_, shown ++ [data], List.prefix_refl _, ?_,
        fun _ _ => rfl⟩
      · obtain ⟨greeting, hmem, hgreeting⟩ := shows.greeted hactive
        exact ⟨greeting, List.mem_append_left _ hmem, hgreeting⟩
      · rw [hwritten, List.filterMap_append, List.filterMap_cons, houtput]
        rfl
    · have hquieted := shows.silent hstopped hquiet
      have hready : Shows (taken ++ [data]) s.ready := by
        refine ⟨hquieted.queue, hquieted.sent, fun _ => ?_, hquieted.shown⟩
        exact ⟨data, List.mem_append_right _ (List.mem_singleton.mpr rfl), hgreeting⟩
      exact hready.sends hsends hfollows.current.mp hfollows.failed
    · exact (shows.silent hstopped hquiet).sends hsends hfollows.current.mp hfollows.failed

theorem Shows.of_shared {shared other : Shared} {c : Connection} (shows : Shows taken ⟨shared, c⟩)
    (same : other.generation = c.id → shared.generation = c.id) : Shows taken ⟨other, c⟩ where
  queue := shows.queue
  sent := shows.sent
  greeted := shows.greeted
  shown := by
    obtain ⟨shown, hprefix, hwritten, hall⟩ := shows.shown
    exact ⟨shown, hprefix, hwritten, fun hcurrent => hall (same hcurrent)⟩

theorem Shows.cleanup {shared other : Shared} {c : Connection} (shows : Shows taken ⟨shared, c⟩)
    (superseded : other.generation ≠ c.id) : Shows taken ⟨other, c.cleanup⟩ where
  queue := nofun
  sent := shows.sent
  greeted := fun hactive => shows.greeted (.inr (hactive.resolve_left nofun))
  shown := by
    obtain ⟨shown, hprefix, hwritten, -⟩ := shows.shown
    exact ⟨shown, hprefix, hwritten, fun hcurrent => absurd hcurrent superseded⟩

theorem shows_opened {shared : Shared} (id : Nat) (serverId : Int) :
    Shows [] ⟨shared, .opened id serverId⟩ where
  queue := nofun
  sent := nofun
  greeted := by
    rintro (hconnected | hsent | haccepted)
    · cases hconnected
    · exact absurd rfl hsent
    · exact absurd rfl haccepted
  shown := ⟨[], List.prefix_refl _, rfl, fun _ _ => rfl⟩

/-! ## All connections -/

/-- The message that an action takes from a socket, and the connection of that socket. -/
def HookAction.takes : HookAction → Option (Nat × MessageData)
  | .callback id (.onmessage data) _ => some (id, data)
  | _ => none

namespace Hook

variable {h next : Hook} {action : HookAction}

/-- What an action makes of the connection of one generation. -/
inductive Evolves (decoders : Decoders) (h next : Hook) (action : HookAction) (id : Nat) :
    Option Connection → Option Connection → Prop where
  | absent (other : ∀ callback, h.acts action ≠ some (id, callback)) :
      Evolves decoders h next action id none none
  | opened (serverId : Int) (other : ∀ callback, h.acts action ≠ some (id, callback)) :
      Evolves decoders h next action id none (some (.opened id serverId))
  | kept (c : Connection) (other : ∀ callback, h.acts action ≠ some (id, callback))
      (current : next.generation = c.id → h.generation = c.id) :
      Evolves decoders h next action id (some c) (some c)
  | cleaned (c : Connection) (other : ∀ callback, h.acts action ≠ some (id, callback))
      (superseded : next.generation ≠ c.id) :
      Evolves decoders h next action id (some c) (some c.cleanup)
  | called (c : Connection) (callback : Callback) (scope : Scope)
      (acts : h.acts action = some (id, callback))
      (step : Scope.step decoders action.answers ⟨h.toShared, c⟩ callback = some scope)
      (shared : next.toShared = scope.toShared) :
      Evolves decoders h next action id (some c) (some scope.toConnection)

/-- Nothing happens to a connection. -/
theorem Evolves.still {connection : Option Connection} {id : Nat}
    (other : ∀ callback, h.acts action ≠ some (id, callback))
    (current : ∀ c, connection = some c → next.generation = c.id → h.generation = c.id) :
    Evolves decoders h next action id connection connection := by
  cases connection with
  | none => exact .absent other
  | some c => exact .kept c other (current c rfl)

theorem Consistent.evolves_cleanup (consistent : Consistent h) {id : Nat}
    (other : ∀ callback, h.acts action ≠ some (id, callback)) :
    Evolves decoders h h.cleanup action id (h.connections id) (h.cleanup.connections id) := by
  rcases h.cleanup_cases with ⟨-, hcleanup⟩ | ⟨latest, href, hcleanup⟩
  · rw [hcleanup]
    exact .still other fun _ _ hcurrent => hcurrent
  · obtain rfl := consistent.refs latest href
    rw [hcleanup]
    dsimp only
    rw [Function.update_apply]
    split
    · next hsame =>
        obtain rfl := hsame
        cases hconnection : h.connections h.generation with
        | none => exact .absent other
        | some c =>
            refine .cleaned c other fun hcurrent => ?_
            obtain ⟨hid, -⟩ := consistent.named _ c hconnection
            rw [hid] at hcurrent
            exact Nat.succ_ne_self _ hcurrent
    · refine .still other fun c hc hcurrent => ?_
      obtain ⟨hid, hle⟩ := consistent.named id c hc
      dsimp only at hcurrent
      omega

/-- With a later generation still. -/
theorem Evolves.supersede {later : Hook} {id : Nat} {before after : Option Connection}
    (evolves : Evolves decoders h next action id before after)
    (other : ∀ callback, h.acts action ≠ some (id, callback))
    (older : ∀ c, after = some c → later.generation ≠ c.id) :
    Evolves decoders h later action id before after := by
  cases evolves with
  | absent => exact .absent other
  | opened serverId => exact .opened serverId other
  | kept c _ _ => exact .kept c other fun hcurrent => absurd hcurrent (older c rfl)
  | cleaned c _ _ => exact .cleaned c other (older c.cleanup rfl)
  | called c callback _ hacts _ _ => exact absurd hacts (other callback)

theorem Consistent.evolves_connect (consistent : Consistent h) {id : Nat} (serverId : Int)
    (ready : Bool) (other : ∀ callback, h.acts action ≠ some (id, callback)) :
    Evolves decoders h (h.connect serverId ready) action id (h.connections id)
      ((h.connect serverId ready).connections id) := by
  have hcleaned := consistent.cleanup
  have hevolves := @Consistent.evolves_cleanup decoders h action consistent id other
  unfold Hook.connect
  generalize h.cleanup = t at hcleaned hevolves
  have holder : ∀ c, t.connections id = some c → t.generation + 1 ≠ c.id := by
    intro c hc hcurrent
    obtain ⟨hid, hle⟩ := hcleaned.named id c hc
    omega
  dsimp only
  split
  · dsimp only
    rw [Function.update_apply]
    split
    · next hnew =>
        obtain rfl := hnew
        rw [hcleaned.none_next] at hevolves
        generalize h.connections (t.generation + 1) = before at hevolves ⊢
        cases hevolves with
        | absent => exact .opened serverId other
    · exact hevolves.supersede other holder
  · exact hevolves.supersede other holder

theorem Consistent.evolves (consistent : Consistent h)
    (step : h.step decoders action = some next) (id : Nat) :
    Evolves decoders h next action id (h.connections id) (next.connections id) := by
  rcases step_acts step with ⟨hacts, hquiet⟩ | ⟨named, c, callback, scope, hacts, hopened, hscope, rfl⟩
  · have hother : ∀ callback, h.acts action ≠ some (id, callback) := by
      rw [hacts]
      exact fun _ => nofun
    rcases hquiet with ⟨serverId, ready, -, rfl⟩ | rfl | rfl
    · exact consistent.evolves_connect serverId ready hother
    · exact consistent.evolves_cleanup hother
    · exact .still hother fun _ _ hcurrent => hcurrent
  · dsimp only [Hook.put]
    rw [Function.update_apply]
    split
    · next hsame =>
        obtain rfl := hsame
        rw [hopened]
        exact .called c callback scope hacts hscope rfl
    · next hother =>
        refine .still (fun callback hcalled => ?_) fun d _ hcurrent => ?_
        · rw [hacts] at hcalled
          exact hother (Prod.mk.inj (Option.some.inj hcalled)).1.symm
        · exact (Scope.follows_step hscope).generation.symm.trans hcurrent

/-- What a connection has given to its socket. -/
def sentTo (h : Hook) (id : Nat) : List Bytes :=
  match h.connections id with
  | none => []
  | some c => c.sent

theorem sentTo_of_opened {id : Nat} {c : Connection} (opened : h.connections id = some c) :
    h.sentTo id = c.sent := by
  rw [sentTo, opened]

theorem Consistent.sentTo_prefix (consistent : Consistent h)
    (step : h.step decoders action = some next) (id : Nat) : h.sentTo id <+: next.sentTo id := by
  have hevolves := consistent.evolves step id
  unfold sentTo
  generalize h.connections id = before at hevolves ⊢
  generalize next.connections id = after at hevolves ⊢
  cases hevolves with
  | absent => exact List.prefix_refl _
  | opened serverId => exact List.nil_prefix
  | kept c _ _ => exact List.prefix_refl _
  | cleaned c _ _ => exact List.prefix_refl _
  | called c callback scope _ hscope _ => exact Scope.sent_prefix hscope

/-- Every connection shows what it has taken. -/
structure Showing (taken : Nat → List MessageData) (h : Hook) : Prop where
  shows : ∀ id c, h.connections id = some c → Shows (taken id) ⟨h.toShared, c⟩
  unopened : ∀ id, h.connections id = none → taken id = []

theorem showing_initial : Showing (fun _ => []) initial := ⟨nofun, fun _ _ => rfl⟩

theorem acts_of_takes {id : Nat} {data : MessageData} (takes : action.takes = some (id, data)) :
    h.acts action = some (id, .onmessage data) := by
  unfold HookAction.takes at takes
  split at takes
  · obtain ⟨rfl, rfl⟩ := Prod.mk.inj (Option.some.inj takes)
    rfl
  · cases takes

theorem takes_of_acts {id : Nat} {data : MessageData}
    (acts : h.acts action = some (id, .onmessage data)) : action.takes = some (id, data) := by
  cases action with
  | connect serverId ready => cases acts
  | cleanup => cases acts
  | callback other callback answers =>
      obtain ⟨rfl, rfl⟩ := Prod.mk.inj (Option.some.inj acts)
      rfl
  | sendShortcut text answers =>
      obtain ⟨other, -, hpair⟩ := Option.map_eq_some_iff.mp acts
      cases (Prod.mk.inj hpair).2
  | fit fitted =>
      rcases fitted with _ | ⟨cols, rows⟩
      · cases acts
      · obtain ⟨other, -, hpair⟩ := Option.map_eq_some_iff.mp acts
        cases (Prod.mk.inj hpair).2

/-- The messages that an action takes for a connection. -/
def given (action : HookAction) (id : Nat) : List MessageData :=
  match action.takes with
  | none => []
  | some (other, data) => if other = id then [data] else []

theorem given_of_takes {id : Nat} {data : MessageData} (takes : action.takes = some (id, data)) :
    given action id = [data] := by
  rw [given, takes]
  exact if_pos rfl

theorem given_eq_nil {id : Nat} (other : ∀ data, action.takes ≠ some (id, data)) :
    given action id = [] := by
  unfold given
  split
  · rfl
  · next named data htakes =>
      refine if_neg fun hsame => ?_
      obtain rfl := hsame
      exact other data htakes

theorem given_of_uncalled {id : Nat} (other : ∀ callback, h.acts action ≠ some (id, callback)) :
    given action id = [] :=
  given_eq_nil fun _ htakes => other _ (acts_of_takes htakes)

/-- One connection and what it has taken, after an action. -/
theorem Evolves.shows {id : Nat} {before after : Option Connection}
    (evolves : Evolves decoders h next action id before after)
    (shows : ∀ c, before = some c → Shows taken ⟨h.toShared, c⟩)
    (unopened : before = none → taken = []) :
    (∀ c, after = some c → Shows (taken ++ given action id) ⟨next.toShared, c⟩) ∧
      (after = none → taken ++ given action id = []) := by
  cases evolves with
  | absent hother =>
      rw [given_of_uncalled hother, List.append_nil]
      exact ⟨nofun, unopened⟩
  | opened serverId hother =>
      rw [given_of_uncalled hother, List.append_nil, unopened rfl]
      refine ⟨fun c hc => ?_, nofun⟩
      obtain rfl := Option.some.inj hc
      exact shows_opened id serverId
  | kept c hother hcurrent =>
      rw [given_of_uncalled hother, List.append_nil]
      refine ⟨fun d hd => ?_, nofun⟩
      obtain rfl := Option.some.inj hd
      exact (shows c rfl).of_shared hcurrent
  | cleaned c hother hsuperseded =>
      rw [given_of_uncalled hother, List.append_nil]
      refine ⟨fun d hd => ?_, nofun⟩
      obtain rfl := Option.some.inj hd
      exact (shows c rfl).cleanup hsuperseded
  | called c callback scope hacts hstep hshared =>
      refine ⟨fun d hd => ?_, nofun⟩
      obtain rfl := Option.some.inj hd
      rw [hshared]
      by_cases hmessage : ∃ data, callback = .onmessage data
      · obtain ⟨data, rfl⟩ := hmessage
        rw [given_of_takes (takes_of_acts hacts)]
        obtain rfl := Option.some.inj hstep
        exact (shows c rfl).onmessage data
      · rw [not_exists] at hmessage
        have hgiven : given action id = [] := by
          refine given_eq_nil fun data htakes => ?_
          have hsame := hacts.symm.trans (acts_of_takes htakes)
          exact hmessage data (Prod.mk.inj (Option.some.inj hsame)).2
        rw [hgiven, List.append_nil]
        have hfollows := Scope.follows_step hstep
        exact (shows c rfl).sends (Scope.sends_step hstep hmessage) hfollows.current.mp
          hfollows.failed

theorem Showing.step {taken : Nat → List MessageData} (showing : Showing taken h)
    (consistent : Consistent h) (step : h.step decoders action = some next) :
    Showing (fun id => taken id ++ given action id) next := by
  have hshows := fun id =>
    (consistent.evolves step id).shows (showing.shows id) (showing.unopened id)
  exact ⟨fun id => (hshows id).1, fun id => (hshows id).2⟩

end Hook

end OpsUp.Ui
