import OpsUp.Ui.RdpConnections

/-!
# A remote desktop tab and its frame

`RdpTab` and the document in its frame post messages to each other.  The tab is rendered
anew, its effects run late, the frame is reloaded, and messages are lost while nobody listens;
a run is any interleaving of these.
-/

namespace OpsUp.Ui

open OpsUp.Interaction OpsUp.Models

/-- The component, the frame as the browser has it, and the messages under way; a message for
the frame is for the document that the frame shows when it is posted. -/
structure RdpTab where
  server : ServerListItem
  isActive : Bool
  mounted : Bool
  /-- what `send` of the last effect has captured -/
  effect : Option (ServerListItem × Bool)
  /-- the effect is due again -/
  stale : Bool
  /-- `localStorage.getItem('opsup_token')` -/
  storage : Option String
  /-- the calls of `onStatusChange` -/
  reported : List ConnectionStatus
  /-- the number of the document, and its client when the script has run -/
  document : Nat
  frame : Option RdpClient
  /-- `pagehide` has reached the document -/
  hidden : Bool
  earlier : List RdpClient
  toFrame : List (Nat × RdpInit)
  toTab : List RdpNotice
  /-- what was posted to the frame so far -/
  sent : List RdpInit

/-- What happens to the tab and its frame.  With `changed` a rendering brings another callback
or another object for the same record; the flags of a message say whether it is of the same
origin and from the other side. -/
inductive RdpTabAction where
  | renders (server : ServerListItem) (isActive changed : Bool)
  | effects
  | stores (token : Option String)
  | scriptRuns
  | hides
  | replaces
  | takes (width height : Nat)
  | hears
  | outsiderToTab (ownOrigin ownSource : Bool) (notice : RdpNotice)
  | outsiderToFrame (ownOrigin ownSource : Bool) (init : RdpInit) (width height : Nat)
  | works (action : RdpClientAction)
  | unmounts

namespace RdpTab

/-- After the first rendering. -/
def initial (server : ServerListItem) (isActive : Bool) (storage : Option String) : RdpTab where
  server := server
  isActive := isActive
  mounted := true
  effect := none
  stale := true
  storage := storage
  reported := []
  document := 0
  frame := none
  hidden := false
  earlier := []
  toFrame := []
  toTab := []
  sent := []

/-- `send`, with what it has captured. -/
def send (captured : ServerListItem × Bool) (s : RdpTab) : RdpTab :=
  let init : RdpInit := ⟨captured.1, captured.2, s.storage.getD ""⟩
  { s with toFrame := s.toFrame ++ [(s.document, init)], sent := s.sent ++ [init] }

/-- The effect of the last rendering. -/
def runEffect (s : RdpTab) : RdpTab :=
  { s with effect := some (s.server, s.isActive), stale := false }.send (s.server, s.isActive)

/-- `listener`; nobody listens before the first effect and after the last cleanup. -/
def listener (ownOrigin ownSource : Bool) (notice : RdpNotice) (s : RdpTab) : RdpTab :=
  match s.effect with
  | none => s
  | some captured =>
      if ¬ ownOrigin ∨ ¬ ownSource then s
      else
        match notice with
        | .ready => s.send captured
        | .status value => { s with reported := s.reported ++ [value] }

/-- The message event in the frame. -/
def arrive (ownOrigin ownSource : Bool) (init : RdpInit) (width height : Nat) (s : RdpTab) :
    RdpTab :=
  if ¬ ownOrigin ∨ ¬ ownSource then s
  else { s with frame := s.frame.map (RdpClient.receive init width height) }

/-- The document is gone. -/
def discard (s : RdpTab) : RdpTab :=
  { s with
    earlier := s.earlier ++ s.frame.toList
    document := s.document + 1
    frame := none
    hidden := false }

def step (origin : String) (s : RdpTab) : RdpTabAction → Option RdpTab
  | .renders server isActive changed =>
      if s.mounted then
        some
          { s with
            server := server
            isActive := isActive
            stale := s.stale || changed || s.server ≠ server || s.isActive ≠ isActive }
      else none
  | .effects => if s.mounted ∧ s.stale then some s.runEffect else none
  | .stores token => some { s with storage := token }
  | .scriptRuns =>
      if s.mounted ∧ s.frame.isNone then
        some { s with frame := some .opened, toTab := s.toTab ++ [.ready] }
      else none
  | .hides =>
      if s.mounted then some { s with frame := s.frame.map RdpClient.pagehide, hidden := true }
      else none
  | .replaces => if s.mounted ∧ s.hidden then some s.discard else none
  | .takes width height =>
      match s.toFrame with
      | [] => none
      | (document, init) :: rest =>
          let s := { s with toFrame := rest }
          some (if document = s.document then s.arrive true true init width height else s)
  | .hears =>
      match s.toTab with
      | [] => none
      | notice :: rest => some ({ s with toTab := rest }.listener true true notice)
  | .outsiderToTab ownOrigin ownSource notice =>
      if ownOrigin ∧ ownSource then none else some (s.listener ownOrigin ownSource notice)
  | .outsiderToFrame ownOrigin ownSource init width height =>
      if ownOrigin ∧ ownSource then none
      else some (s.arrive ownOrigin ownSource init width height)
  | .works action =>
      match s.frame with
      | none => none
      | some c =>
          (c.step origin action).map fun after =>
            { s with frame := some after.1, toTab := s.toTab ++ after.2 }
  | .unmounts =>
      if s.mounted then
        some { { s with frame := s.frame.map RdpClient.pagehide }.discard with
          mounted := false, effect := none, stale := false }
      else none

variable {origin : String} {s t : RdpTab} {action : RdpTabAction}

/-! ## What a step can do -/

theorem listener_outsider {ownOrigin ownSource : Bool} {notice : RdpNotice}
    (outsider : ¬ (ownOrigin = true ∧ ownSource = true)) :
    s.listener ownOrigin ownSource notice = s := by
  unfold listener
  split
  · rfl
  · exact if_pos (not_and_or.mp outsider)

theorem arrive_outsider {ownOrigin ownSource : Bool} {init : RdpInit} {width height : Nat}
    (outsider : ¬ (ownOrigin = true ∧ ownSource = true)) :
    s.arrive ownOrigin ownSource init width height = s :=
  if_pos (not_and_or.mp outsider)

theorem takes_cases {width height : Nat} (step : s.step origin (.takes width height) = some t) :
    ∃ document init rest, s.toFrame = (document, init) :: rest ∧
      ((document = s.document ∧ t = { s with
          toFrame := rest, frame := s.frame.map (RdpClient.receive init width height) }) ∨
        (document ≠ s.document ∧ t = { s with toFrame := rest })) := by
  cases hqueue : s.toFrame with
  | nil =>
      simp only [RdpTab.step, hqueue] at step
      cases step
  | cons message rest =>
      simp only [RdpTab.step, hqueue, Option.some.injEq] at step
      refine ⟨message.1, message.2, rest, rfl, ?_⟩
      by_cases hdocument : message.1 = s.document
      · rw [if_pos hdocument] at step
        exact .inl ⟨hdocument, step.symm⟩
      · rw [if_neg hdocument] at step
        exact .inr ⟨hdocument, step.symm⟩

theorem hears_cases (step : s.step origin .hears = some t) :
    ∃ notice rest, s.toTab = notice :: rest ∧
      t = { s with toTab := rest }.listener true true notice := by
  cases hqueue : s.toTab with
  | nil =>
      simp only [RdpTab.step, hqueue] at step
      cases step
  | cons notice rest =>
      simp only [RdpTab.step, hqueue, Option.some.injEq] at step
      exact ⟨notice, rest, rfl, step.symm⟩

theorem works_cases {work : RdpClientAction} (step : s.step origin (.works work) = some t) :
    ∃ c after, s.frame = some c ∧ RdpClient.Move origin c after ∧
      t = { s with frame := some after.1, toTab := s.toTab ++ after.2 } := by
  cases hframe : s.frame with
  | none =>
      simp only [RdpTab.step, hframe] at step
      cases step
  | some c =>
      simp only [RdpTab.step, hframe, Option.map_eq_some_iff] at step
      obtain ⟨after, hstep, rfl⟩ := step
      exact ⟨c, after, rfl, RdpClient.move_of_step hstep, rfl⟩

/-- A message that is not from the other side changes nothing. -/
theorem outsider_cases {ownOrigin ownSource : Bool}
    (step : (∃ notice, s.step origin (.outsiderToTab ownOrigin ownSource notice) = some t) ∨
      ∃ init width height,
        s.step origin (.outsiderToFrame ownOrigin ownSource init width height) = some t) :
    t = s := by
  rcases step with ⟨notice, hstep⟩ | ⟨init, width, height, hstep⟩
  · obtain ⟨houtsider, hsame⟩ := Option.ite_none_left_eq_some.mp hstep
    obtain rfl := Option.some.inj hsame
    exact listener_outsider houtsider
  · obtain ⟨houtsider, hsame⟩ := Option.ite_none_left_eq_some.mp hstep
    obtain rfl := Option.some.inj hsame
    exact arrive_outsider houtsider

/-! ## The side of the tab -/

structure Routed (s : RdpTab) : Prop where
  attached : s.frame.isSome = true → s.mounted = true
  mute : s.mounted = true → s.effect = none → s.stale = true ∧ s.sent = [] ∧ s.reported = []
  current : s.mounted = true → s.stale = false → s.effect = some (s.server, s.isActive)
  last : ∀ captured, s.effect = some captured →
    ∃ token, s.sent.getLast? = some ⟨captured.1, captured.2, token⟩
  pending : ∀ message ∈ s.toFrame, message.2 ∈ s.sent

theorem routed_initial {server : ServerListItem} {isActive : Bool} {storage : Option String} :
    (initial server isActive storage).Routed where
  attached := fun h => by cases h
  mute := fun _ _ => ⟨rfl, rfl, rfl⟩
  current := fun _ h => by cases h
  last := fun _ h => by cases h
  pending := fun _ h => by cases h

theorem routed_send {captured : ServerListItem × Bool} (effect : s.effect = some captured)
    (attached : s.frame.isSome = true → s.mounted = true)
    (current : s.mounted = true → s.stale = false → s.effect = some (s.server, s.isActive))
    (pending : ∀ message ∈ s.toFrame, message.2 ∈ s.sent) : (s.send captured).Routed where
  attached := attached
  mute := fun _ hnone => by
    have heffect : s.effect = none := hnone
    rw [effect] at heffect
    cases heffect
  current := current
  last := fun other hother => by
    obtain rfl := Option.some.inj (effect.symm.trans hother)
    exact ⟨_, List.getLast?_concat⟩
  pending := fun message hmem => by
    rcases List.mem_append.mp hmem with hold | hnew
    · exact List.mem_append_left _ (pending message hold)
    · obtain rfl := List.mem_singleton.mp hnew
      exact List.mem_append_right _ List.mem_cons_self

theorem Routed.listener (routed : s.Routed) (ownOrigin ownSource : Bool) (notice : RdpNotice) :
    (s.listener ownOrigin ownSource notice).Routed := by
  unfold RdpTab.listener
  split
  · exact routed
  · rename_i captured heffect
    split
    · exact routed
    · cases notice with
      | ready => exact routed_send heffect routed.attached routed.current routed.pending
      | status value =>
          refine ⟨routed.attached, fun _ hnone => ?_, routed.current, routed.last, routed.pending⟩
          cases heffect.symm.trans hnone

theorem Routed.framed (routed : s.Routed) {frame : Option RdpClient}
    (attached : frame.isSome = true → s.mounted = true) : { s with frame := frame }.Routed :=
  ⟨attached, routed.mute, routed.current, routed.last, routed.pending⟩

theorem Routed.step (routed : s.Routed) (step : s.step origin action = some t) : t.Routed := by
  cases action with
  | renders server isActive changed =>
      obtain ⟨hmounted, rfl⟩ := Option.ite_some_none_eq_some.mp step
      refine ⟨routed.attached, fun _ hnone => ?_, fun _ hfresh => ?_, routed.last, routed.pending⟩
      · obtain ⟨hstale, hmute⟩ := routed.mute hmounted hnone
        refine ⟨?_, hmute⟩
        change (s.stale || changed || _ || _) = true
        rw [hstale, Bool.true_or, Bool.true_or, Bool.true_or]
      · have hfresh : (s.stale || changed || decide (s.server ≠ server) ||
            decide (s.isActive ≠ isActive)) = false := hfresh
        simp only [Bool.or_eq_false_iff, decide_eq_false_iff_not, not_not] at hfresh
        obtain ⟨⟨⟨hstale, -⟩, rfl⟩, rfl⟩ := hfresh
        exact routed.current hmounted hstale
  | effects =>
      obtain ⟨⟨hmounted, -⟩, rfl⟩ := Option.ite_some_none_eq_some.mp step
      exact routed_send rfl routed.attached (fun _ _ => rfl) routed.pending
  | stores token =>
      obtain rfl := Option.some.inj step
      exact ⟨routed.attached, routed.mute, routed.current, routed.last, routed.pending⟩
  | scriptRuns =>
      obtain ⟨⟨hmounted, -⟩, rfl⟩ := Option.ite_some_none_eq_some.mp step
      exact ⟨fun _ => hmounted, routed.mute, routed.current, routed.last, routed.pending⟩
  | hides =>
      obtain ⟨hmounted, rfl⟩ := Option.ite_some_none_eq_some.mp step
      exact ⟨fun _ => hmounted, routed.mute, routed.current, routed.last, routed.pending⟩
  | replaces =>
      obtain ⟨⟨hmounted, -⟩, rfl⟩ := Option.ite_some_none_eq_some.mp step
      exact ⟨fun _ => hmounted, routed.mute, routed.current, routed.last, routed.pending⟩
  | takes width height =>
      obtain ⟨document, init, rest, hqueue, hnext⟩ := takes_cases step
      have hrest : { s with toFrame := rest }.Routed :=
        ⟨routed.attached, routed.mute, routed.current, routed.last, fun message hmem =>
          routed.pending message (hqueue ▸ List.mem_cons_of_mem _ hmem)⟩
      rcases hnext with ⟨-, rfl⟩ | ⟨-, rfl⟩
      · refine hrest.framed fun hsome => routed.attached ?_
        rwa [Option.isSome_map] at hsome
      · exact hrest
  | hears =>
      obtain ⟨notice, rest, -, rfl⟩ := hears_cases step
      have hrest : { s with toTab := rest }.Routed :=
        ⟨routed.attached, routed.mute, routed.current, routed.last, routed.pending⟩
      exact hrest.listener true true notice
  | outsiderToTab ownOrigin ownSource notice =>
      obtain rfl := outsider_cases (.inl ⟨notice, step⟩)
      exact routed
  | outsiderToFrame ownOrigin ownSource init width height =>
      obtain rfl := outsider_cases (.inr ⟨init, width, height, step⟩)
      exact routed
  | works work =>
      obtain ⟨c, after, hframe, -, rfl⟩ := works_cases step
      have hmounted := routed.attached (hframe ▸ rfl)
      exact ⟨fun _ => hmounted, routed.mute, routed.current, routed.last, routed.pending⟩
  | unmounts =>
      obtain ⟨hmounted, rfl⟩ := Option.ite_some_none_eq_some.mp step
      exact ⟨(fun h => by cases h), (fun h => by cases h), (fun h => by cases h),
        (fun _ h => by cases h), routed.pending⟩

/-! ## The documents -/

/-- The clients of all documents so far. -/
def documents (s : RdpTab) : List RdpClient := s.earlier ++ s.frame.toList

structure Supplied (origin : String) (s : RdpTab) : Prop where
  orderly : ∀ c ∈ s.documents, c.Orderly
  sourced : ∀ c ∈ s.documents, c.Sourced origin (· ∈ s.sent)

theorem mem_documents_of_frame {c : RdpClient} (frame : s.frame = some c) : c ∈ s.documents :=
  List.mem_append_right _ (Option.mem_toList.mpr frame)

/-- Another client in the frame. -/
theorem Supplied.framed (supplied : s.Supplied origin) {frame : Option RdpClient}
    (held : ∀ c, frame = some c → c.Orderly ∧ c.Sourced origin (· ∈ s.sent)) :
    { s with frame := frame }.Supplied origin := by
  constructor
  · intro c hmem
    rcases List.mem_append.mp hmem with hearlier | hframe
    · exact supplied.orderly c (List.mem_append_left _ hearlier)
    · exact (held c (Option.mem_toList.mp hframe)).1
  · intro c hmem
    rcases List.mem_append.mp hmem with hearlier | hframe
    · exact supplied.sourced c (List.mem_append_left _ hearlier)
    · exact (held c (Option.mem_toList.mp hframe)).2

theorem Supplied.mapped {f : RdpClient → RdpClient} (supplied : s.Supplied origin)
    (held : ∀ c, c.Orderly → c.Sourced origin (· ∈ s.sent) →
      (f c).Orderly ∧ (f c).Sourced origin (· ∈ s.sent)) :
    { s with frame := s.frame.map f }.Supplied origin := by
  refine supplied.framed fun c hframe => ?_
  obtain ⟨old, hold, rfl⟩ := Option.map_eq_some_iff.mp hframe
  have hmem := mem_documents_of_frame hold
  exact held old (supplied.orderly old hmem) (supplied.sourced old hmem)

theorem Supplied.send (supplied : s.Supplied origin) (captured : ServerListItem × Bool) :
    (s.send captured).Supplied origin where
  orderly := supplied.orderly
  sourced := fun c hmem =>
    (supplied.sourced c hmem).mono fun _ hknown => List.mem_append_left _ hknown

theorem Supplied.listener (supplied : s.Supplied origin) (ownOrigin ownSource : Bool)
    (notice : RdpNotice) : (s.listener ownOrigin ownSource notice).Supplied origin := by
  unfold RdpTab.listener
  split
  · exact supplied
  · rename_i captured heffect
    split
    · exact supplied
    · cases notice with
      | ready => exact supplied.send captured
      | status value => exact ⟨supplied.orderly, supplied.sourced⟩

theorem Supplied.pagehide (supplied : s.Supplied origin) :
    { s with frame := s.frame.map RdpClient.pagehide }.Supplied origin :=
  supplied.mapped fun _ orderly sourced => ⟨orderly.pagehide, sourced.pagehide⟩

theorem Supplied.discard (supplied : s.Supplied origin) : s.discard.Supplied origin := by
  have hdocuments : s.discard.documents = s.documents := List.append_nil _
  exact ⟨hdocuments ▸ supplied.orderly, hdocuments ▸ supplied.sourced⟩

theorem Supplied.step (supplied : s.Supplied origin) (routed : s.Routed)
    (step : s.step origin action = some t) : t.Supplied origin := by
  cases action with
  | renders server isActive changed =>
      obtain ⟨-, rfl⟩ := Option.ite_some_none_eq_some.mp step
      exact ⟨supplied.orderly, supplied.sourced⟩
  | effects =>
      obtain ⟨-, rfl⟩ := Option.ite_some_none_eq_some.mp step
      have hcaptured : { s with effect := some (s.server, s.isActive), stale := false }.Supplied
          origin := ⟨supplied.orderly, supplied.sourced⟩
      exact hcaptured.send _
  | stores token =>
      obtain rfl := Option.some.inj step
      exact ⟨supplied.orderly, supplied.sourced⟩
  | scriptRuns =>
      obtain ⟨-, rfl⟩ := Option.ite_some_none_eq_some.mp step
      have hframed : { s with frame := some .opened }.Supplied origin := by
        refine supplied.framed fun c hframe => ?_
        obtain rfl := Option.some.inj hframe
        exact ⟨RdpClient.orderly_opened, RdpClient.sourced_opened⟩
      exact ⟨hframed.orderly, hframed.sourced⟩
  | hides =>
      obtain ⟨-, rfl⟩ := Option.ite_some_none_eq_some.mp step
      exact ⟨supplied.pagehide.orderly, supplied.pagehide.sourced⟩
  | replaces =>
      obtain ⟨-, rfl⟩ := Option.ite_some_none_eq_some.mp step
      exact supplied.discard
  | takes width height =>
      obtain ⟨document, init, rest, hqueue, hnext⟩ := takes_cases step
      rcases hnext with ⟨-, rfl⟩ | ⟨-, rfl⟩
      · have hinit : init ∈ s.sent := routed.pending (document, init) (hqueue ▸ List.mem_cons_self)
        have hmapped := supplied.mapped fun c orderly sourced =>
          And.intro (orderly.receive : (c.receive init width height).Orderly)
            (sourced.receive hinit)
        exact ⟨hmapped.orderly, hmapped.sourced⟩
      · exact ⟨supplied.orderly, supplied.sourced⟩
  | hears =>
      obtain ⟨notice, rest, -, rfl⟩ := hears_cases step
      have hrest : { s with toTab := rest }.Supplied origin := ⟨supplied.orderly, supplied.sourced⟩
      exact hrest.listener true true notice
  | outsiderToTab ownOrigin ownSource notice =>
      obtain rfl := outsider_cases (.inl ⟨notice, step⟩)
      exact supplied
  | outsiderToFrame ownOrigin ownSource init width height =>
      obtain rfl := outsider_cases (.inr ⟨init, width, height, step⟩)
      exact supplied
  | works work =>
      obtain ⟨c, after, hframe, hmove, rfl⟩ := works_cases step
      have hmem := mem_documents_of_frame hframe
      have hframed : { s with frame := some after.1 }.Supplied origin := by
        refine supplied.framed fun other hother => ?_
        obtain rfl := Option.some.inj hother
        exact ⟨(supplied.orderly c hmem).move hmove, (supplied.sourced c hmem).move hmove⟩
      exact ⟨hframed.orderly, hframed.sourced⟩
  | unmounts =>
      obtain ⟨-, rfl⟩ := Option.ite_some_none_eq_some.mp step
      exact ⟨supplied.pagehide.discard.orderly, supplied.pagehide.discard.sourced⟩

/-! ## What the frame knows -/

/-- The message is under way or will be posted again, or the client has taken it. -/
def Synced (s : RdpTab) (c : RdpClient) (init : RdpInit) : Prop :=
  .ready ∈ s.toTab ∨ (∃ front, s.toFrame = front ++ [(s.document, init)]) ∨
    (s.toFrame = [] ∧ c.token = init.token ∧ c.active = init.active ∧ c.server ≠ none)

def InSync (s : RdpTab) : Prop :=
  ∀ c init, s.frame = some c → s.hidden = false → s.effect ≠ none →
    s.sent.getLast? = some init → s.Synced c init

/-- What was just posted is under way. -/
theorem inSync_send {captured : ServerListItem × Bool} : (s.send captured).InSync := by
  intro c init hframe hshown heffect hlast
  obtain rfl := Option.some.inj (List.getLast?_concat.symm.trans hlast)
  exact .inr (.inl ⟨s.toFrame, rfl⟩)

theorem InSync.listener {notice : RdpNotice} {rest : List RdpNotice} (synced : s.InSync)
    (queue : s.toTab = notice :: rest) :
    ({ s with toTab := rest }.listener true true notice).InSync := by
  unfold RdpTab.listener
  split
  · rename_i heffect
    exact fun c init _ _ hlistens => absurd heffect hlistens
  · rename_i captured heffect
    rw [if_neg (by decide)]
    cases notice with
    | ready => exact inSync_send
    | status value =>
        intro c init hframe hshown hlistens hlast
        rcases synced c init hframe hshown hlistens hlast with hready | hposted
        · rw [queue] at hready
          exact .inl ((List.mem_cons.mp hready).resolve_left fun same => by cases same)
        · exact .inr hposted

theorem InSync.take {document : Nat} {init : RdpInit} {rest : List (Nat × RdpInit)}
    {width height : Nat} (synced : s.InSync) (queue : s.toFrame = (document, init) :: rest) :
    { s with
      toFrame := rest, frame := s.frame.map (RdpClient.receive init width height) }.InSync := by
  intro c last hframe hshown heffect hlast
  obtain ⟨old, hold, rfl⟩ := Option.map_eq_some_iff.mp hframe
  rcases synced old last hold hshown heffect hlast with hready | ⟨front, hfront⟩ | ⟨hempty, -⟩
  · exact .inl hready
  · rw [queue] at hfront
    cases front with
    | nil =>
        obtain ⟨hmessage, rfl⟩ := List.cons.inj hfront
        obtain ⟨-, rfl⟩ := Prod.mk.inj hmessage
        exact .inr (.inr ⟨rfl, RdpClient.receive_eq⟩)
    | cons first front =>
        obtain ⟨-, rfl⟩ := List.cons.inj hfront
        exact .inr (.inl ⟨front, rfl⟩)
  · rw [queue] at hempty
    cases hempty

/-- A message for a document that is gone. -/
theorem InSync.drop {document : Nat} {init : RdpInit} {rest : List (Nat × RdpInit)}
    (synced : s.InSync) (queue : s.toFrame = (document, init) :: rest)
    (gone : document ≠ s.document) : { s with toFrame := rest }.InSync := by
  intro c last hframe hshown heffect hlast
  rcases synced c last hframe hshown heffect hlast with hready | ⟨front, hfront⟩ | ⟨hempty, -⟩
  · exact .inl hready
  · rw [queue] at hfront
    cases front with
    | nil =>
        obtain ⟨hmessage, -⟩ := List.cons.inj hfront
        exact absurd (Prod.mk.inj hmessage).1 gone
    | cons first front =>
        obtain ⟨-, rfl⟩ := List.cons.inj hfront
        exact .inr (.inl ⟨front, rfl⟩)
  · rw [queue] at hempty
    cases hempty

theorem InSync.step (synced : s.InSync) (step : s.step origin action = some t) : t.InSync := by
  cases action with
  | renders server isActive changed =>
      obtain ⟨-, rfl⟩ := Option.ite_some_none_eq_some.mp step
      exact synced
  | effects =>
      obtain ⟨-, rfl⟩ := Option.ite_some_none_eq_some.mp step
      exact inSync_send
  | stores token =>
      obtain rfl := Option.some.inj step
      exact synced
  | scriptRuns =>
      obtain ⟨-, rfl⟩ := Option.ite_some_none_eq_some.mp step
      exact fun c init _ _ _ _ => .inl (List.mem_append_right _ List.mem_cons_self)
  | hides =>
      obtain ⟨-, rfl⟩ := Option.ite_some_none_eq_some.mp step
      exact fun c init _ hshown => by cases hshown
  | replaces =>
      obtain ⟨-, rfl⟩ := Option.ite_some_none_eq_some.mp step
      exact fun c init hframe => by cases hframe
  | takes width height =>
      obtain ⟨document, init, rest, hqueue, hnext⟩ := takes_cases step
      rcases hnext with ⟨-, rfl⟩ | ⟨hother, rfl⟩
      · exact synced.take hqueue
      · exact synced.drop hqueue hother
  | hears =>
      obtain ⟨notice, rest, hqueue, rfl⟩ := hears_cases step
      exact synced.listener hqueue
  | outsiderToTab ownOrigin ownSource notice =>
      obtain rfl := outsider_cases (.inl ⟨notice, step⟩)
      exact synced
  | outsiderToFrame ownOrigin ownSource init width height =>
      obtain rfl := outsider_cases (.inr ⟨init, width, height, step⟩)
      exact synced
  | works work =>
      obtain ⟨c, after, hframe, hmove, rfl⟩ := works_cases step
      intro other init hother hshown heffect hlast
      obtain rfl := Option.some.inj hother
      obtain ⟨hserver, htoken, hactive⟩ := hmove.init_eq
      rcases synced c init hframe hshown heffect hlast with hready | hposted | hknown
      · exact .inl (List.mem_append_left _ hready)
      · exact .inr (.inl hposted)
      · rw [← htoken, ← hactive, ← hserver] at hknown
        exact .inr (.inr hknown)
  | unmounts =>
      obtain ⟨-, rfl⟩ := Option.ite_some_none_eq_some.mp step
      exact fun c init hframe => by cases hframe

/-! ## What the tab has heard -/

def statusOf : RdpNotice → Option ConnectionStatus
  | .ready => none
  | .status value => some value

/-- The statuses that the tab has reported, and those under way. -/
def statuses (s : RdpTab) : List ConnectionStatus := s.reported ++ s.toTab.filterMap statusOf

/-- From its first status on. -/
def Heard (s : RdpTab) : Prop :=
  ∀ c, s.frame = some c → c.load ≠ .loading → c.Agrees s.statuses.getLast?

theorem Heard.mapped {f : RdpClient → RdpClient} (heard : s.Heard)
    (same : ∀ c, (f c).load = c.load ∧ (f c).connecting = c.connecting ∧
      (f c).connected = c.connected) : { s with frame := s.frame.map f }.Heard := by
  intro c hframe hload
  obtain ⟨old, hold, rfl⟩ := Option.map_eq_some_iff.mp hframe
  obtain ⟨hsame, hconnecting, hconnected⟩ := same old
  rw [hsame] at hload
  exact (heard old hold hload).congr hconnecting hconnected

/-- Before the first effect nothing was asked for. -/
theorem quiet_of_deaf (routed : s.Routed) (supplied : s.Supplied origin) (deaf : s.effect = none)
    {c : RdpClient} (frame : s.frame = some c) :
    s.reported = [] ∧ c.connecting = false ∧ c.connected = false := by
  have hmounted : s.mounted = true := routed.attached (frame ▸ rfl)
  obtain ⟨-, hsent, hreported⟩ := routed.mute hmounted deaf
  have hmem := mem_documents_of_frame frame
  refine ⟨hreported, (supplied.orderly c hmem).quiet (.inr ?_)⟩
  cases hserver : c.server with
  | none => rfl
  | some server =>
      obtain ⟨init, hinit, -⟩ := (supplied.sourced c hmem).server server hserver
      rw [hsent] at hinit
      cases hinit

theorem Heard.listener (heard : s.Heard) (routed : s.Routed) (supplied : s.Supplied origin)
    {notice : RdpNotice} {rest : List RdpNotice} (queue : s.toTab = notice :: rest) :
    ({ s with toTab := rest }.listener true true notice).Heard := by
  have hstatuses : s.statuses = s.reported ++ (notice :: rest).filterMap statusOf := by
    rw [statuses, queue]
  unfold RdpTab.listener
  split
  · rename_i heffect
    intro c hframe hload
    obtain ⟨hreported, hquiet⟩ := quiet_of_deaf routed supplied heffect hframe
    refine RdpClient.agrees_of_quiet hquiet fun hlast => ?_
    -- the last status would be under way already
    have hrest : (rest.filterMap statusOf).getLast? = some .connected := by
      rw [← hlast, statuses, show s.reported = [] from hreported]
      rfl
    have hbefore : s.statuses.getLast? = some .connected := by
      rw [hstatuses, hreported, ← List.singleton_append, List.filterMap_append, List.nil_append,
        List.getLast?_append, hrest]
      rfl
    have hconnected := (heard c hframe hload).1.mp hbefore
    rw [hquiet.2] at hconnected
    cases hconnected
  · rename_i captured heffect
    rw [if_neg (by decide)]
    cases notice with
    | ready =>
        intro c hframe hload
        have hagrees := heard c hframe hload
        rw [hstatuses] at hagrees
        exact hagrees
    | status value =>
        intro c hframe hload
        have hagrees := heard c hframe hload
        have hsame : s.statuses = s.reported ++ [value] ++ rest.filterMap statusOf := by
          rw [hstatuses, List.append_assoc]
          rfl
        rw [hsame] at hagrees
        exact hagrees

theorem Heard.works {c : RdpClient} {after : RdpClient × List RdpNotice} (heard : s.Heard)
    (orderly : c.Orderly) (frame : s.frame = some c) (move : RdpClient.Move origin c after) :
    { s with frame := some after.1, toTab := s.toTab ++ after.2 }.Heard := by
  intro other hother hload
  obtain rfl := Option.some.inj hother
  have hstatuses : { s with frame := some after.1, toTab := s.toTab ++ after.2 }.statuses =
      s.statuses ++ after.2.filterMap statusOf := by
    rw [statuses, List.filterMap_append, ← List.append_assoc]
    rfl
  rw [hstatuses]
  rcases move.agrees orderly with ⟨hsilent, hsame, hconnecting, hconnected⟩ | ⟨value, hvalue, hfits⟩
  · rw [hsilent, List.filterMap_nil, List.append_nil]
    rw [hsame] at hload
    exact (heard c frame hload).congr hconnecting hconnected
  · rw [hvalue]
    exact (List.getLast?_concat : (s.statuses ++ [value]).getLast? = _) ▸ hfits

theorem Heard.step (heard : s.Heard) (routed : s.Routed) (supplied : s.Supplied origin)
    (step : s.step origin action = some t) : t.Heard := by
  cases action with
  | renders server isActive changed =>
      obtain ⟨-, rfl⟩ := Option.ite_some_none_eq_some.mp step
      exact heard
  | effects =>
      obtain ⟨-, rfl⟩ := Option.ite_some_none_eq_some.mp step
      exact heard
  | stores token =>
      obtain rfl := Option.some.inj step
      exact heard
  | scriptRuns =>
      obtain ⟨-, rfl⟩ := Option.ite_some_none_eq_some.mp step
      intro c hframe hload
      obtain rfl := Option.some.inj hframe
      exact absurd rfl hload
  | hides =>
      obtain ⟨-, rfl⟩ := Option.ite_some_none_eq_some.mp step
      exact heard.mapped fun _ => RdpClient.pagehide_status_eq
  | replaces =>
      obtain ⟨-, rfl⟩ := Option.ite_some_none_eq_some.mp step
      exact fun c hframe => by cases hframe
  | takes width height =>
      obtain ⟨document, init, rest, -, hnext⟩ := takes_cases step
      rcases hnext with ⟨-, rfl⟩ | ⟨-, rfl⟩
      · exact heard.mapped fun _ => RdpClient.receive_status_eq
      · exact heard
  | hears =>
      obtain ⟨notice, rest, hqueue, rfl⟩ := hears_cases step
      exact heard.listener routed supplied hqueue
  | outsiderToTab ownOrigin ownSource notice =>
      obtain rfl := outsider_cases (.inl ⟨notice, step⟩)
      exact heard
  | outsiderToFrame ownOrigin ownSource init width height =>
      obtain rfl := outsider_cases (.inr ⟨init, width, height, step⟩)
      exact heard
  | works work =>
      obtain ⟨c, after, hframe, hmove, rfl⟩ := works_cases step
      exact heard.works (supplied.orderly c (mem_documents_of_frame hframe)) hframe hmove
  | unmounts =>
      obtain ⟨-, rfl⟩ := Option.ite_some_none_eq_some.mp step
      exact fun c hframe => by cases hframe

end RdpTab

end OpsUp.Ui
