import OpsUp.Ui.RdpTab

/-!
# Runs of a remote desktop tab

Once the messages under way are delivered, the frame and the tab agree, whatever was
rendered, reloaded and lost before; and every connection of every document is for a record that
the tab was rendered with.
-/

namespace OpsUp.Ui

open OpsUp.Interaction OpsUp.Models

namespace RdpTab

variable {origin : String} {server : ServerListItem} {isActive : Bool} {storage : Option String}
variable {actions more : List RdpTabAction} {action : RdpTabAction} {s t : RdpTab} {c : RdpClient}

structure Coupled (origin : String) (s : RdpTab) : Prop where
  routed : s.Routed
  supplied : s.Supplied origin
  synced : s.InSync
  heard : s.Heard

theorem coupled_initial : (initial server isActive storage).Coupled origin where
  routed := routed_initial
  supplied := ⟨(fun _ h => by cases h), (fun _ h => by cases h)⟩
  synced := fun _ _ h => by cases h
  heard := fun _ h => by cases h

theorem Coupled.step (coupled : s.Coupled origin) (step : s.step origin action = some t) :
    t.Coupled origin where
  routed := coupled.routed.step step
  supplied := coupled.supplied.step coupled.routed step
  synced := coupled.synced.step step
  heard := coupled.heard.step coupled.routed coupled.supplied step

theorem Coupled.play (coupled : s.Coupled origin)
    (run : play (RdpTab.step origin) s actions = some t) : t.Coupled origin :=
  play_preserves (Coupled origin) coupled (fun held hstep => held.step hstep) run

/-! ## Agreement -/

/-- No message is under way. -/
def Still (s : RdpTab) : Prop := s.toFrame = [] ∧ s.toTab = []

/-- The client has what the tab was last rendered with, and the tab has heard of its state. -/
structure Agreement (s : RdpTab) (c : RdpClient) : Prop where
  active : c.active = s.isActive
  token : ∃ token, s.sent.getLast? = some ⟨s.server, s.isActive, token⟩ ∧ c.token = token
  server : ∃ init ∈ s.sent, c.server = some init.server
  status : c.load ≠ .loading → c.Agrees s.reported.getLast?

theorem Coupled.agreement (coupled : s.Coupled origin) (frame : s.frame = some c)
    (fresh : s.stale = false) (shown : s.hidden = false) (still : s.Still) : s.Agreement c := by
  obtain ⟨hrouted, hsupplied, hsynced, hheard⟩ := coupled
  obtain ⟨hframe, htab⟩ := still
  have heffect := hrouted.current (hrouted.attached (frame ▸ rfl)) fresh
  obtain ⟨token, hlast⟩ := hrouted.last _ heffect
  have hlistens : s.effect ≠ none := by
    rw [heffect]
    exact Option.some_ne_none _
  rcases hsynced c _ frame shown hlistens hlast with hready | ⟨front, hfront⟩ |
    ⟨-, htoken, hactive, hserver⟩
  · rw [htab] at hready
    cases hready
  · rw [hframe] at hfront
    cases front <;> cases hfront
  · refine ⟨hactive, ⟨token, hlast, htoken⟩, ?_, fun hload => ?_⟩
    · obtain ⟨record, hrecord⟩ := Option.ne_none_iff_exists'.mp hserver
      obtain ⟨init, hinit, rfl⟩ :=
        (hsupplied.sourced c (mem_documents_of_frame frame)).server record hrecord
      exact ⟨init, hinit, hrecord⟩
    · have hagrees := hheard c frame hload
      rwa [statuses, htab, List.filterMap_nil, List.append_nil] at hagrees

/-! ## Delivery -/

def IsDelivery : RdpTabAction → Prop
  | .takes _ _ => True
  | .hears => True
  | _ => False

/-- A delivery changes nothing else than what the two sides know. -/
structure Delivered (s t : RdpTab) : Prop where
  server : t.server = s.server
  isActive : t.isActive = s.isActive
  stale : t.stale = s.stale
  hidden : t.hidden = s.hidden
  frame : t.frame.isSome = s.frame.isSome

theorem Delivered.trans {middle : RdpTab} (front : Delivered s middle)
    (back : Delivered middle t) : Delivered s t where
  server := back.server.trans front.server
  isActive := back.isActive.trans front.isActive
  stale := back.stale.trans front.stale
  hidden := back.hidden.trans front.hidden
  frame := back.frame.trans front.frame

theorem exists_hears (origin : String) {notice : RdpNotice} {rest : List RdpNotice}
    (queue : s.toTab = notice :: rest) :
    ∃ t, s.step origin .hears = some t ∧ t.toTab = rest ∧ Delivered s t := by
  refine ⟨{ s with toTab := rest }.listener true true notice, ?_, ?_⟩
  · simp only [RdpTab.step, queue]
  · unfold listener
    split
    · exact ⟨rfl, rfl, rfl, rfl, rfl, rfl⟩
    · rw [if_neg (by decide)]
      cases notice <;> exact ⟨rfl, rfl, rfl, rfl, rfl, rfl⟩

theorem exists_takes (origin : String) {message : Nat × RdpInit} {rest : List (Nat × RdpInit)}
    (width height : Nat) (queue : s.toFrame = message :: rest) :
    ∃ t, s.step origin (.takes width height) = some t ∧ t.toFrame = rest ∧ t.toTab = s.toTab ∧
      Delivered s t := by
  obtain ⟨document, init⟩ := message
  by_cases hdocument : document = s.document
  · refine ⟨{ s with
        toFrame := rest, frame := s.frame.map (RdpClient.receive init width height) }, ?_, rfl, rfl,
      rfl, rfl, rfl, rfl, Option.isSome_map⟩
    simp only [RdpTab.step, queue, if_pos hdocument]
    rfl
  · refine ⟨{ s with toFrame := rest }, ?_, rfl, rfl, rfl, rfl, rfl, rfl, rfl⟩
    simp only [RdpTab.step, queue, if_neg hdocument]

/-- Everything that is under way can be delivered. -/
theorem exists_deliveries (origin : String) (s : RdpTab) :
    ∃ deliveries t, (∀ action ∈ deliveries, IsDelivery action) ∧
      play (RdpTab.step origin) s deliveries = some t ∧ t.Still ∧ Delivered s t := by
  have hframe : ∀ s : RdpTab, s.toTab = [] → ∃ deliveries t,
      (∀ action ∈ deliveries, IsDelivery action) ∧
        play (RdpTab.step origin) s deliveries = some t ∧ t.Still ∧ Delivered s t := by
    intro s htab
    generalize hqueue : s.toFrame = queue
    induction queue generalizing s with
    | nil => exact ⟨[], s, by simp, rfl, ⟨hqueue, htab⟩, rfl, rfl, rfl, rfl, rfl⟩
    | cons message rest ih =>
        obtain ⟨next, hstep, hrest, hsame, hdelivered⟩ := exists_takes origin 0 0 hqueue
        obtain ⟨deliveries, t, hall, hplay, hstill, hafter⟩ := ih next (hsame.trans htab) hrest
        refine ⟨.takes 0 0 :: deliveries, t, ?_, play_cons_iff.mpr ⟨next, hstep, hplay⟩, hstill,
          hdelivered.trans hafter⟩
        exact List.forall_mem_cons.mpr ⟨trivial, hall⟩
  generalize hqueue : s.toTab = queue
  induction queue generalizing s with
  | nil => exact hframe s hqueue
  | cons notice rest ih =>
      obtain ⟨next, hstep, hrest, hdelivered⟩ := exists_hears origin hqueue
      obtain ⟨deliveries, t, hall, hplay, hstill, hafter⟩ := ih next hrest
      refine ⟨.hears :: deliveries, t, ?_, play_cons_iff.mpr ⟨next, hstep, hplay⟩, hstill,
        hdelivered.trans hafter⟩
      exact List.forall_mem_cons.mpr ⟨trivial, hall⟩

/-- When the effect of the last rendering has run, the script of the frame too, and no reload
of the frame is under way, the two sides agree as soon as no message is under way, and
deliveries alone lead there. -/
theorem frame_follows_tab
    (run : play (RdpTab.step origin) (initial server isActive storage) actions = some s)
    (frame : s.frame = some c) (fresh : s.stale = false) (shown : s.hidden = false) :
    (s.Still → s.Agreement c) ∧
      ∃ deliveries t d, (∀ action ∈ deliveries, IsDelivery action) ∧
        play (RdpTab.step origin) s deliveries = some t ∧ t.Still ∧
        t.server = s.server ∧ t.isActive = s.isActive ∧ t.frame = some d ∧ t.Agreement d := by
  have hcoupled := coupled_initial.play run
  refine ⟨hcoupled.agreement frame fresh shown, ?_⟩
  obtain ⟨deliveries, t, hall, hplay, hstill, hdelivered⟩ := exists_deliveries origin s
  have hsome : t.frame.isSome = true := by rw [hdelivered.frame, frame]; rfl
  obtain ⟨d, hd⟩ := Option.isSome_iff_exists.mp hsome
  refine ⟨deliveries, t, d, hall, hplay, hstill, hdelivered.server, hdelivered.isActive, hd, ?_⟩
  exact (hcoupled.play hplay).agreement hd (hdelivered.stale.trans fresh)
    (hdelivered.hidden.trans shown) hstill

def desktopItem : ServerListItem where
  protocol := "rdp"
  rdpDomain := ""
  rdpCertFingerprint := ""
  id := 1
  name := "desktop"
  host := "10.0.0.7"
  port := 3389
  username := "Administrator"
  authType := "password"
  hostKey := ""
  description := ""
  group := ""
  jumpServerId := none
  createdAt := ""
  updatedAt := ""

/-- The frame takes the message of the first effect, and its button is pressed. -/
def desktopActions : List RdpTabAction :=
  [.effects, .scriptRuns, .takes 1280 721, .works .loads, .works (.submit true 1280 721)]

theorem frame_follows_tab_desktop : ∃ s c,
    play (RdpTab.step "wss://ops") (initial desktopItem true (some "token")) desktopActions =
        some s ∧
      (s.Still → s.Agreement c) ∧
      ∃ deliveries t d, (∀ action ∈ deliveries, IsDelivery action) ∧
        play (RdpTab.step "wss://ops") s deliveries = some t ∧ t.Still ∧
        t.server = s.server ∧ t.isActive = s.isActive ∧ t.frame = some d ∧ t.Agreement d := by
  have hrun : ∃ s c, play (RdpTab.step "wss://ops") (initial desktopItem true (some "token"))
      desktopActions = some s ∧ s.frame = some c ∧ s.stale = false ∧ s.hidden = false :=
    ⟨_, _, rfl, rfl, rfl, rfl⟩
  obtain ⟨s, c, hplay, hframe, hfresh, hshown⟩ := hrun
  exact ⟨s, c, hplay, frame_follows_tab hplay hframe hfresh hshown⟩

/-! ## Connections -/

/-- The records that the tab has been rendered with. -/
def Rendered (first : ServerListItem) (actions : List RdpTabAction) (server : ServerListItem) :
    Prop :=
  server = first ∨ ∃ isActive changed, .renders server isActive changed ∈ actions

/-- The tokens that the storage has held. -/
def Stored (first : Option String) (actions : List RdpTabAction) (token : String) : Prop :=
  ∃ value, (value = first ∨ .stores value ∈ actions) ∧ token = value.getD ""

theorem Rendered.append {record : ServerListItem} (rendered : Rendered server actions record) :
    Rendered server (actions ++ more) record :=
  rendered.imp_right fun ⟨isActive, changed, hmem⟩ =>
    ⟨isActive, changed, List.mem_append_left more hmem⟩

theorem Stored.append {token : String} (stored : Stored storage actions token) :
    Stored storage (actions ++ more) token := by
  obtain ⟨value, hvalue, htoken⟩ := stored
  exact ⟨value, hvalue.imp_right (List.mem_append_left more), htoken⟩

/-- Where the data of the tab come from. -/
structure Traced (first : ServerListItem) (held : Option String) (actions : List RdpTabAction)
    (s : RdpTab) : Prop where
  record : Rendered first actions s.server
  captured : ∀ captured, s.effect = some captured → Rendered first actions captured.1
  token : Stored held actions (s.storage.getD "")
  sent : ∀ init ∈ s.sent, Rendered first actions init.server ∧ Stored held actions init.token

theorem traced_initial : Traced server storage [] (initial server isActive storage) where
  record := .inl rfl
  captured := fun _ h => by cases h
  token := ⟨storage, .inl rfl, rfl⟩
  sent := fun _ h => by cases h

theorem Traced.append (traced : Traced server storage actions s) :
    Traced server storage (actions ++ more) s where
  record := traced.record.append
  captured := fun captured heffect => (traced.captured captured heffect).append
  token := traced.token.append
  sent := fun init hinit => ⟨(traced.sent init hinit).1.append, (traced.sent init hinit).2.append⟩

theorem Traced.send (traced : Traced server storage actions s) {captured : ServerListItem × Bool}
    (rendered : Rendered server actions captured.1) :
    Traced server storage actions (s.send captured) := by
  refine ⟨traced.record, traced.captured, traced.token, fun init hinit => ?_⟩
  rcases List.mem_append.mp hinit with hold | hnew
  · exact traced.sent init hold
  · obtain rfl := List.mem_singleton.mp hnew
    exact ⟨rendered, traced.token⟩

theorem Traced.listener (traced : Traced server storage actions s) {ownOrigin ownSource : Bool}
    {notice : RdpNotice} :
    Traced server storage actions (s.listener ownOrigin ownSource notice) := by
  unfold RdpTab.listener
  split
  · exact traced
  · rename_i captured heffect
    split
    · exact traced
    · cases notice with
      | ready => exact traced.send (traced.captured captured heffect)
      | status value => exact ⟨traced.record, traced.captured, traced.token, traced.sent⟩

theorem Traced.step (traced : Traced server storage actions s)
    (step : s.step origin action = some t) : Traced server storage (actions ++ [action]) t := by
  have hlast : action ∈ actions ++ [action] := List.mem_append_right _ List.mem_cons_self
  have happend : Traced server storage (actions ++ [action]) s := traced.append
  obtain ⟨hrecord, hcaptured, htoken, hsent⟩ := happend
  cases action with
  | renders record isActive changed =>
      obtain ⟨-, rfl⟩ := Option.ite_some_none_eq_some.mp step
      exact ⟨.inr ⟨isActive, changed, hlast⟩, hcaptured, htoken, hsent⟩
  | effects =>
      obtain ⟨-, rfl⟩ := Option.ite_some_none_eq_some.mp step
      have hran : Traced server storage (actions ++ [.effects])
          { s with effect := some (s.server, s.isActive), stale := false } :=
        ⟨hrecord, fun _ hsame => Option.some.inj hsame ▸ hrecord, htoken, hsent⟩
      exact hran.send hrecord
  | stores value =>
      obtain rfl := Option.some.inj step
      exact ⟨hrecord, hcaptured, ⟨value, .inr hlast, rfl⟩, hsent⟩
  | scriptRuns =>
      obtain ⟨-, rfl⟩ := Option.ite_some_none_eq_some.mp step
      exact ⟨hrecord, hcaptured, htoken, hsent⟩
  | hides =>
      obtain ⟨-, rfl⟩ := Option.ite_some_none_eq_some.mp step
      exact ⟨hrecord, hcaptured, htoken, hsent⟩
  | replaces =>
      obtain ⟨-, rfl⟩ := Option.ite_some_none_eq_some.mp step
      exact ⟨hrecord, hcaptured, htoken, hsent⟩
  | takes width height =>
      obtain ⟨document, init, rest, -, ⟨-, rfl⟩ | ⟨-, rfl⟩⟩ := takes_cases step
      · exact ⟨hrecord, hcaptured, htoken, hsent⟩
      · exact ⟨hrecord, hcaptured, htoken, hsent⟩
  | hears =>
      obtain ⟨notice, rest, -, rfl⟩ := hears_cases step
      have hrest : Traced server storage (actions ++ [.hears]) { s with toTab := rest } :=
        ⟨hrecord, hcaptured, htoken, hsent⟩
      exact hrest.listener
  | outsiderToTab ownOrigin ownSource notice =>
      obtain rfl := outsider_cases (.inl ⟨notice, step⟩)
      exact ⟨hrecord, hcaptured, htoken, hsent⟩
  | outsiderToFrame ownOrigin ownSource init width height =>
      obtain rfl := outsider_cases (.inr ⟨init, width, height, step⟩)
      exact ⟨hrecord, hcaptured, htoken, hsent⟩
  | works work =>
      obtain ⟨c, after, -, -, rfl⟩ := works_cases step
      exact ⟨hrecord, hcaptured, htoken, hsent⟩
  | unmounts =>
      obtain ⟨-, rfl⟩ := Option.ite_some_none_eq_some.mp step
      exact ⟨hrecord, (fun _ h => by cases h), htoken, hsent⟩

theorem Traced.of_run
    (run : play (RdpTab.step origin) (initial server isActive storage) actions = some s) :
    Traced server storage actions s :=
  play_invariant (Traced server storage) traced_initial (fun _ held hstep => held.step hstep) run

/-- A connection is for the record of the document, which the tab was rendered with, and its
token was in the storage, unless it is empty. -/
structure Attributed (origin : String) (first : ServerListItem) (held : Option String)
    (actions : List RdpTabAction) (c : RdpClient) (config : RdpConfig) : Prop where
  record : ∃ record, c.server = some record ∧ Rendered first actions record ∧
    config.destination = RdpClient.destination record ∧
    config.proxyAddress = RdpClient.proxyAddress origin record
  token : config.authToken = "" ∨ Stored held actions config.authToken
  size : config.desktopSize.Fits

theorem attributed_of_run {config : RdpConfig}
    (run : play (RdpTab.step origin) (initial server isActive storage) actions = some s)
    (document : c ∈ s.documents) (asked : .connect config ∈ c.calls) :
    Attributed origin server storage actions c config := by
  have htraced := Traced.of_run run
  have hsourced := (coupled_initial.play run).supplied.sourced c document
  obtain ⟨⟨record, hserver, hdestination, hproxy⟩, htoken, hsize⟩ := hsourced.connect config asked
  refine ⟨⟨record, hserver, ?_, hdestination, hproxy⟩, ?_, hsize⟩
  · obtain ⟨init, hinit, rfl⟩ := hsourced.server record hserver
    exact (htraced.sent init hinit).1
  · refine htoken.imp_right ?_
    rintro ⟨init, hinit, hsame⟩
    exact hsame ▸ (htraced.sent init hinit).2

/-- In every run each document, gone or not, has one connection at a time: a listener at most
waits, and before each `connect` the earlier ones were shut down.  Every size that is passed on
is even and within its bounds. -/
theorem connections_of_documents
    (run : play (RdpTab.step origin) (initial server isActive storage) actions = some s) :
    ∀ c ∈ s.documents,
      c.runs.length ≤ 1 ∧ RdpClient.Separated c.calls ∧
        (∀ size, .resize size ∈ c.calls → size.Fits) ∧
        ∀ config, .connect config ∈ c.calls →
          Attributed origin server storage actions c config := by
  intro c document
  have hsupplied := (coupled_initial.play run).supplied
  have horderly := hsupplied.orderly c document
  exact ⟨horderly.stage.length_le, horderly.separated,
    (hsupplied.sourced c document).resize, fun config => attributed_of_run run document⟩

theorem connections_of_documents_desktop : ∃ s : RdpTab, ∃ c ∈ s.documents,
    c.calls ≠ [] ∧ RdpClient.Separated c.calls ∧
      ∀ config, .connect config ∈ c.calls →
        Attributed "wss://ops" desktopItem (some "token") desktopActions c config := by
  have hrun : ∃ s, play (RdpTab.step "wss://ops") (initial desktopItem true (some "token"))
      desktopActions = some s ∧ ∃ c ∈ s.documents, c.calls ≠ [] :=
    ⟨_, rfl, _, List.mem_cons_self, by decide⟩
  obtain ⟨s, hplay, c, hdocument, hcalls⟩ := hrun
  obtain ⟨-, hseparated, -, hattributed⟩ := connections_of_documents hplay c hdocument
  exact ⟨s, c, hdocument, hcalls, hseparated, hattributed⟩

end RdpTab

end OpsUp.Ui
