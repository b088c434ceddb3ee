import OpsUp.Ui.RdpClient

/-!
# The connections of the remote desktop client

Three facts that every step of a document keeps: it has one connection at a time, each of
them is for the record that the tab has sent, and the last status that it has posted fits.
-/

namespace OpsUp.Ui

open OpsUp.Models

namespace RdpClient

/-! ## One connection at a time -/

/-- What the runs and the two variables can be together; after a builder that threw the
button stays disabled. -/
inductive Stage : List Awaiting → Bool → Bool → Prop
  | idle : Stage [] false false
  | stuck : Stage [] true false
  | dialing : Stage [.connect] true false
  | live : Stage [.run] false true

section Stage

variable {runs : List Awaiting} {connecting connected : Bool} {index : Nat}

/-- Only an idle client starts another connection. -/
theorem Stage.idle_of_free (stage : Stage runs connecting connected)
    (free : ¬ (connecting = true ∨ connected = true)) : runs = [] ∧ connected = false := by
  cases stage with
  | idle => exact ⟨rfl, rfl⟩
  | stuck => exact absurd (.inl rfl) free
  | dialing => exact absurd (.inl rfl) free
  | live => exact absurd (.inr rfl) free

theorem Stage.established (stage : Stage runs connecting connected)
    (awaited : runs[index]? = some .connect) :
    connecting = true ∧ Stage (runs.set index .run) false true := by
  cases stage with
  | idle => cases awaited
  | stuck => cases awaited
  | dialing =>
      cases index with
      | zero => exact ⟨rfl, .live⟩
      | succ index => cases awaited
  | live =>
      cases index with
      | zero => cases awaited
      | succ index => cases awaited

theorem Stage.finished {awaiting : Awaiting} (stage : Stage runs connecting connected)
    (awaited : runs[index]? = some awaiting) : Stage (runs.eraseIdx index) false false := by
  cases stage with
  | idle => exact .idle
  | stuck => exact .idle
  | dialing =>
      cases index with
      | zero => exact .idle
      | succ index => cases awaited
  | live =>
      cases index with
      | zero => exact .idle
      | succ index => cases awaited

theorem Stage.length_le (stage : Stage runs connecting connected) : runs.length ≤ 1 := by
  cases stage <;> decide

end Stage

structure Orderly (c : RdpClient) : Prop where
  stage : Stage c.runs c.connecting c.connected
  loaded : c.connecting = true ∨ c.connected = true → c.load = .ready ∧ c.server ≠ none
  ended : c.runs = [] → Ended c.calls
  separated : Separated c.calls

section Orderly

variable {c next : RdpClient} {notices : List RdpNotice} {origin : String}

theorem orderly_opened : opened.Orderly where
  stage := .idle
  loaded := by
    rintro (h | h) <;> cases h
  ended := fun _ front config back hsplit => by cases front <;> cases hsplit
  separated := fun front config back hsplit => by cases front <;> cases hsplit

theorem Orderly.kept (orderly : c.Orderly) (kept : Kept c next) : next.Orderly := by
  obtain ⟨more, hcalls, hplain⟩ := kept.calls
  constructor
  · rw [kept.runs, kept.connecting, kept.connected]
    exact orderly.stage
  · rw [kept.connecting, kept.connected, kept.load, kept.server]
    exact orderly.loaded
  · rw [kept.runs, hcalls]
    exact fun hruns => (orderly.ended hruns).append hplain
  · rw [hcalls]
    exact orderly.separated.append hplain

theorem Orderly.take (orderly : c.Orderly) (init : RdpInit) : (c.take init).Orderly := by
  obtain ⟨hstage, hloaded, hended, hseparated⟩ := orderly
  unfold RdpClient.take
  split
  · exact ⟨hstage, hloaded, hended, hseparated⟩
  · exact ⟨hstage, fun h => ⟨(hloaded h).1, Option.some_ne_none _⟩, hended, hseparated⟩

theorem Orderly.receive (orderly : c.Orderly) {init : RdpInit} {width height : Nat} :
    (c.receive init width height).Orderly :=
  (orderly.take init).kept kept_resized

theorem Orderly.pagehide (orderly : c.Orderly) : c.pagehide.Orderly := by
  obtain ⟨hstage, hloaded, hended, hseparated⟩ := orderly
  have hcleared : { c with password := "", token := "" }.Orderly :=
    ⟨hstage, hloaded, hended, hseparated⟩
  exact hcleared.kept (kept_callIfReady trivial)

theorem Orderly.start (orderly : c.Orderly) {server : ServerListItem} {built : Bool}
    {width height : Nat} (known : c.server = some server) (ready : c.load = .ready)
    (free : ¬ (c.connecting = true ∨ c.connected = true)) :
    (c.start origin server built width height).1.Orderly := by
  obtain ⟨hruns, hconnected⟩ := orderly.stage.idle_of_free free
  have hserver : c.server ≠ none := known ▸ Option.some_ne_none _
  cases built with
  | true =>
      refine ⟨?_, fun _ => ⟨ready, hserver⟩, ?_, ?_⟩
      · change Stage (c.runs ++ [.connect]) true c.connected
        rw [hruns, hconnected]
        exact .dialing
      · intro hnone
        exact absurd hnone (List.append_ne_nil_of_right_ne_nil _ (List.cons_ne_nil _ _))
      · exact orderly.separated.connect (orderly.ended hruns)
  | false =>
      refine ⟨?_, fun _ => ⟨ready, hserver⟩, orderly.ended, orderly.separated⟩
      change Stage c.runs true c.connected
      rw [hruns, hconnected]
      exact .stuck

theorem Orderly.established (orderly : c.Orderly) {index width height : Nat}
    (awaited : c.runs[index]? = some .connect) :
    (c.established index width height).1.Orderly := by
  obtain ⟨hconnecting, hlive⟩ := orderly.stage.established awaited
  have hcalls := calls_established c index width height
  refine ⟨hlive, fun _ => orderly.loaded (.inl hconnecting), fun hnone => ?_, ?_⟩
  · have hempty : c.runs.set index .run = [] := hnone
    rw [hempty] at hlive
    cases hlive
  · rw [hcalls.1]
    exact orderly.separated.append hcalls.2

theorem Orderly.finish (orderly : c.Orderly) {text : String} {index : Nat} {awaiting : Awaiting}
    (awaited : c.runs[index]? = some awaiting) : (c.finish text index).1.Orderly := by
  have hcalls := calls_finish c text index
  refine ⟨orderly.stage.finished awaited, ?_, fun _ => ?_, ?_⟩
  · rintro (h | h) <;> cases h
  · rw [hcalls.1]
    exact ended_shutdown hcalls.2 List.mem_cons_self
  · rw [hcalls.1]
    exact orderly.separated.append hcalls.2

theorem Orderly.move (orderly : c.Orderly) {after : RdpClient × List RdpNotice}
    (move : Move origin c after) : after.1.Orderly := by
  cases move with
  | keeps kept => exact orderly.kept kept
  | @loaded load text value disabled hloading hload hvalue =>
      obtain ⟨hstage, hloaded, hended, hseparated⟩ := orderly
      refine ⟨hstage, fun hbusy => ?_, hended, hseparated⟩
      rw [hloading] at hloaded
      cases (hloaded hbusy).1
  | started hserver hready hfree => exact orderly.start hserver hready hfree
  | established hawaited => exact orderly.established hawaited
  | finished hawaited => exact orderly.finish hawaited

end Orderly

/-! ## What a connection is asked for -/

/-- The configuration is that of the record, with a token that is known. -/
structure Founded (origin : String) (known : RdpInit → Prop) (server : Option ServerListItem)
    (config : RdpConfig) : Prop where
  record : ∃ record, server = some record ∧ config.destination = destination record ∧
    config.proxyAddress = proxyAddress origin record
  token : config.authToken = "" ∨ ∃ init, known init ∧ init.token = config.authToken
  size : config.desktopSize.Fits

structure Sourced (origin : String) (known : RdpInit → Prop) (c : RdpClient) : Prop where
  server : ∀ server, c.server = some server → ∃ init, known init ∧ init.server = server
  token : c.token = "" ∨ ∃ init, known init ∧ init.token = c.token
  connect : ∀ config, .connect config ∈ c.calls → Founded origin known c.server config
  resize : ∀ size, .resize size ∈ c.calls → size.Fits

section Sourced

variable {c next : RdpClient} {origin : String} {known more : RdpInit → Prop}

theorem sourced_opened : opened.Sourced origin known where
  server := fun _ h => by cases h
  token := .inl rfl
  connect := fun _ h => by cases h
  resize := fun _ h => by cases h

theorem Sourced.mono (sourced : c.Sourced origin known) (grow : ∀ init, known init → more init) :
    c.Sourced origin more := by
  have hexists : ∀ {goal : RdpInit → Prop}, (∃ init, known init ∧ goal init) →
      ∃ init, more init ∧ goal init := fun ⟨init, hknown, hgoal⟩ => ⟨init, grow init hknown, hgoal⟩
  constructor
  · exact fun server hserver => hexists (sourced.server server hserver)
  · exact sourced.token.imp_right hexists
  · intro config hmem
    obtain ⟨hrecord, htoken, hsize⟩ := sourced.connect config hmem
    exact ⟨hrecord, htoken.imp_right hexists, hsize⟩
  · exact sourced.resize

/-- Calls that open nothing are added, and the rest stays. -/
theorem Sourced.plain (sourced : c.Sourced origin known) {back : List RdpCall}
    (server : next.server = c.server) (token : next.token = c.token)
    (calls : next.calls = c.calls ++ back) (plain : ∀ call ∈ back, call.Plain) :
    next.Sourced origin known := by
  constructor
  · exact server ▸ sourced.server
  · exact token ▸ sourced.token
  · intro config hmem
    rw [calls] at hmem
    rcases List.mem_append.mp hmem with hfront | hback
    · exact server ▸ sourced.connect config hfront
    · exact (plain _ hback).elim
  · intro size hmem
    rw [calls] at hmem
    rcases List.mem_append.mp hmem with hfront | hback
    · exact sourced.resize size hfront
    · exact plain _ hback

theorem Sourced.kept (sourced : c.Sourced origin known) (kept : Kept c next) :
    next.Sourced origin known := by
  obtain ⟨back, hcalls, hplain⟩ := kept.calls
  exact sourced.plain kept.server kept.token hcalls hplain

theorem Sourced.take (sourced : c.Sourced origin known) {init : RdpInit} (hinit : known init) :
    (c.take init).Sourced origin known := by
  have htoken : init.token = "" ∨ ∃ other, known other ∧ other.token = init.token :=
    .inr ⟨init, hinit, rfl⟩
  unfold RdpClient.take
  split
  · rename_i server hserver
    exact ⟨sourced.server, htoken, sourced.connect, sourced.resize⟩
  · rename_i hserver
    refine ⟨fun server hsome => ⟨init, hinit, Option.some.inj hsome⟩, htoken, ?_, sourced.resize⟩
    intro config hmem
    obtain ⟨record, hrecord, -⟩ := (sourced.connect config hmem).record
    rw [hserver] at hrecord
    cases hrecord

theorem Sourced.receive (sourced : c.Sourced origin known) {init : RdpInit} {width height : Nat}
    (hinit : known init) : (c.receive init width height).Sourced origin known :=
  (sourced.take hinit).kept kept_resized

theorem Sourced.pagehide (sourced : c.Sourced origin known) :
    c.pagehide.Sourced origin known := by
  have hcleared : { c with password := "", token := "" }.Sourced origin known :=
    ⟨sourced.server, .inl rfl, sourced.connect, sourced.resize⟩
  exact hcleared.kept (kept_callIfReady trivial)

theorem Sourced.start (sourced : c.Sourced origin known) {server : ServerListItem} {built : Bool}
    {width height : Nat} (hserver : c.server = some server) :
    (c.start origin server built width height).1.Sourced origin known := by
  cases built with
  | false => exact ⟨sourced.server, sourced.token, sourced.connect, sourced.resize⟩
  | true =>
      refine ⟨sourced.server, sourced.token, fun config hmem => ?_, fun size hmem => ?_⟩
      · rcases List.mem_append.mp hmem with hfront | hback
        · exact sourced.connect config hfront
        · obtain rfl := RdpCall.connect.inj (List.mem_singleton.mp hback)
          exact ⟨⟨server, hserver, rfl, rfl⟩, sourced.token, DesktopSize.fits_ofClient _ _⟩
      · rcases List.mem_append.mp hmem with hfront | hback
        · exact sourced.resize size hfront
        · cases List.mem_singleton.mp hback

theorem Sourced.move (sourced : c.Sourced origin known) {after : RdpClient × List RdpNotice}
    (move : Move origin c after) : after.1.Sourced origin known := by
  cases move with
  | keeps kept => exact sourced.kept kept
  | loaded hloading hload hvalue =>
      exact ⟨sourced.server, sourced.token, sourced.connect, sourced.resize⟩
  | started hserver hready hfree => exact sourced.start hserver
  | @established index width height hawaited =>
      have hcalls := calls_established c index width height
      exact sourced.plain rfl rfl hcalls.1 hcalls.2
  | @finished text index awaiting hawaited =>
      have hcalls := calls_finish c text index
      exact sourced.plain rfl rfl hcalls.1 hcalls.2

end Sourced

/-! ## What the tab hears -/

/-- The last status fits the client. -/
def Agrees (last : Option ConnectionStatus) (c : RdpClient) : Prop :=
  (last = some .connected ↔ c.connected = true) ∧ (c.connecting = true → last = some .connecting)

section Agrees

variable {c next : RdpClient} {origin : String} {last : Option ConnectionStatus}

theorem Agrees.congr (agrees : Agrees last c) (connecting : next.connecting = c.connecting)
    (connected : next.connected = c.connected) : Agrees last next := by
  unfold Agrees
  rw [connecting, connected]
  exact agrees

/-- While nothing was asked for, every other status fits. -/
theorem agrees_of_quiet (quiet : c.connecting = false ∧ c.connected = false)
    (value : last ≠ some .connected) : Agrees last c := by
  obtain ⟨hconnecting, hconnected⟩ := quiet
  unfold Agrees
  rw [hconnecting, hconnected]
  exact ⟨⟨fun same => absurd same value, fun h => by cases h⟩, fun h => by cases h⟩

theorem Orderly.quiet (orderly : c.Orderly) (unready : c.load ≠ .ready ∨ c.server = none) :
    c.connecting = false ∧ c.connected = false := by
  have hnot : ¬ (c.connecting = true ∨ c.connected = true) := fun hbusy => by
    obtain ⟨hready, hserver⟩ := orderly.loaded hbusy
    exact unready.elim (fun h => h hready) (fun h => hserver h)
  obtain ⟨hconnecting, hconnected⟩ := not_or.mp hnot
  exact ⟨Bool.eq_false_iff.mpr hconnecting, Bool.eq_false_iff.mpr hconnected⟩

/-- A step is silent and changes nothing that a status is about, or it posts a status that
fits the client. -/
theorem Move.agrees (orderly : c.Orderly) {after : RdpClient × List RdpNotice}
    (move : Move origin c after) :
    (after.2 = [] ∧ after.1.load = c.load ∧ after.1.connecting = c.connecting ∧
        after.1.connected = c.connected) ∨
      ∃ value, after.2 = [.status value] ∧ Agrees (some value) after.1 := by
  cases move with
  | keeps kept => exact .inl ⟨rfl, kept.load, kept.connecting, kept.connected⟩
  | @loaded load text value disabled hloading hload hvalue =>
      have hquiet := orderly.quiet (.inl (by rw [hloading]; decide))
      refine .inr ⟨value, rfl, agrees_of_quiet hquiet fun same => hvalue (Option.some.inj same)⟩
  | @started server built width height hserver hready hfree =>
      obtain ⟨-, hconnected⟩ := orderly.stage.idle_of_free hfree
      refine .inr ⟨.connecting, by cases built <;> rfl, ?_, fun _ => rfl⟩
      have hsame : (c.start origin server built width height).1.connected = c.connected := by
        cases built <;> rfl
      rw [hsame, hconnected]
      exact ⟨(fun same => by cases same), (fun same => by cases same)⟩
  | established hawaited =>
      exact .inr ⟨.connected, rfl, ⟨fun _ => rfl, fun _ => rfl⟩, fun h => by cases h⟩
  | finished hawaited =>
      exact .inr ⟨.error, rfl, agrees_of_quiet ⟨rfl, rfl⟩ (by decide)⟩

end Agrees

end RdpClient

end OpsUp.Ui
