import OpsUp.Api.RemoteHandlers

/-!
# What the remote handlers answer

On the file tree of a server the handlers answer as their plain functions say.  The
connection test only succeeds after it has followed a route of the stored record to its end.
-/

namespace OpsUp.Api

open OpsUp.Crypto OpsUp.Database OpsUp.Go OpsUp.Interaction OpsUp.Models OpsUp.Posix
open OpsUp.SftpClient OpsUp.SshClient OpsUp.Storage Program

/-! ## File requests on a tree -/

/-- The server answers from its file tree; `other` answers what the tree does not model. -/
def fileServer (process : Process)
    (other : Files → (command : FileCommand) → command.Reply × Files) (files : Files) :
    (command : FileCommand) → command.Reply × Files
  | .readDir path => (readDir process files path, files)
  | .stat path => (stat process files path, files)
  | .remove path =>
      match remove process files path with
      | .error err => (.error err, files)
      | .ok after => (.ok (), after)
  | .removeDirectory path =>
      match removeDirectory process files path with
      | .error err => (.error err, files)
      | .ok after => (.ok (), after)
  | command => other files command

variable {process : Process} {other : Files → (command : FileCommand) → command.Reply × Files}

theorem listBody_run (query : String) (files : Files) :
    (run (fileServer process other) (listBody query) files).2 =
      (.json (sftpList (.ok process) query files), files) := by
  unfold listBody sftpList
  simp only [run, fileServer]
  cases readDir process files (directoryOr query) with
  | error err => rfl
  | ok entries => rfl

theorem deleteBody_run {filePath : String} (given : filePath ≠ "") (files : Files) :
    (run (fileServer process other) (deleteBody filePath) files).2 =
      (.json (sftpDelete (.ok process) filePath files).1,
        (sftpDelete (.ok process) filePath files).2) := by
  unfold deleteBody sftpDelete
  rw [if_neg given]
  simp only [run, fileServer]
  cases stat process files filePath with
  | error err => rfl
  | ok entry =>
      dsimp only
      split
      · simp only [run, fileServer]
        cases removeDirectory process files filePath <;> rfl
      · simp only [run, fileServer]
        cases remove process files filePath <;> rfl

/-- An upload that is refused is refused whatever the server says. -/
theorem sftpUpload_refused {form : UploadForm} {refusal : SftpResponse}
    (refused : uploadRefusal form = some refusal) (connected : Except String Unit)
    (rand : Option UploadNonce) (posixRename : Bool) :
    sftpUpload form connected rand posixRename = pure refusal := by
  rcases form with tooLarge | ⟨path, _ | ⟨filename, source⟩⟩
  · exact congrArg _ (Option.some.inj refused)
  · exact congrArg _ (Option.some.inj refused)
  · unfold uploadRefusal at refused
    unfold sftpUpload
    cases hname : uploadName filename with
    | none =>
        simp only [hname] at refused ⊢
        exact congrArg _ (Option.some.inj refused)
    | some name =>
        simp only [hname] at refused
        cases refused

/-! ## The connection test -/

variable {ssh : SSH} {gcm : GCM} {encKey : String} {mayFail : Prop} {τ : Type}
  {net : Service (network ssh) τ} {table : ServersTable} {state : τ}

/-- A query of the database is no attempt to connect. -/
theorem executes_query {α : Type} {program : DB α} {final : ServersTable × τ} {value : α}
    {events : List (Event (dialing ssh))}
    (run : Executes (Service.sum (servers mayFail) net) program.inl (table, state) events value final) :
    final.2 = state ∧ rights events = [] ∧
      ∃ own, Executes (servers mayFail) program table own value final.1 := by
  induction program generalizing table events with
  | ret returned =>
      obtain ⟨rfl, rfl, rfl⟩ := executes_ret_iff.mp run
      exact ⟨rfl, rfl, [], .refl _ _⟩
  | call command next ih =>
      obtain ⟨reply, ⟨middle, same⟩, rest, rfl, ⟨answer, rfl⟩, htail⟩ := executes_call_iff.mp run
      obtain ⟨hstate, hrights, own, hown⟩ := ih reply htail
      exact ⟨hstate, hrights, ⟨command, reply⟩ :: own, .call answer hown⟩

/-- Loading a record leaves the table as it is. -/
theorem executes_getServer {id : Int} {after : ServersTable} {own : List (Event serversDB)}
    {loaded : Except String (Option Server)}
    (run : Executes (servers mayFail) (getServer id) table own loaded after) :
    after = table ∧ Reads mayFail table id loaded := by
  obtain ⟨reply, middle, rest, -, answer, htail⟩ := executes_call_iff.mp run
  obtain ⟨-, rfl, rfl⟩ := executes_ret_iff.mp htail
  rcases answer with ⟨now, hperform⟩ | ⟨hfail, ⟨err, rfl⟩, rfl⟩
  · obtain ⟨rfl, rfl⟩ := Prod.mk.inj hperform
    exact ⟨rfl, .inl (scanSelected_eq after id)⟩
  · exact ⟨rfl, .inr ⟨hfail, err, rfl⟩⟩

/-- A record that `TestConnection` connects to. -/
def Testable (table : ServersTable) (param : String) (server : Server) : Prop :=
  readServer table (parseIntValue param) = .ok (some server) ∧ server.protocol ≠ "rdp"

/-- What the test may answer, and whom it has contacted. -/
structure Truthful (ssh : SSH) (gcm : GCM) (encKey : String) (table : ServersTable)
    (param : String) (answer : Answer) (events : List (Event (dialing ssh))) : Prop where
  success : ∀ err, answer = .tested true err → ∃ server, Testable table param server ∧
    ∃ client hops path, Route ssh gcm encKey table server client hops path ∧
      attempts (rights events) = path ∧ ∀ hop ∈ hops, Verified events hop
  absent : (∀ server, ¬ Testable table param server) →
    attempts (rights events) = [] ∧ ∃ status text, answer = .json status (.error text)
  route : attempts (rights events) = [] ∨ ∃ server, Testable table param server ∧
    ∃ client hops path, Route ssh gcm encKey table server client hops path ∧
      attempts (rights events) <+: path

theorem truthful_refused {param : String} {status : Nat} {text : String}
    {events : List (Event (dialing ssh))} (silent : rights events = []) :
    Truthful ssh gcm encKey table param (.json status (.error text)) events := by
  have hnone : attempts (rights events) = [] := by
    rw [silent]
    rfl
  exact ⟨nofun, fun _ => ⟨hnone, status, text, rfl⟩, .inl hnone⟩

theorem Verified.mono {events front back : List (Event (dialing ssh))} {hop : Hop ssh}
    (verified : Verified events hop) : Verified (front ++ events ++ back) hop := by
  obtain ⟨hostname, key, hevent, hpinned⟩ := verified
  refine ⟨hostname, key, ?_, hpinned⟩
  rw [rights_append, rights_append]
  exact List.mem_append_left _ (List.mem_append_right _ hevent)

/-- The connection has been tried, and there are no attempts before or after it. -/
theorem truthful_dialled (checks : ChecksHostKeys ssh net) {param : String} {server : Server}
    (testable : Testable table param server) {before dialling after : List (Event (dialing ssh))}
    {result : Dialed} {final : ServersTable × τ} {answer : Answer}
    (run : Executes (Service.sum (servers mayFail) net) (dialServer ssh gcm (some server) encKey)
      (table, state) dialling result final)
    (silent : attempts (rights before) = []) (quiet : attempts (rights after) = [])
    (success : ∀ err, answer = .tested true err → ∃ client, result.1 = some client) :
    Truthful ssh gcm encKey table param answer (before ++ dialling ++ after) := by
  obtain ⟨hrouted, -⟩ := Executes.postcondition _ _ run (keeps_dialServer checks)
  have hpermitted := run.traced (keeps_dialServer checks) (Or.inl rfl)
  have hattempts : attempts (rights (before ++ dialling ++ after)) = attempts (rights dialling) := by
    rw [rights_append, rights_append, attempts_append, attempts_append, silent, quiet,
      List.nil_append, List.append_nil]
  refine ⟨fun err hsuccess => ?_, fun hnone => absurd testable (hnone server), ?_⟩
  · obtain ⟨client, hclient⟩ := success err hsuccess
    obtain ⟨hops, path, hroute, hpath, hverified⟩ := hrouted client hclient
    refine ⟨server, testable, client, hops, path, hroute, hattempts.trans hpath, fun hop hmem => ?_⟩
    exact (hverified hop hmem).mono
  · rw [hattempts]
    rcases hpermitted with hnone | ⟨client, hops, path, hroute, hprefix⟩
    · exact .inl hnone
    · exact .inr ⟨server, testable, client, hops, path, hroute, hprefix⟩

/--
Whatever the peers do: the test only succeeds for a stored record that is not of an rdp
server, after it has attempted a whole route of that record and every peer on it has presented
the pinned key; it contacts nobody when there is no such record, and otherwise keeps to a
route.
-/
theorem testConnection_truthful (checks : ChecksHostKeys ssh net) {param : String}
    {answer : Answer} {events : List (Event (dialing ssh))} {final : ServersTable × τ}
    (run : Executes (Service.sum (servers mayFail) net) (testConnection ssh gcm encKey param)
      (table, state) events answer final) :
    Truthful ssh gcm encKey table param answer events := by
  obtain ⟨before, after, loaded, middle, rfl, hload, hrest⟩ := executes_bind_iff.mp run
  obtain ⟨hstate, hsilent, own, hown⟩ := executes_query hload
  obtain ⟨htable, hreads⟩ := executes_getServer hown
  obtain rfl : middle = (table, state) := Prod.ext htable hstate
  rcases loaded with err | _ | server
  · obtain ⟨rfl, rfl, -⟩ := executes_ret_iff.mp hrest
    exact truthful_refused (by rw [List.append_nil, hsilent])
  · obtain ⟨rfl, rfl, -⟩ := executes_ret_iff.mp hrest
    exact truthful_refused (by rw [List.append_nil, hsilent])
  · dsimp only at hrest
    split at hrest
    · obtain ⟨rfl, rfl, -⟩ := executes_ret_iff.mp hrest
      exact truthful_refused (by rw [List.append_nil, hsilent])
    · next hprotocol =>
        have htestable : Testable table param server := ⟨hreads.of_ok, hprotocol⟩
        have hbefore : attempts (rights before) = [] := by
          rw [hsilent]
          rfl
        obtain ⟨dialling, closing, result, last, rfl, hdial, hanswer⟩ := executes_bind_iff.mp hrest
        rw [← List.append_assoc]
        rcases result with ⟨_ | client, _ | err⟩
        · obtain ⟨rfl, rfl, -⟩ := executes_ret_iff.mp hanswer
          exact truthful_dialled checks htestable hdial hbefore rfl nofun
        · obtain ⟨rfl, rfl, -⟩ := executes_ret_iff.mp hanswer
          exact truthful_dialled checks htestable hdial hbefore rfl nofun
        · obtain ⟨reply, closed, rest, rfl, -, hlast⟩ := executes_call_iff.mp hanswer
          obtain ⟨rfl, rfl, -⟩ := executes_ret_iff.mp hlast
          exact truthful_dialled checks htestable hdial hbefore rfl fun _ _ => ⟨client, rfl⟩
        · obtain ⟨rfl, rfl, -⟩ := executes_ret_iff.mp hanswer
          exact truthful_dialled checks htestable hdial hbefore rfl nofun

/-- The test of a server behind a jump host succeeds. -/
theorem testConnection_truthful_tunnel :
    (run answerDialing (testConnection textSSH tagGCM legacyEncryptionKey "2") (tunnelTable, ())).2.1 =
      .tested true none ∧
    ∃ server, Testable tunnelTable "2" server ∧ ∃ client hops path,
      Route textSSH tagGCM legacyEncryptionKey tunnelTable server client hops path := by
  have hexecuted := executes_run answerDialing_answers
    (testConnection textSSH tagGCM legacyEncryptionKey "2") (tunnelTable, ())
  have hanswer : (run answerDialing (testConnection textSSH tagGCM legacyEncryptionKey "2")
      (tunnelTable, ())).2.1 = .tested true none := by
    decide +kernel
  obtain ⟨server, htestable, client, hops, path, hroute, -⟩ :=
    (testConnection_truthful helpfulNetwork_checks hexecuted).success none hanswer
  exact ⟨hanswer, server, htestable, client, hops, path, hroute⟩

end OpsUp.Api
