import OpsUp.Api.SaveDecision
import OpsUp.Api.StoredCredentials

/-!
# Two updates of one server

An update keeps the stored value of every credential it is not given.  It takes
that value from the row it read, so an update that runs in between and stores
another value there is undone.  This is the only way in which two updates of one
server fail to be serializable.
-/

namespace OpsUp.Api

open OpsUp.Crypto OpsUp.Go OpsUp.Interaction OpsUp.Models OpsUp.Database OpsUp.Storage

/-- The table as it stands lets the request through. -/
structure Applicable (gcm : GCM) (encKey : String) (table : ServersTable) {id : Int}
    (put : Put id) (req : ServerCreateReq) (current : Server) : Prop where
  accepted : accepted put.body = .ok req
  positive : 0 < id
  read : readServer table id = .ok (some current)
  jump : JumpAccepted table req id
  kept : KeepsStored id req (neededCredential req) →
    (neededCredential req).ofServer current ≠ ""
  supplied : ¬ KeepsStored id req (neededCredential req) →
    ∃ value, suppliedValue gcm encKey put.rand table req (neededCredential req) = .ok value

/--
Both updates pass on the table as it stands, and one of them supplies another
value for a credential that the other one keeps.
-/
def LostUpdate (gcm : GCM) (encKey : String) (table : ServersTable) {id : Int}
    (puts : Bool → Put id) : Prop :=
  ∃ client req other current,
    Applicable gcm encKey table (puts client) req current ∧
    Applicable gcm encKey table (puts !client) other current ∧
    ∃ credential, KeepsStored id other credential ∧ ¬ KeepsStored id req credential ∧
      suppliedValue gcm encKey (puts client).rand table req credential ≠
        .ok (credential.ofServer current)

/-- The two tables have the same row under this id, up to `updated_at`. -/
def SameRow (id : Int) (table other : ServersTable) : Prop :=
  (table.find id).map (fun row => { row with updatedAt := "" }) =
    (other.find id).map fun row => { row with updatedAt := "" }

/-- One after the other, in some order, the updates leave the same row. -/
def Serializable (gcm : GCM) (encKey : String) (table : ServersTable) {id : Int}
    (puts : Bool → Put id) (final : ServersTable) : Prop :=
  ∃ client first middle second after,
    Handles False gcm encKey table (puts client).request first middle ∧
    Handles False gcm encKey middle (puts !client).request second after ∧
    SameRow id final after

/-- Every interleaving of the statements of the two updates is serializable. -/
def AlwaysSerializable (gcm : GCM) (encKey : String) (table : ServersTable) {id : Int}
    (puts : Bool → Put id) : Prop :=
  ∀ events final, World.Steps (servers False)
      (serving gcm (fun _ => encKey) (fun client => (puts client).request) table) events final →
    (∀ client, ∃ response, final.threads client = .ret response) →
    Serializable gcm encKey table puts final.store

/-! ## The row after an update -/

section Written

variable {table : ServersTable} {id : Int} {current record : Server} {now : String}

theorem readServer_update_other {key : Int} (other : key ≠ id) :
    readServer table key = readServer (table.update id (updatedRow record now)) key := by
  unfold readServer
  rw [Table.find_update_other other]

/-- The own row reads as the record that was written over it. -/
theorem readServer_update_self (record : Server) (now : String) (read : readServer table id = .ok (some current)) :
    ∃ written, readServer (table.update id (updatedRow record now)) id = .ok (some written) ∧
      ∀ credential : Credential, credential.ofServer written = credential.ofServer record := by
  unfold readServer at read ⊢
  cases hfind : table.find id with
  | none =>
      rw [hfind] at read
      cases read
  | some row =>
      rw [Table.find_update_self hfind]
      exact ⟨_, rfl, fun credential => by cases credential <;> rfl⟩

def storedCredential (table : ServersTable) (id : Int) (credential : Credential) :
    Option String :=
  (table.find id).map credential.ofRow

theorem storedCredential_of_read (read : readServer table id = .ok (some current))
    (credential : Credential) :
    storedCredential table id credential = some (credential.ofServer current) := by
  unfold readServer at read
  unfold storedCredential
  cases hfind : table.find id with
  | none =>
      rw [hfind] at read
      cases read
  | some row =>
      simp only [hfind, Except.map] at read
      cases hscan : scanRow row with
      | error err => simp [hscan] at read
      | ok scanned =>
          simp only [hscan, Except.ok.injEq, Option.some.injEq] at read
          subst read
          obtain ⟨password, description, group, hpassword, -, -, rfl⟩ :=
            scanRow_eq_ok_iff.mp hscan
          cases credential
          · rfl
          · simp [Credential.ofRow, Credential.ofServer, ofRow, hpassword]

theorem storedCredential_update (read : readServer table id = .ok (some current))
    (credential : Credential) :
    storedCredential (table.update id (updatedRow record now)) id credential =
      some (credential.ofServer record) := by
  unfold readServer at read
  unfold storedCredential
  cases hfind : table.find id with
  | none =>
      rw [hfind] at read
      cases read
  | some row =>
      rw [Table.find_update_self hfind]
      cases credential <;> rfl

theorem SameRow.storedCredential {other : ServersTable} (same : SameRow id table other)
    (credential : Credential) :
    storedCredential table id credential = storedCredential other id credential := by
  have hmapped := congrArg (Option.map credential.ofRow) same
  simp only [Option.map_map] at hmapped
  cases credential <;> exact hmapped

/-- Two outcomes of one decision differ in the clock only. -/
theorem Outcome.sameRow {decided : Except Response Server} {first second : Response}
    {left right : ServersTable} (hleft : Outcome id table decided first left)
    (hright : Outcome id table decided second right) : SameRow id left right := by
  cases decided with
  | error refusal =>
      obtain ⟨-, rfl⟩ := hleft
      obtain ⟨-, rfl⟩ := hright
      rfl
  | ok record =>
      obtain ⟨-, now, rfl⟩ := hleft
      obtain ⟨-, later, rfl⟩ := hright
      unfold SameRow
      rw [Table.find_update, Table.find_update, if_pos rfl, if_pos rfl]
      cases table.find id <;> rfl

end Written

/-! ## Without a lost update -/

section Serial

variable {gcm : GCM} {encKey : String} {id : Int} {table middle final : ServersTable}
  {puts : Bool → Put id} {record : Server} {now : String}

/-- A second update that decides as it would after the first one is serializable. -/
theorem serializable_of_outcome (client : Bool) {first second : Response}
    (handled : Handles False gcm encKey table (puts client).request first middle)
    (outcome : Outcome id middle (decision gcm encKey (puts !client) middle middle middle)
      second final) :
    Serializable gcm encKey table puts final := by
  obtain ⟨response, after, hsecond⟩ : ∃ response after,
      Handles False gcm encKey middle (puts !client).request response after := exists_handles _ _
  exact ⟨client, first, middle, response, after, handled, hsecond,
    outcome.sameRow (handles_put hsecond)⟩

/-- The record an update decides to write, with what it was computed from. -/
theorem decision_resolved {put : Put id} {req : ServerCreateReq} {current : Server}
    (applicable : Applicable gcm encKey table put req current) :
    ∃ credentials, resolveWith gcm encKey put.rand req (some current)
        (readServer table req.copyKeyFrom) = .ok credentials ∧
      decision gcm encKey put table table table = .ok (savedServer req id credentials) := by
  obtain ⟨credentials, hresolved⟩ :=
    (exists_resolved_iff applicable.read).mpr ⟨applicable.kept, applicable.supplied⟩
  exact ⟨credentials, hresolved, decision_eq_ok_iff.mpr ⟨req, current, credentials,
    applicable.accepted, applicable.positive, applicable.read, applicable.jump, hresolved, rfl⟩⟩

/-- An update that decides to write is applicable. -/
theorem applicable_of_decision {put : Put id}
    (decided : decision gcm encKey put table table table = .ok record) :
    ∃ req current credentials, Applicable gcm encKey table put req current ∧
      resolveWith gcm encKey put.rand req (some current) (readServer table req.copyKeyFrom) =
        .ok credentials ∧ record = savedServer req id credentials := by
  obtain ⟨req, current, credentials, haccepted, hpositive, hread, hjump, hresolved, hrecord⟩ :=
    decision_eq_ok_iff.mp decided
  obtain ⟨hkept, hsupplied⟩ := (exists_resolved_iff hread).mp ⟨credentials, hresolved⟩
  exact ⟨req, current, credentials, ⟨haccepted, hpositive, hread, hjump, hkept, hsupplied⟩,
    hresolved, hrecord⟩

/-- Neither table the two updates see differs from the first one beside the own row. -/
theorem beside_of_seen {seen : ServersTable}
    (hseen : seen = table ∨ seen = table.update id (updatedRow record now)) (key : Int)
    (other : key ≠ id) : readServer table key = readServer seen key := by
  rcases hseen with rfl | rfl
  · rfl
  · exact readServer_update_other other

/-- Where the first update leaves alone what the second one keeps, the second one
decides the same whatever it sees. -/
theorem decision_unaffected {put : Put id} {req : ServerCreateReq} {current : Server}
    {credentials : String × String} {s₁ s₂ s₃ : ServersTable}
    (applicable : Applicable gcm encKey table put req current)
    (resolved : resolveWith gcm encKey put.rand req (some current)
      (readServer table req.copyKeyFrom) = .ok credentials)
    (kept : ∀ credential, KeepsStored id req credential →
      credential.ofServer record = credential.ofServer current)
    (h₁ : s₁ = table ∨ s₁ = table.update id (updatedRow record now))
    (h₂ : s₂ = table ∨ s₂ = table.update id (updatedRow record now))
    (h₃ : s₃ = table ∨ s₃ = table.update id (updatedRow record now)) :
    decision gcm encKey put s₁ s₂ s₃ = .ok (savedServer req id credentials) := by
  obtain ⟨written, hwritten, hcredential⟩ :=
    readServer_update_self record now applicable.read
  have own : ∀ seen, (seen = table ∨ seen = table.update id (updatedRow record now)) →
      ∃ server, readServer seen id = .ok (some server) ∧
        ∀ credential, KeepsStored id req credential →
          credential.ofServer current = credential.ofServer server := by
    rintro seen (rfl | rfl)
    · exact ⟨current, applicable.read, fun _ _ => rfl⟩
    · exact ⟨written, hwritten, fun credential hkept =>
        ((hcredential credential).trans (kept credential hkept)).symm⟩
  obtain ⟨server, hread, hserver⟩ := own s₁ h₁
  obtain ⟨source, hsource, hsourceKey⟩ := own s₃ h₃
  refine decision_eq_ok_iff.mpr ⟨req, server, credentials, applicable.accepted,
    applicable.positive, hread, ?_, ?_, rfl⟩
  · rw [← jumpRefusal_eq_none_iff, ← jumpRefusal_congr (beside_of_seen h₂),
      jumpRefusal_eq_none_iff]
    exact applicable.jump
  · rw [← resolved]
    refine (resolveWith_congr id (hserver .password) (fun hkept _ => hserver .privateKey hkept)
      ?_).symm
    intro hssh hauth hsubmitted hcopy
    by_cases hown : req.copyKeyFrom = id
    · have hkey : current.privateKey = source.privateKey :=
        hsourceKey .privateKey ⟨hssh, Or.inr ⟨hsubmitted, Or.inr hown⟩⟩
      rw [hown, applicable.read, hsource]
      simp only [sourceKey, hkey]
    · rw [beside_of_seen h₃ _ hown]

/--
An update that passes only because it saw the other one's row when it copied a
key from its own server decides the same when it sees nothing but that row.
-/
theorem decision_late_copy {put first : Put id} {req : ServerCreateReq} {current : Server}
    {credentials : String × String} {late : Server} {refusal : Response} {s₂ s₃ : ServersTable}
    (applicable : Applicable gcm encKey table first req current)
    (resolved : resolveWith gcm encKey first.rand req (some current)
      (readServer table req.copyKeyFrom) = .ok credentials)
    (hmiddle : middle = table.update id (updatedRow (savedServer req id credentials) now))
    (h₂ : s₂ = table ∨ s₂ = middle) (h₃ : s₃ = table ∨ s₃ = middle)
    (early : decision gcm encKey put table table table = .error refusal)
    (passed : decision gcm encKey put table s₂ s₃ = .ok late) :
    decision gcm encKey put middle middle middle = .ok late := by
  obtain ⟨other, stored, credentials', haccepted, hpositive, hread, hjump, hresolved, rfl⟩ :=
    decision_eq_ok_iff.mp passed
  obtain rfl := Option.some.inj (Except.ok.inj (hread.symm.trans applicable.read))
  obtain ⟨written, hwritten, hcredential⟩ :=
    readServer_update_self (savedServer req id credentials) now hread
  rw [← hmiddle] at hwritten
  have beside : ∀ {seen}, (seen = table ∨ seen = middle) → ∀ key, key ≠ id →
      readServer table key = readServer seen key := by
    intro seen hseen key hother
    rw [hmiddle] at hseen
    exact beside_of_seen hseen key hother
  have hjumpTable : JumpAccepted table other id := by
    rw [← jumpRefusal_eq_none_iff, jumpRefusal_congr (beside h₂), jumpRefusal_eq_none_iff]
    exact hjump
  have unresolved : ∀ found, resolveWith gcm encKey put.rand other (some stored)
      (readServer table other.copyKeyFrom) ≠ .ok found := by
    intro found hfound
    have hpass := decision_eq_ok_iff.mpr ⟨other, stored, found, haccepted, hpositive, hread,
      hjumpTable, hfound, rfl⟩
    rw [hpass] at early
    cases early
  -- the source row is all that the two computations do not share
  have copies : other.protocol ≠ "rdp" ∧ other.authType ≠ "password" ∧ other.privateKey = "" ∧
      0 < other.copyKeyFrom ∧ other.copyKeyFrom = id ∧ s₃ = middle := by
    refine Classical.byContradiction fun hnot => unresolved credentials' ?_
    rw [← hresolved]
    refine resolveWith_congr id (fun _ => rfl) (fun _ _ => rfl) ?_
    intro hssh hauth hsubmitted hcopy
    rcases h₃ with rfl | hlate
    · rfl
    · by_cases hown : other.copyKeyFrom = id
      · exact absurd ⟨hssh, hauth, hsubmitted, hcopy, hown, hlate⟩ hnot
      · rw [beside (Or.inr hlate) _ hown]
  obtain ⟨hssh, hauth, hsubmitted, hcopy, hown, hlate⟩ := copies
  rw [hlate, hown, hwritten] at hresolved
  have hneeded : neededCredential other = .privateKey := if_neg hauth
  have hempty : stored.privateKey = "" := by
    refine Classical.byContradiction fun hne => ?_
    have hkept : KeepsStored id other .privateKey := ⟨hssh, Or.inr ⟨hsubmitted, Or.inr hown⟩⟩
    have hresolves : ∃ found, resolveWith gcm encKey put.rand other (some stored)
        (readServer table other.copyKeyFrom) = .ok found := by
      rw [exists_resolved_iff hread, hneeded]
      exact ⟨fun _ => hne, fun hnot => absurd hkept hnot⟩
    obtain ⟨found, hfound⟩ := hresolves
    exact unresolved found hfound
  have hnonempty : written.privateKey ≠ "" := by
    intro hkey
    rw [resolveWith_eq, if_neg hssh, if_neg hauth] at hresolved
    simp [keyValue, hsubmitted, hcopy, sourceKey, hkey, Except.map] at hresolved
  have hpassword : written.password = stored.password := by
    have hkeyReplaced : ¬ KeepsStored id req .privateKey := by
      intro hkept
      have hsame := (resolved_credential hread resolved .privateKey).1 hkept
      exact hnonempty ((hcredential .privateKey).trans (hsame.trans hempty))
    have hfirstSSH : req.protocol ≠ "rdp" := by
      intro hrdp
      rw [resolveWith_rdp hrdp] at resolved
      cases resolved
      exact hnonempty (hcredential .privateKey)
    have hfirstNeeds : neededCredential req = .privateKey :=
      Classical.byContradiction fun hne =>
        hkeyReplaced (keepsStored_of_ne hfirstSSH (Ne.symm hne))
    have hpasswordKept : KeepsStored id req .password :=
      keepsStored_of_ne hfirstSSH (by rw [hfirstNeeds]; decide)
    exact (hcredential .password).trans
      ((resolved_credential hread resolved .password).1 hpasswordKept)
  refine decision_eq_ok_iff.mpr ⟨other, written, credentials', haccepted, hpositive, hwritten,
    ?_, ?_, rfl⟩
  · rw [← jumpRefusal_eq_none_iff, ← jumpRefusal_congr (beside (Or.inr rfl)),
      jumpRefusal_eq_none_iff]
    exact hjumpTable
  · rw [hown, hwritten, ← hresolved]
    refine resolveWith_congr id (fun _ => hpassword) ?_ (fun _ _ _ _ => rfl)
    rintro - (hpass | hnone)
    · exact absurd hpass hauth
    · omega

/-- Two applicable updates leave alone what the other one keeps, unless one is lost. -/
theorem unaffected_of_not_lost (fine : ¬ LostUpdate gcm encKey table puts) {client : Bool}
    {req other : ServerCreateReq} {current : Server} {credentials : String × String}
    (applicable : Applicable gcm encKey table (puts client) req current)
    (applicable' : Applicable gcm encKey table (puts !client) other current)
    (resolved : resolveWith gcm encKey (puts client).rand req (some current)
      (readServer table req.copyKeyFrom) = .ok credentials)
    (credential : Credential) (keeps : KeepsStored id other credential) :
    credential.ofPair credentials = credential.ofServer current := by
  obtain ⟨hkept, hsupplied⟩ := resolved_credential applicable.read resolved credential
  by_cases hown : KeepsStored id req credential
  · exact hkept hown
  · refine Classical.byContradiction fun hne => fine ?_
    refine ⟨client, req, other, current, applicable, applicable', credential, keeps, hown, ?_⟩
    rw [hsupplied hown]
    exact fun heq => hne (Except.ok.inj heq)

/-- The first update has run alone; whatever the second one has seen of it, the
outcome is that of one of the two orders. -/
theorem serializable_of_interrupted (fine : ¬ LostUpdate gcm encKey table puts) (client : Bool)
    {first second : Response}
    (handled : Handles False gcm encKey table (puts client).request first middle)
    (run : Program.Interrupted (servers False) Writes table middle
      ((puts !client).request.handle gcm encKey) second final) :
    Serializable gcm encKey table puts final := by
  obtain ⟨s₁, s₂, s₃, h₁, h₂, h₃, houtcome⟩ := interrupted_put run
  have hfirst := handles_put handled
  cases hdecided : decision gcm encKey (puts client) table table table with
  | error refusal =>
      -- the first update has changed nothing
      rw [hdecided] at hfirst
      obtain ⟨-, rfl⟩ := hfirst
      obtain rfl : s₁ = middle := or_self_iff.mp h₁
      obtain rfl : s₂ = s₁ := or_self_iff.mp h₂
      obtain rfl : s₃ = s₂ := or_self_iff.mp h₃
      exact serializable_of_outcome client handled houtcome
  | ok record =>
      rw [hdecided] at hfirst
      obtain ⟨-, now, hmiddle⟩ := hfirst
      obtain ⟨req, current, credentials, happlicable, hresolved, rfl⟩ :=
        applicable_of_decision hdecided
      have hs₂ : s₂ = table ∨ s₂ = middle := h₂.elim (fun h => h ▸ h₁) Or.inr
      have hs₃ : s₃ = table ∨ s₃ = middle := h₃.elim (fun h => h ▸ hs₂) Or.inr
      cases hother : decision gcm encKey (puts !client) table table table with
      | ok other =>
          -- both pass at once, and neither touches what the other one keeps
          obtain ⟨otherReq, stored, credentials', happlicable', hresolved', rfl⟩ :=
            applicable_of_decision hother
          obtain rfl := Option.some.inj (Except.ok.inj
            (happlicable'.read.symm.trans happlicable.read))
          have hkept : ∀ credential, KeepsStored id otherReq credential →
              credential.ofServer (savedServer req id credentials) =
                credential.ofServer stored := by
            intro credential hkeeps
            rw [ofServer_savedServer]
            exact unaffected_of_not_lost fine happlicable happlicable' hresolved credential hkeeps
          subst hmiddle
          rw [decision_unaffected happlicable' hresolved' hkept h₁ hs₂ hs₃,
            ← decision_unaffected happlicable' hresolved' hkept (Or.inr rfl) (Or.inr rfl)
              (Or.inr rfl)] at houtcome
          exact serializable_of_outcome client handled houtcome
      | error refusal =>
          rcases h₁ with rfl | rfl
          · cases hlate : decision gcm encKey (puts !client) s₁ s₂ s₃ with
            | error refusal' =>
                -- the second update fails before the first one has written
                rw [hlate] at houtcome
                obtain ⟨-, rfl⟩ := houtcome
                obtain ⟨response, after, hsecond⟩ : ∃ response after,
                    Handles False gcm encKey s₁ (puts !client).request response after :=
                  exists_handles _ _
                have hnothing := handles_put hsecond
                rw [hother] at hnothing
                obtain ⟨-, rfl⟩ := hnothing
                have hagain := handles_put handled
                rw [← Bool.not_not client] at hagain
                exact serializable_of_outcome (!client) hsecond hagain
            | ok record =>
                rw [hlate, ← decision_late_copy happlicable hresolved hmiddle hs₂ hs₃ hother
                  hlate] at houtcome
                exact serializable_of_outcome client handled houtcome
          · obtain rfl : s₂ = s₁ := or_self_iff.mp h₂
            obtain rfl : s₃ = s₂ := h₃.elim (fun h => h) (fun h => h)
            exact serializable_of_outcome client handled houtcome

/-- Nothing is lost when neither update supplies what the other one keeps. -/
theorem alwaysSerializable_of_not_lost (fine : ¬ LostUpdate gcm encKey table puts) :
    AlwaysSerializable gcm encKey table puts := by
  intro events final run returned
  obtain ⟨client, own, response, middle, other, hfirst, hsecond⟩ :=
    run.interrupted servers_onlyWrites (fun client => put_writesLast (puts client)) returned
  exact serializable_of_interrupted fine client ⟨own, hfirst⟩ hsecond

end Serial

/-! ## With a lost update -/

section Lost

open Program

variable {gcm : GCM} {encKey : String} {id : Int} {table : ServersTable}
  {puts : Bool → Put id} {client : Bool} {req other : ServerCreateReq} {current : Server}
  {credentials credentials' : String × String}

/-- The overlapped run: one update has read everything, the other one runs, the
first one writes. -/
theorem overlapped_run
    (applicable : Applicable gcm encKey table (puts client) req current)
    (applicable' : Applicable gcm encKey table (puts !client) other current)
    (resolved : resolveWith gcm encKey (puts client).rand req (some current)
      (readServer table req.copyKeyFrom) = .ok credentials)
    (resolved' : resolveWith gcm encKey (puts !client).rand other (some current)
      (readServer table other.copyKeyFrom) = .ok credentials') :
    ∃ events final, World.Steps (servers False)
        (serving gcm (fun _ => encKey) (fun client => (puts client).request) table)
        events final ∧
      (∀ client, ∃ response, final.threads client = .ret response) ∧
      final.store = (table.update id (updatedRow (savedServer req id credentials) "")).update id
        (updatedRow (savedServer other id credentials') "") := by
  have hne : (!client) ≠ client := by cases client <;> decide
  have named : (savedServer req id credentials).protocol ≠ "" :=
    protocol_ne_empty (accepted_ok applicable.accepted)
  have named' : (savedServer other id credentials').protocol ≠ "" :=
    protocol_ne_empty (accepted_ok applicable'.accepted)
  have hreads : Reaches (servers False) ((puts !client).request.handle gcm encKey) table
      (writeServer true (savedServer other id credentials')) table :=
    saveServer_update_reaches applicable'.accepted (puts !client).names applicable'.positive
      applicable'.read applicable'.jump resolved'
  have hfirst : Reaches (servers False) ((puts client).request.handle gcm encKey) table
      (.ret ⟨200, .server (savedServer req id credentials).toListItem⟩) _ :=
    (saveServer_update_reaches applicable.accepted (puts client).names applicable.positive
      applicable.read applicable.jump resolved).trans (writeServer_update_reaches named "")
  have hwrite : Reaches (servers False) (writeServer true (savedServer other id credentials'))
      (table.update id (updatedRow (savedServer req id credentials) ""))
      (.ret ⟨200, .server (savedServer other id credentials').toListItem⟩) _ :=
    writeServer_update_reaches named' ""
  obtain ⟨own, hreads⟩ := hreads
  obtain ⟨whole, hfirst⟩ := hfirst
  obtain ⟨last, hwrite⟩ := hwrite
  have one : World.Steps (servers False)
      (serving gcm (fun _ => encKey) (fun client => (puts client).request) table) _ _ :=
    .lift (!client) hreads rfl rfl
  have two := one.trans (.lift client hfirst (Function.update_of_ne hne.symm _ _) rfl)
  have three := two.trans (.lift (!client) hwrite
    ((Function.update_of_ne hne _ _).trans (Function.update_self _ _ _)) rfl)
  refine ⟨_, _, three, fun c => ?_, rfl⟩
  by_cases hc : c = client
  · subst hc
    exact ⟨_, (Function.update_of_ne hne.symm _ _).trans (Function.update_self _ _ _)⟩
  · obtain rfl : c = !client := by cases c <;> cases client <;> simp_all
    exact ⟨_, Function.update_self _ _ _⟩

/-- What the first update supplied is gone after the overlapped run. -/
theorem overlapped_credential
    (applicable : Applicable gcm encKey table (puts client) req current)
    (resolved' : resolveWith gcm encKey (puts !client).rand other (some current)
      (readServer table other.copyKeyFrom) = .ok credentials') {credential : Credential}
    (keeps : KeepsStored id other credential) :
    storedCredential ((table.update id (updatedRow (savedServer req id credentials) "")).update id
        (updatedRow (savedServer other id credentials') "")) id credential =
      some (credential.ofServer current) := by
  obtain ⟨written, hwritten, -⟩ :=
    readServer_update_self (savedServer req id credentials) "" applicable.read
  rw [storedCredential_update hwritten, ofServer_savedServer,
    (resolved_credential applicable.read resolved' credential).1 keeps]

/-- Alone, an update leaves a credential it keeps as it found it. -/
theorem handled_keeps {put : Put id} {response : Response} {after : ServersTable}
    {credential : Credential} (read : readServer table id = .ok (some current))
    (ok : accepted put.body = .ok req) (keeps : KeepsStored id req credential)
    (handled : Handles False gcm encKey table put.request response after) :
    storedCredential after id credential = some (credential.ofServer current) := by
  have houtcome := handles_put handled
  cases hdecided : decision gcm encKey put table table table with
  | error refusal =>
      rw [hdecided] at houtcome
      obtain ⟨-, rfl⟩ := houtcome
      exact storedCredential_of_read read credential
  | ok record =>
      rw [hdecided] at houtcome
      obtain ⟨-, now, rfl⟩ := houtcome
      obtain ⟨found, stored, credentials, happlicable, hresolved, rfl⟩ :=
        applicable_of_decision hdecided
      obtain rfl := Except.ok.inj (ok.symm.trans happlicable.accepted)
      obtain rfl := Option.some.inj (Except.ok.inj (read.symm.trans happlicable.read))
      rw [storedCredential_update read, ofServer_savedServer,
        (resolved_credential read hresolved credential).1 keeps]

/-- Alone, an update that passes stores what it supplies. -/
theorem handled_supplies {put : Put id} {response : Response} {after : ServersTable}
    {credential : Credential} (applicable : Applicable gcm encKey table put req current)
    (supplies : ¬ KeepsStored id req credential)
    (handled : Handles False gcm encKey table put.request response after) :
    ∃ value, suppliedValue gcm encKey put.rand table req credential = .ok value ∧
      storedCredential after id credential = some value := by
  obtain ⟨credentials, hresolved, hdecided⟩ := decision_resolved applicable
  have houtcome := handles_put handled
  rw [hdecided] at houtcome
  obtain ⟨-, now, rfl⟩ := houtcome
  refine ⟨_, (resolved_credential applicable.read hresolved credential).2 supplies, ?_⟩
  rw [storedCredential_update applicable.read, ofServer_savedServer]

/-- An update that does not rely on a stored credential also passes after another one. -/
theorem Applicable.after {put : Put id} {credential : Credential} {record : Server} {now : String}
    (applicable : Applicable gcm encKey table put req current)
    (supplies : ¬ KeepsStored id req credential) :
    ∃ written, Applicable gcm encKey (table.update id (updatedRow record now)) put req written := by
  obtain ⟨written, hwritten, -⟩ := readServer_update_self record now applicable.read
  have beside : ∀ key, key ≠ id →
      readServer table key = readServer (table.update id (updatedRow record now)) key :=
    fun _ hother => readServer_update_other hother
  have needed : ¬ KeepsStored id req (neededCredential req) := by
    by_cases hrdp : req.protocol = "rdp"
    · cases neededCredential req <;> exact fun hkept => hkept.1 hrdp
    · have hneeded : credential = neededCredential req :=
        Classical.byContradiction fun hne => supplies (keepsStored_of_ne hrdp hne)
      rwa [← hneeded]
  refine ⟨written, applicable.accepted, applicable.positive, hwritten, ?_,
    fun hkept => absurd hkept needed, fun _ => ?_⟩
  · rw [← jumpRefusal_eq_none_iff, ← jumpRefusal_congr beside, jumpRefusal_eq_none_iff]
    exact applicable.jump
  · rw [← suppliedValue_congr needed beside]
    exact applicable.supplied needed

/-- In either order, what the first update supplies is there at the end. -/
theorem serial_credential
    (applicable : Applicable gcm encKey table (puts client) req current)
    (applicable' : Applicable gcm encKey table (puts !client) other current)
    {credential : Credential} (keeps : KeepsStored id other credential)
    (supplies : ¬ KeepsStored id req credential) {final : ServersTable}
    (serial : Serializable gcm encKey table puts final) :
    ∃ value, suppliedValue gcm encKey (puts client).rand table req credential = .ok value ∧
      storedCredential final id credential = some value := by
  obtain ⟨order, first, middle, second, after, hfirst, hsecond, hsame⟩ := serial
  rw [hsame.storedCredential]
  by_cases horder : order = client
  · subst horder
    obtain ⟨value, hvalue, hstored⟩ := handled_supplies applicable supplies hfirst
    obtain ⟨credentials, -, hdecided⟩ := decision_resolved applicable
    have houtcome := handles_put hfirst
    rw [hdecided] at houtcome
    obtain ⟨-, now, rfl⟩ := houtcome
    obtain ⟨written, hwritten, -⟩ :=
      readServer_update_self (savedServer req id credentials) now applicable.read
    rw [storedCredential_of_read hwritten] at hstored
    refine ⟨value, hvalue, ?_⟩
    rw [handled_keeps hwritten applicable'.accepted keeps hsecond, hstored]
  · obtain rfl : order = !client := by cases order <;> cases client <;> simp_all
    obtain ⟨credentials, -, hdecided⟩ := decision_resolved applicable'
    have houtcome := handles_put hfirst
    rw [hdecided] at houtcome
    obtain ⟨-, now, rfl⟩ := houtcome
    rw [Bool.not_not] at hsecond
    obtain ⟨written, hafter⟩ := applicable.after supplies
    obtain ⟨value, hvalue, hstored⟩ := handled_supplies hafter supplies hsecond
    refine ⟨value, ?_, hstored⟩
    rw [← hvalue]
    exact suppliedValue_congr supplies (beside_of_seen (Or.inr rfl))

/-- A lost update shows in the overlapped run. -/
theorem lostUpdate_not_serializable (lost : LostUpdate gcm encKey table puts) :
    ¬ AlwaysSerializable gcm encKey table puts := by
  obtain ⟨client, req, other, current, happlicable, happlicable', credential, hkeeps, hsupplies,
    hdiffers⟩ := lost
  obtain ⟨credentials, hresolved, -⟩ := decision_resolved happlicable
  obtain ⟨credentials', hresolved', -⟩ := decision_resolved happlicable'
  obtain ⟨events, final, hrun, hreturned, hstore⟩ :=
    overlapped_run happlicable happlicable' hresolved hresolved'
  intro always
  obtain ⟨value, hvalue, hstored⟩ := serial_credential happlicable happlicable' hkeeps hsupplies
    (always events final hrun hreturned)
  rw [hstore, overlapped_credential happlicable hresolved' hkeeps] at hstored
  rw [hvalue, Option.some.inj hstored] at hdiffers
  exact hdiffers rfl

end Lost

/--
Two updates of one server are serializable under every interleaving of their
statements exactly when neither supplies a credential that the other one, which
passes at the same time, keeps from the row it has read.
-/
theorem updates_serializable_iff (gcm : GCM) (encKey : String) (table : ServersTable) {id : Int}
    (puts : Bool → Put id) :
    AlwaysSerializable gcm encKey table puts ↔ ¬ LostUpdate gcm encKey table puts :=
  ⟨fun always lost => lostUpdate_not_serializable lost always, alwaysSerializable_of_not_lost⟩

/-- The gateway with a new password, and with a new name and no password. -/
def rotateRequest : ServerCreateReq := { gatewayRequest with password := "rotated" }

def renameRequest : ServerCreateReq := { gatewayRequest with name := "renamed", password := "" }

def rotateAndRename : Bool → Put 1
  | false => ⟨"1", .ok rotateRequest, some zeroNonce, rfl⟩
  | true => ⟨"1", .ok renameRequest, none, rfl⟩

/-- The stored password of the gateway. -/
def gatewaySecret : String :=
  match encrypt tagGCM (some zeroNonce) (bytesOf "secret") legacyEncryptionKey with
  | .ok ciphertext => ciphertext
  | .error _ => ""

def gatewayTable : ServersTable := (Table.empty 0).insert (createdRow gatewayRequest gatewaySecret)

/-- Overlapping the two updates brings the old password back. -/
theorem rotated_password_reverted :
    ¬ AlwaysSerializable tagGCM legacyEncryptionKey gatewayTable rotateAndRename := by
  have hsecret : encrypt tagGCM (some zeroNonce) (bytesOf "secret") legacyEncryptionKey =
      .ok gatewaySecret := rfl
  obtain ⟨rotated, hrotated⟩ :=
    encrypt_ok_of_validKey tagGCM (bytesOf "rotated") validKey_legacy zeroNonce
  have changed : rotated ≠ gatewaySecret := by
    rintro rfl
    have hopened := decrypt_encrypt tagGCM_authentic.toLawful hrotated rfl
    rw [decrypt_encrypt tagGCM_authentic.toLawful hsecret rfl] at hopened
    exact absurd (Except.ok.inj hopened) (by decide)
  have supplies : ¬ KeepsStored 1 rotateRequest .password := by
    rintro ⟨-, hauth | hpassword⟩
    · exact hauth rfl
    · exact absurd hpassword (by decide)
  have keeps : KeepsStored 1 renameRequest .password := ⟨by decide, Or.inr rfl⟩
  have unjumped : ∀ jumpId, none ≠ some (jumpId : Int) := fun _ => nofun
  refine lostUpdate_not_serializable ⟨false, rotateRequest, renameRequest,
    savedServer gatewayRequest 1 ("", gatewaySecret), ?_, ?_, .password, keeps, supplies, ?_⟩
  · exact ⟨rfl, by decide, rfl, fun jumpId hsome => absurd hsome (unjumped jumpId),
      fun hkept => absurd hkept supplies, fun _ => ⟨rotated, hrotated⟩⟩
  · exact ⟨rfl, by decide, rfl, fun jumpId hsome => absurd hsome (unjumped jumpId),
      fun _ => encrypt_ne_empty hsecret, fun hnot => absurd keeps hnot⟩
  · intro hsame
    have hvalue : suppliedValue tagGCM legacyEncryptionKey (some zeroNonce) gatewayTable
        rotateRequest .password = .ok rotated := hrotated
    exact changed (Except.ok.inj (hvalue.symm.trans hsame))

end OpsUp.Api
