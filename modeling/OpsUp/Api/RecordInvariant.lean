import OpsUp.Api.SaveRules

/-!
# Every stored record is well formed

The clauses of a well-formed record are established jointly by validation, by the
resolution of credentials and by the jump check made before a new id exists.
Each clause only concerns the row that is written, so it survives every
interleaving of the statements of any number of requests.
-/

namespace OpsUp.Api

open OpsUp.Crypto OpsUp.Go OpsUp.Interaction OpsUp.Models OpsUp.Database OpsUp.Storage

/-- The pin starts with `SHA256:` and the rest decodes to 32 bytes. -/
def IsHostPin (hostKey : String) : Prop :=
  hasPrefix hostKey hostKeyPrefix = true ∧
    ∃ digest, rawStdDecodeString (trimPrefix hostKey hostKeyPrefix) = some digest ∧
      digest.length = 32

def IsCertPin (fingerprint : String) : Prop :=
  fingerprint.toList.length = 64 ∧ ∀ c ∈ fingerprint.toList, IsLowerHex c

structure RDPRecord (row : Row) : Prop where
  authType : row.authType = "password"
  privateKey : row.privateKey = ""
  password : row.password = some ""
  hostKey : row.hostKey = ""
  jumpServerId : row.jumpServerId = none
  rdpCertFingerprint : row.rdpCertFingerprint = "" ∨ IsCertPin row.rdpCertFingerprint

structure SSHRecord (row : Row) : Prop where
  rdpDomain : row.rdpDomain = ""
  rdpCertFingerprint : row.rdpCertFingerprint = ""
  credentials : (row.authType = "key" ∧ row.privateKey ≠ "") ∨
    (row.authType = "password" ∧ ∃ password, row.password = some password ∧ password ≠ "")
  hostKey : row.hostKey = "" ∨ IsHostPin row.hostKey
  jumpServerId : ∀ jumpId, row.jumpServerId = some jumpId → 0 < jumpId ∧ jumpId ≠ row.id

structure RecordOk (row : Row) : Prop where
  protocol : row.protocol = "ssh" ∨ row.protocol = "rdp"
  port_pos : 1 ≤ row.port
  port_le : row.port ≤ 65535
  rdp : row.protocol = "rdp" → RDPRecord row
  ssh : row.protocol = "ssh" → SSHRecord row

def TableOk (table : ServersTable) : Prop := ∀ row ∈ table.rows, RecordOk row

theorem isHostPin_of_isHostFingerprint {hostKey : String}
    (checked : isHostFingerprint hostKey = true) : IsHostPin hostKey := by
  unfold isHostFingerprint at checked
  split at checked
  · cases checked
  · next decoded hdecoded =>
      rw [Bool.and_eq_true, beq_iff_eq] at checked
      exact ⟨checked.1, decoded, hdecoded, checked.2⟩

/-- The row written for an accepted request, over whatever row was there. -/
theorem recordOk_written {gcm : GCM} {encKey : String} {rand : Option Nonce} {body : Body}
    {req : ServerCreateReq} {current : Option Server} {source : Except String (Option Server)}
    {credentials : String × String} {id : Int} (row : Row)
    (ok : accepted body = .ok req)
    (resolved : resolveWith gcm encKey rand req current source = .ok credentials)
    (jump : ∀ jumpId, req.jumpServerId = some jumpId → jumpId ≠ row.id) :
    RecordOk (overwrite row (savedServer req id credentials)) := by
  rcases accepted_ok ok with ssh | rdp
  · have hprotocol : req.protocol ≠ "rdp" := by rw [ssh.protocol]; decide
    refine ⟨Or.inl ssh.protocol, ssh.port_pos, ssh.port_le,
      fun hrdp => absurd hrdp hprotocol, fun _ => ?_⟩
    refine ⟨ssh.rdpDomain, ssh.rdpCertFingerprint, ?_, ?_, ?_⟩
    · rcases ssh.authType with hkey | hpassword
      · have hauth : req.authType ≠ "password" := by rw [hkey]; decide
        exact Or.inl ⟨hkey, (resolveWith_key hprotocol hauth resolved).1⟩
      · exact Or.inr ⟨hpassword, credentials.2, rfl,
          (resolveWith_password hprotocol hpassword resolved).2.1⟩
    · exact ssh.hostKey.imp_right isHostPin_of_isHostFingerprint
    · intro jumpId hsome
      exact ⟨ssh.jumpServerId jumpId hsome, jump jumpId hsome⟩
  · rw [resolveWith_rdp rdp.protocol] at resolved
    cases resolved
    refine ⟨Or.inr rdp.protocol, rdp.port_pos, rdp.port_le, fun _ => ?_, fun hssh => ?_⟩
    · exact ⟨rdp.authType, rfl, rfl, rdp.hostKey, rdp.jumpServerId, rdp.rdpCertFingerprint⟩
    · have hmixed : req.protocol = "ssh" := hssh
      rw [rdp.protocol] at hmixed
      exact absurd hmixed (by decide)

/-- Records stay well formed and keys are only handed out upwards. -/
def RecordOrder (before after : ServersTable) : Prop :=
  before.sequence ≤ after.sequence ∧ (TableOk before → TableOk after)

theorem RecordOrder.refl (table : ServersTable) : RecordOrder table table :=
  ⟨Int.le_refl _, id⟩

theorem RecordOrder.trans {first second third : ServersTable}
    (left : RecordOrder first second) (right : RecordOrder second third) :
    RecordOrder first third :=
  ⟨Int.le_trans left.1 right.1, right.2 ∘ left.2⟩

def recordDiscipline : Discipline serversDB ServersTable :=
  .shared RecordOrder .refl .trans

theorem recordDiscipline_quiet : recordDiscipline.Quiet := fun _ table _ => .refl table

theorem tableOk_update {table : ServersTable} {id : Int} {change : Row → Row}
    (ok : TableOk table)
    (changed : ∀ row, table.find id = some row → RecordOk { change row with id := id }) :
    TableOk (table.update id change) := by
  intro row hrow
  rcases Table.mem_update_iff.mp hrow with ⟨hold, -⟩ | ⟨old, hold, rfl⟩
  · exact ok row hold
  · exact changed old hold

/-- A jump row that has been read is below every key handed out later. -/
theorem jump_lt_next {table later : ServersTable} {req : ServerCreateReq}
    (jump : JumpAccepted table req 0) (grown : table.sequence ≤ later.sequence) :
    ∀ jumpId, req.jumpServerId = some jumpId → jumpId ≠ later.sequence + 1 := by
  intro jumpId hsome
  obtain ⟨-, server, hread, -⟩ := jump jumpId hsome
  unfold readServer at hread
  split at hread
  · cases hread
  · next row hfind =>
      have hissued := Table.find_le_sequence hfind
      omega

/-- Every request keeps the records well formed, whatever runs in between. -/
theorem handle_keeps_records {mayFail : Prop} (gcm : GCM) (encKey : String)
    (request : SaveRequest) (history : List (Event serversDB)) (table : ServersTable) :
    (request.handle gcm encKey).Keeps (servers mayFail) recordDiscipline
      (fun _ _ _ => True) history table := by
  cases request with
  | create body rand =>
      refine keeps_saveServer_create recordDiscipline_quiet (fun _ _ _ _ _ => trivial) ?_
      intro req hreq s₁ s₂ s₃ _ hs₂ hs₃ hjump source _ credentials hresolved now
      refine ⟨fun _ _ => ⟨?_, ?_⟩, fun _ _ _ => trivial⟩
      · rw [Table.insert_sequence]
        omega
      · intro hok row hrow
        rcases Table.mem_insert_iff.mp hrow with hold | rfl
        · exact hok row hold
        · exact recordOk_written { Row.blank now with id := s₃.sequence + 1 }
            hreq hresolved (jump_lt_next hjump (Int.le_trans hs₂.1 hs₃.1))
  | update param body rand =>
      refine keeps_saveServer_update recordDiscipline_quiet (fun _ _ _ _ _ => trivial) ?_
      intro req id hreq _ _ s₁ s₂ s₃ s₄ _ _ _ _ current _ hjump source _ credentials
        hresolved now
      refine ⟨fun _ _ => ⟨Int.le_refl _, fun hok => ?_⟩, fun _ _ _ => trivial⟩
      refine tableOk_update hok fun row _ => ?_
      exact recordOk_written { row with id := id, updatedAt := now } hreq hresolved
        fun jumpId hsome => (hjump jumpId hsome).1
  | delete param =>
      refine keeps_deleteServerHandler recordDiscipline_quiet (fun _ _ _ _ _ => trivial) ?_
      intro id _ _ later _
      refine ⟨fun _ _ => ⟨Int.le_refl _, fun hok row hrow => ?_⟩, fun _ _ _ => trivial⟩
      exact hok row (Table.mem_delete_iff.mp hrow).1

/-! ## Whole runs -/

/-- The id a successful `INSERT` was given. -/
def insertedId : Event serversDB → Option Int
  | ⟨.insertServer _ _, .ok id⟩ => some id
  | _ => none

/-- The ids given out in a run, in order. -/
def insertedIds {ι : Type} (events : List (ι × Event serversDB)) : List Int :=
  events.filterMap fun entry => insertedId entry.2

/-- A statement gives out no id, or the one just above the sequence. -/
theorem insertedId_step {mayFail : Prop} {before after : ServersTable} {statement : Statement}
    {reply : Except String statement.Answer}
    (answer : servers mayFail before statement reply after) :
    (insertedId ⟨statement, reply⟩ = none ∧ after.sequence = before.sequence) ∨
      (insertedId ⟨statement, reply⟩ = some (before.sequence + 1) ∧
        after.sequence = before.sequence + 1) := by
  rcases answer with ⟨now, hperform⟩ | ⟨-, ⟨err, rfl⟩, rfl⟩
  · cases statement with
    | insertServer columns values =>
        simp only [perform] at hperform
        split at hperform
        · obtain ⟨rfl, rfl⟩ := Prod.mk.inj hperform
          exact Or.inl ⟨rfl, rfl⟩
        · obtain ⟨rfl, rfl⟩ := Prod.mk.inj hperform
          exact Or.inr ⟨rfl, rfl⟩
    | updateServer columns values id =>
        simp only [perform] at hperform
        split at hperform
        · obtain ⟨rfl, rfl⟩ := Prod.mk.inj hperform
          exact Or.inl ⟨rfl, rfl⟩
        · split at hperform <;>
            (obtain ⟨rfl, rfl⟩ := Prod.mk.inj hperform
             exact Or.inl ⟨rfl, rfl⟩)
    | selectServer columns id | selectServers columns | deleteServer id =>
        obtain ⟨rfl, rfl⟩ := Prod.mk.inj hperform
        exact Or.inl ⟨rfl, rfl⟩
  · left
    cases statement <;> exact ⟨rfl, rfl⟩

variable {ι : Type} [DecidableEq ι] {mayFail : Prop}

/-- An id once given to a row is not given again, whether or not the row still exists. -/
theorem insertedIds_nodup {start final : World serversDB ServersTable ι Response}
    {events : List (ι × Event serversDB)}
    (run : World.Steps (servers mayFail) start events final) :
    (insertedIds events).Nodup := by
  have whole : (insertedIds events).Nodup ∧
      ∀ id ∈ insertedIds events, id ≤ final.store.sequence := by
    refine run.service_invariant
      (fun events (table : ServersTable) => (insertedIds events).Nodup ∧
        ∀ id ∈ insertedIds events, id ≤ table.sequence) (by simp [insertedIds]) ?_
    rintro events client before command reply after ⟨hnodup, hbound⟩ answer
    have happend : insertedIds (events ++ [(client, ⟨command, reply⟩)]) =
        insertedIds events ++ (insertedId ⟨command, reply⟩).toList := by
      simp only [insertedIds, List.filterMap_append]
      cases h : insertedId ⟨command, reply⟩ <;> simp [h]
    rw [happend]
    rcases insertedId_step answer with ⟨hid, hsequence⟩ | ⟨hid, hsequence⟩
    · rw [hid, hsequence]
      simpa using ⟨hnodup, hbound⟩
    · rw [hid, hsequence]
      constructor
      · refine List.nodup_append.mpr ⟨hnodup, by simp, ?_⟩
        intro old hold new hnew
        have hle := hbound old hold
        have hnext := Option.some.inj (Option.mem_toList.mp hnew)
        omega
      · intro id hmem
        rcases List.mem_append.mp hmem with hold | hnew
        · have hle := hbound id hold
          omega
        · have hnext := Option.some.inj (Option.mem_toList.mp hnew)
          omega
  exact whole.1

/--
From an empty table, after any interleaving of the statements of any number of
create, update and delete requests, every stored row is well formed and no id has
been given out twice.
-/
theorem stored_records_ok (gcm : GCM) (encKey : ι → String) (requests : ι → SaveRequest)
    (sequence : Nat) {events : List (ι × Event serversDB)}
    {final : World serversDB ServersTable ι Response}
    (run : World.Steps (servers mayFail)
      (serving gcm encKey requests (Table.empty sequence)) events final) :
    (∀ row ∈ final.store.rows, RecordOk row) ∧ (insertedIds events).Nodup := by
  refine ⟨?_, insertedIds_nodup run⟩
  refine run.invariant (fun _ => recordDiscipline) (fun _ _ _ _ => True) ?_ ?_
    (fun _ table => TableOk table) ?_ ?_
  · exact fun _ _ _ _ _ step => step
  · exact fun client => handle_keeps_records gcm (encKey client) (requests client) [] _
  · intro row hrow
    cases hrow
  · exact fun hok step => step.2 hok

/-- The request of the API test that creates an RDP server. -/
def rdpTestRequest : ServerCreateReq where
  protocol := "rdp"
  rdpDomain := "EXAMPLE"
  rdpCertFingerprint := ""
  name := "Windows"
  host := "localhost"
  port := 0
  username := "Administrator"
  authType := ""
  hostKey := ""
  privateKey := ""
  password := ""
  copyKeyFrom := 0
  jumpServerId := none
  group := ""
  description := ""

def sshTestRequest : ServerCreateReq :=
  { rdpTestRequest with protocol := "ssh", rdpDomain := "", authType := "password",
                        password := "secret" }

/-- Two creations, and an update of the first row. -/
def testRequests : Fin 3 → SaveRequest
  | 0 => .create (.ok rdpTestRequest) none
  | 1 => .create (.ok sshTestRequest) (some zeroNonce)
  | 2 => .update "1" (.ok { rdpTestRequest with name := "Desktop" }) none

/-- A database without failures. -/
def answerServers (table : ServersTable) (command : serversDB.Command) :
    serversDB.Reply command × ServersTable :=
  perform "2026-01-01 00:00:00" table command

/-- The second creation comes between the read and the write of the update. -/
def testRequestsRun :
    List (Fin 3 × Event serversDB) × World serversDB ServersTable (Fin 3) Response :=
  (serving tagGCM (fun _ => legacyEncryptionKey) testRequests (Table.empty 0)).interleave
    answerServers [0, 2, 1, 2]

theorem stored_records_ok_created :
    World.Steps (servers False)
      (serving tagGCM (fun _ => legacyEncryptionKey) testRequests (Table.empty 0))
      testRequestsRun.1 testRequestsRun.2 ∧
    testRequestsRun.2.store.rows.map (fun row => (row.id, row.name, row.protocol)) =
      [(1, "Desktop", "rdp"), (2, "Windows", "ssh")] ∧
    (∀ row ∈ testRequestsRun.2.store.rows, RecordOk row) ∧
    insertedIds testRequestsRun.1 = [1, 2] ∧ (insertedIds testRequestsRun.1).Nodup := by
  have run : World.Steps (servers False)
      (serving tagGCM (fun _ => legacyEncryptionKey) testRequests (Table.empty 0))
      testRequestsRun.1 testRequestsRun.2 :=
    World.Steps.interleave (fun _ _ => Or.inl ⟨_, rfl⟩) _ _
  obtain ⟨hrows, hids⟩ := stored_records_ok _ _ _ _ run
  exact ⟨run, by decide +kernel, hrows, by decide +kernel, hids⟩

end OpsUp.Api
