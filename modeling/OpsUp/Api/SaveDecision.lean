import OpsUp.Api.RequestRuns
import OpsUp.Interaction.Interruption

/-!
# What an update decides

An update reads its own row, the jump row and the source row, and writes at most
once, at the end.  Its decision is a function of what the three reads see, each of
which may see another state of the table.
-/

namespace OpsUp.Api

open OpsUp.Crypto OpsUp.Go OpsUp.Interaction OpsUp.Models OpsUp.Database OpsUp.Storage

/-- A `PUT /servers/:id` request on one server, with the nonce its save may draw. -/
structure Put (id : Int) where
  path : String
  body : Body
  rand : Option Nonce
  names : parseInt path = some id

def Put.request {id : Int} (put : Put id) : SaveRequest := .update put.path put.body put.rand

/-- The refusal of the jump, given what reading a row yields. -/
def jumpRefusal (req : ServerCreateReq) (id : Int)
    (read : Int → Except String (Option Server)) : Option Response :=
  match req.jumpServerId with
  | none => none
  | some jumpId =>
      if jumpId = id then some (badRequest errSelfJump)
      else
        match read jumpId with
        | .error _ => some (badRequest errJumpNotFound)
        | .ok none => some (badRequest errJumpNotFound)
        | .ok (some jump) =>
            if jump.protocol = "rdp" then some (badRequest errJumpNotFound) else none

/-- The refusal, or the record to write, when the three reads see these tables. -/
def decision (gcm : GCM) (encKey : String) {id : Int} (put : Put id)
    (atCurrent atJump atSource : ServersTable) : Except Response Server :=
  match accepted put.body with
  | .error err => .error (badRequest err)
  | .ok req =>
      if id ≤ 0 then .error (badRequest errInvalidId)
      else
        match readServer atCurrent id with
        | .error err => .error (internalError err)
        | .ok none => .error (notFound errServerNotFound)
        | .ok (some current) =>
            match jumpRefusal req id (readServer atJump) with
            | some refusal => .error refusal
            | none =>
                match resolveWith gcm encKey put.rand req (some current)
                  (readServer atSource req.copyKeyFrom) with
                | .error err => .error (badRequest err)
                | .ok credentials => .ok (savedServer req id credentials)

theorem jumpRefusal_eq_none_iff {req : ServerCreateReq} {id : Int} {table : ServersTable} :
    jumpRefusal req id (readServer table) = none ↔ JumpAccepted table req id := by
  unfold jumpRefusal JumpAccepted
  cases hjump : req.jumpServerId with
  | none => simp
  | some jumpId =>
      by_cases hself : jumpId = id
      · simp [hself]
      · cases hread : readServer table jumpId with
        | error err => simp [hself, hread]
        | ok found =>
            cases found with
            | none => simp [hself, hread]
            | some jump => simp [hself, hread]

/-- The own row is never read as the jump row. -/
theorem jumpRefusal_congr {req : ServerCreateReq} {id : Int} {table other : ServersTable}
    (beside : ∀ key, key ≠ id → readServer table key = readServer other key) :
    jumpRefusal req id (readServer table) = jumpRefusal req id (readServer other) := by
  unfold jumpRefusal
  cases req.jumpServerId with
  | none => rfl
  | some jumpId =>
      by_cases hself : jumpId = id
      · simp [hself]
      · simp only [if_neg hself, beside jumpId hself]

theorem decision_eq_ok_iff {gcm : GCM} {encKey : String} {id : Int} {put : Put id}
    {atCurrent atJump atSource : ServersTable} {record : Server} :
    decision gcm encKey put atCurrent atJump atSource = .ok record ↔
      ∃ req current credentials, accepted put.body = .ok req ∧ 0 < id ∧
        readServer atCurrent id = .ok (some current) ∧ JumpAccepted atJump req id ∧
        resolveWith gcm encKey put.rand req (some current)
          (readServer atSource req.copyKeyFrom) = .ok credentials ∧
        record = savedServer req id credentials := by
  unfold decision
  cases haccepted : accepted put.body with
  | error err => simp
  | ok req =>
      by_cases hid : id ≤ 0
      · simp [hid, Int.not_lt.mpr hid]
      · cases hread : readServer atCurrent id with
        | error err => simp [hid]
        | ok found =>
            cases found with
            | none => simp [hid]
            | some current =>
                cases hjump : jumpRefusal req id (readServer atJump) with
                | some refusal =>
                    have hrefused : ¬ JumpAccepted atJump req id := by
                      rw [← jumpRefusal_eq_none_iff, hjump]
                      simp
                    simp [hid, hjump, hrefused]
                | none =>
                    have hpassed := jumpRefusal_eq_none_iff.mp hjump
                    cases hresolved : resolveWith gcm encKey put.rand req (some current)
                        (readServer atSource req.copyKeyFrom) with
                    | error err => simp [hid, hjump, hresolved]
                    | ok credentials =>
                        simp only [if_neg hid, hjump, hresolved]
                        constructor
                        · intro hrecord
                          obtain rfl := Except.ok.inj hrecord
                          exact ⟨req, current, credentials, rfl, Int.not_le.mp hid, rfl,
                            hpassed, hresolved, rfl⟩
                        · rintro ⟨_, _, _, hreq, -, hcurrent, -, hcredentials, rfl⟩
                          cases hreq
                          cases hcurrent
                          rw [hresolved] at hcredentials
                          cases hcredentials
                          rfl

/-! ## Updates only write last -/

/-- The statements that change the table. -/
def Writes : Statement → Prop
  | .selectServer _ _ => False
  | .selectServers _ => False
  | .insertServer _ _ => True
  | .updateServer _ _ _ => True
  | .deleteServer _ => True

theorem servers_onlyWrites : OnlyWrites (servers False) Writes := by
  rintro before statement reply after hreads (⟨now, hperform⟩ | ⟨hfail, -⟩)
  · cases statement with
    | selectServer columns id | selectServers columns => exact (Prod.mk.inj hperform).2
    | insertServer | updateServer | deleteServer => exact absurd trivial hreads
  · exact hfail.elim

theorem servers_total (table : ServersTable) (statement : Statement) :
    ∃ reply after, servers False table statement reply after :=
  ⟨_, _, Or.inl ⟨"", rfl⟩⟩

section Shape

open Program

variable {gcm : GCM} {encKey : String} {rand : Option Nonce}

theorem getServer_readsOnly (id : Int) : (getServer id).ReadsOnly Writes := by
  exact ⟨not_false, fun _ => trivial⟩

theorem checkJump_readsOnly (req : ServerCreateReq) (id : Int) :
    (checkJump req id).ReadsOnly Writes := by
  unfold checkJump
  cases req.jumpServerId with
  | none => trivial
  | some jumpId =>
      dsimp only
      split
      · trivial
      · refine (getServer_readsOnly jumpId).bind fun result => ?_
        rcases result with err | _ | jump
        · trivial
        · trivial
        · dsimp only
          split <;> trivial

theorem resolveCredentials_readsOnly (req : ServerCreateReq) (current : Option Server) :
    (resolveCredentials gcm encKey rand req current).ReadsOnly Writes := by
  unfold resolveCredentials
  split
  · trivial
  · dsimp only
    split
    · trivial
    · split
      · refine (getServer_readsOnly req.copyKeyFrom).bind fun result => ?_
        rcases result with err | _ | source
        · trivial
        · trivial
        · dsimp only
          split <;> trivial
      · trivial

theorem writeServer_writesLast (server : Server) : (writeServer true server).WritesLast Writes := by
  unfold writeServer updateServer
  rw [if_pos rfl]
  refine ⟨fun reply => ?_, fun _ reply => ?_⟩
  · rcases reply with err | _
    · trivial
    · trivial
  · rcases reply with err | _
    · exact ⟨_, rfl⟩
    · exact ⟨_, rfl⟩

/-- An update issues no statement after its write. -/
theorem put_writesLast {id : Int} (put : Put id) :
    (put.request.handle gcm encKey).WritesLast Writes := by
  change (saveServer gcm encKey put.rand true put.path put.body).WritesLast Writes
  unfold saveServer
  cases accepted put.body with
  | error err => trivial
  | ok req =>
      simp only [saveValidated, put.names, if_true]
      split
      · trivial
      · refine (getServer_readsOnly id).writesLast fun result => ?_
        rcases result with err | _ | current
        · trivial
        · trivial
        · refine (checkJump_readsOnly req id).writesLast fun refusal => ?_
          cases refusal with
          | some refusal => trivial
          | none =>
              refine (resolveCredentials_readsOnly req (some current)).writesLast fun result => ?_
              cases result with
              | error err => trivial
              | ok credentials => exact writeServer_writesLast _

end Shape

/-! ## Runs whose table is replaced once -/

section Interrupted

open Program

variable {gcm : GCM} {encKey : String} {first second : ServersTable} {α : Type}

/-- A run that reads a row goes on from the table that was read. -/
theorem interrupted_getServer {id : Int} {rest : Except String (Option Server) → DB α} {value : α}
    {final : ServersTable}
    (run : Interrupted (servers False) Writes first second (getServer id >>= rest) value final) :
    ∃ seen, (seen = first ∨ seen = second) ∧
      Interrupted (servers False) Writes seen second (rest (readServer seen id)) value final := by
  have answered : ∀ {seen after : ServersTable} {reply},
      servers False seen (.selectServer getServerColumns id) reply after →
      scanSelected reply = readServer seen id ∧ after = seen := by
    rintro seen after reply (⟨now, hperform⟩ | ⟨hfail, -⟩)
    · obtain ⟨rfl, rfl⟩ := Prod.mk.inj hperform
      exact ⟨scanSelected_eq _ id, rfl⟩
    · exact hfail.elim
  have shape : (getServer id >>= rest) =
      .call (.selectServer getServerColumns id) fun reply => rest (scanSelected reply) := rfl
  rw [shape] at run
  cases run with
  | replaced run =>
      obtain ⟨reply, middle, events, -, hanswer, hrun⟩ := executes_call_iff.mp run
      obtain ⟨hread, rfl⟩ := answered hanswer
      rw [hread] at hrun
      exact ⟨_, Or.inr rfl, .replaced hrun⟩
  | read reads answer tail =>
      obtain ⟨hread, -⟩ := answered answer
      simp only [hread] at tail
      exact ⟨first, Or.inl rfl, tail⟩

theorem interrupted_ret {value result : α} {final : ServersTable}
    (run : Interrupted (servers False) Writes first second (.ret result) value final) :
    value = result ∧ final = second := by
  cases run with
  | replaced run => exact (executes_ret_iff.mp run).2

theorem interrupted_checkJump {req : ServerCreateReq} {id : Int} {rest : Option Response → DB α}
    {value : α} {final : ServersTable}
    (run : Interrupted (servers False) Writes first second (checkJump req id >>= rest) value
      final) :
    ∃ seen, (seen = first ∨ seen = second) ∧
      Interrupted (servers False) Writes seen second
        (rest (jumpRefusal req id (readServer seen))) value final := by
  unfold checkJump at run
  unfold jumpRefusal
  cases hjump : req.jumpServerId with
  | none =>
      rw [hjump] at run
      exact ⟨first, Or.inl rfl, run⟩
  | some jumpId =>
      rw [hjump] at run
      dsimp only at run ⊢
      by_cases hself : jumpId = id
      · simp only [if_pos hself] at run ⊢
        exact ⟨first, Or.inl rfl, run⟩
      · simp only [if_neg hself] at run ⊢
        rw [bind_assoc] at run
        obtain ⟨seen, hseen, hrun⟩ := interrupted_getServer run
        refine ⟨seen, hseen, ?_⟩
        rcases hread : readServer seen jumpId with err | _ | jump
        · simpa only [hread, pure_eq_ret, ret_bind] using hrun
        · simpa only [hread, pure_eq_ret, ret_bind] using hrun
        · simp only [hread] at hrun ⊢
          split at hrun
          · next hrdp => simpa only [if_pos hrdp, pure_eq_ret, ret_bind] using hrun
          · next hrdp => simpa only [if_neg hrdp, pure_eq_ret, ret_bind] using hrun

theorem interrupted_resolveCredentials {rand : Option Nonce} {req : ServerCreateReq}
    {current : Option Server} {rest : Except String (String × String) → DB α} {value : α}
    {final : ServersTable}
    (run : Interrupted (servers False) Writes first second
      (resolveCredentials gcm encKey rand req current >>= rest) value final) :
    ∃ seen, (seen = first ∨ seen = second) ∧
      Interrupted (servers False) Writes seen second
        (rest (resolveWith gcm encKey rand req current (readServer seen req.copyKeyFrom)))
        value final := by
  unfold resolveCredentials at run
  unfold resolveWith
  by_cases hrdp : req.protocol = "rdp"
  · simp only [if_pos hrdp] at run ⊢
    exact ⟨first, Or.inl rfl, run⟩
  · simp only [if_neg hrdp] at run ⊢
    by_cases hauth : req.authType = "password"
    · simp only [if_pos hauth] at run ⊢
      exact ⟨first, Or.inl rfl, run⟩
    · simp only [if_neg hauth] at run ⊢
      by_cases hcopy : req.privateKey = "" ∧ 0 < req.copyKeyFrom
      · simp only [if_pos hcopy] at run ⊢
        rw [bind_assoc] at run
        obtain ⟨seen, hseen, hrun⟩ := interrupted_getServer run
        refine ⟨seen, hseen, ?_⟩
        rcases hread : readServer seen req.copyKeyFrom with err | _ | source
        · simpa only [hread, pure_eq_ret, ret_bind] using hrun
        · simpa only [hread, pure_eq_ret, ret_bind] using hrun
        · simp only [hread] at hrun ⊢
          split at hrun
          · next hempty => simpa only [if_pos hempty, pure_eq_ret, ret_bind] using hrun
          · next hempty => simpa only [if_neg hempty, pure_eq_ret, ret_bind] using hrun
      · simp only [if_neg hcopy] at run ⊢
        exact ⟨first, Or.inl rfl, run⟩

/-- What a decision leads to on the table that is written. -/
def Outcome (id : Int) (table : ServersTable) (decided : Except Response Server)
    (response : Response) (after : ServersTable) : Prop :=
  match decided with
  | .error refusal => response = refusal ∧ after = table
  | .ok record => response = ⟨200, .server record.toListItem⟩ ∧
      ∃ now, after = table.update id (updatedRow record now)

theorem interrupted_writeServer {record : Server} (named : record.protocol ≠ "")
    {response : Response} {final : ServersTable}
    (run : Interrupted (servers False) Writes first second (writeServer true record) response
      final) :
    Outcome record.id second (.ok record) response final := by
  have written : ∃ events, Executes (servers False) (writeServer true record) second events
      response final := by
    unfold writeServer updateServer at run ⊢
    rw [if_pos rfl] at run ⊢
    cases run with
    | replaced run => exact ⟨_, run⟩
    | read reads answer tail => exact absurd trivial reads
  obtain ⟨events, hrun⟩ := written
  refine hrun.postcondition soloDiscipline
    (fun response _ after => Outcome record.id second (.ok record) response after) ?_
  refine keeps_writeServer_update soloDiscipline_quiet named (fun hfail => hfail.elim) ?_
  rintro later rfl now
  refine ⟨fun _ _ => trivial, ?_⟩
  rintro last rfl events
  exact ⟨rfl, now, rfl⟩

/--
A run of an update during which the table is replaced once: it decides on what
its reads have seen and writes to the second table.
-/
theorem interrupted_put {id : Int} {put : Put id} {response : Response} {final : ServersTable}
    (run : Interrupted (servers False) Writes first second (put.request.handle gcm encKey)
      response final) :
    ∃ s₁ s₂ s₃, (s₁ = first ∨ s₁ = second) ∧ (s₂ = s₁ ∨ s₂ = second) ∧
      (s₃ = s₂ ∨ s₃ = second) ∧
      Outcome id second (decision gcm encKey put s₁ s₂ s₃) response final := by
  change Interrupted (servers False) Writes first second
    (saveServer gcm encKey put.rand true put.path put.body) response final at run
  unfold saveServer at run
  unfold decision
  cases haccepted : accepted put.body with
  | error err =>
      rw [haccepted] at run
      exact ⟨first, first, first, Or.inl rfl, Or.inl rfl, Or.inl rfl, interrupted_ret run⟩
  | ok req =>
      simp only [haccepted, saveValidated, put.names, if_true] at run ⊢
      by_cases hid : id ≤ 0
      · simp only [if_pos hid] at run ⊢
        exact ⟨first, first, first, Or.inl rfl, Or.inl rfl, Or.inl rfl, interrupted_ret run⟩
      · simp only [if_neg hid] at run ⊢
        obtain ⟨s₁, hs₁, run⟩ := interrupted_getServer run
        rcases hread : readServer s₁ id with err | _ | current
        · rw [hread] at run
          refine ⟨s₁, s₁, s₁, hs₁, Or.inl rfl, Or.inl rfl, ?_⟩
          rw [hread]
          exact interrupted_ret run
        · rw [hread] at run
          refine ⟨s₁, s₁, s₁, hs₁, Or.inl rfl, Or.inl rfl, ?_⟩
          rw [hread]
          exact interrupted_ret run
        · rw [hread] at run
          obtain ⟨s₂, hs₂, run⟩ := interrupted_checkJump run
          cases hjump : jumpRefusal req id (readServer s₂) with
          | some refusal =>
              rw [hjump] at run
              refine ⟨s₁, s₂, s₂, hs₁, hs₂, Or.inl rfl, ?_⟩
              rw [hread]
              simp only [hjump]
              exact interrupted_ret run
          | none =>
              rw [hjump] at run
              obtain ⟨s₃, hs₃, run⟩ := interrupted_resolveCredentials run
              refine ⟨s₁, s₂, s₃, hs₁, hs₂, hs₃, ?_⟩
              rw [hread]
              simp only [hjump]
              cases hresolved : resolveWith gcm encKey put.rand req (some current)
                  (readServer s₃ req.copyKeyFrom) with
              | error err =>
                  rw [hresolved] at run
                  exact interrupted_ret run
              | ok credentials =>
                  rw [hresolved] at run
                  exact interrupted_writeServer (protocol_ne_empty (accepted_ok haccepted)) run

/-- Alone, an update decides on the table it finds. -/
theorem handles_put {id : Int} {put : Put id} {table after : ServersTable} {response : Response}
    (handled : Handles False gcm encKey table put.request response after) :
    Outcome id table (decision gcm encKey put table table table) response after := by
  obtain ⟨events, run⟩ := handled
  obtain ⟨s₁, s₂, s₃, rfl | rfl, rfl | rfl, rfl | rfl, houtcome⟩ :=
    interrupted_put (.replaced run : Interrupted (servers False) Writes table table
      (put.request.handle gcm encKey) response after) <;> exact houtcome

/-- Every request is answered. -/
theorem exists_handles (request : SaveRequest) (table : ServersTable) :
    ∃ response after, Handles False gcm encKey table request response after := by
  obtain ⟨events, response, after, run⟩ :=
    exists_executes servers_total (request.handle gcm encKey) table
  exact ⟨response, after, events, run⟩

end Interrupted

end OpsUp.Api
