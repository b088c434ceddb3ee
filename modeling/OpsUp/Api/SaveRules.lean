import OpsUp.Api.ServerHandler

/-!
# What a save reads, decides and writes

The facts every validated request satisfies, and one rule for each kind of save
under interference: whatever the statements of other requests do between its own,
a save ends with an error and no write, or it writes the one record that its
request, the row it read and the key it copied determine.
-/

namespace OpsUp.Api

open OpsUp.Crypto OpsUp.Go OpsUp.Interaction OpsUp.Models OpsUp.Database OpsUp.Storage

/-! ## Accepted requests -/

structure AcceptedSSH (r : ServerCreateReq) : Prop where
  protocol : r.protocol = "ssh"
  port_pos : 1 ≤ r.port
  port_le : r.port ≤ 65535
  rdpDomain : r.rdpDomain = ""
  rdpCertFingerprint : r.rdpCertFingerprint = ""
  authType : r.authType = "key" ∨ r.authType = "password"
  hostKey : r.hostKey = "" ∨ isHostFingerprint r.hostKey = true
  jumpServerId : ∀ jumpId, r.jumpServerId = some jumpId → 0 < jumpId

structure AcceptedRDP (r : ServerCreateReq) : Prop where
  protocol : r.protocol = "rdp"
  port_pos : 1 ≤ r.port
  port_le : r.port ≤ 65535
  authType : r.authType = "password"
  password : r.password = ""
  privateKey : r.privateKey = ""
  copyKeyFrom : r.copyKeyFrom = 0
  hostKey : r.hostKey = ""
  jumpServerId : r.jumpServerId = none
  rdpCertFingerprint : r.rdpCertFingerprint = "" ∨
    (r.rdpCertFingerprint.toList.length = 64 ∧
      ∀ c ∈ r.rdpCertFingerprint.toList, IsLowerHex c)

/-- A normalised fingerprint that decodes to 32 bytes is 64 lower-case digits. -/
theorem normalizeCertFingerprint_lowerHex {fingerprint : String}
    (checked : isCertFingerprint (normalizeCertFingerprint fingerprint) = true) :
    (normalizeCertFingerprint fingerprint).toList.length = 64 ∧
      ∀ c ∈ (normalizeCertFingerprint fingerprint).toList, IsLowerHex c := by
  unfold isCertFingerprint hexDecodeString at checked
  cases hdecoded : hexDecodeChars (normalizeCertFingerprint fingerprint).toList with
  | error err => simp [hdecoded] at checked
  | ok bytes =>
      simp only [hdecoded, beq_iff_eq] at checked
      obtain ⟨hlength, hdigits⟩ := hexDecodeChars_ok hdecoded
      refine ⟨by omega, fun c hc => isLowerHex_of_fromHexChar (hdigits c hc) ?_⟩
      unfold normalizeCertFingerprint toLower at hc
      rw [String.toList_ofList] at hc
      obtain ⟨original, -, rfl⟩ := List.mem_map.mp hc
      exact toLowerRune_not_upper original

theorem validateRDP_ok {r v : ServerCreateReq} (protocol : r.protocol = "rdp")
    (port_pos : 1 ≤ r.port) (port_le : r.port ≤ 65535) (ok : validateRDP r = .ok v) :
    AcceptedRDP v := by
  unfold validateRDP at ok
  split at ok
  · cases ok
  · next hsettings =>
      simp only [not_or, ne_eq, Decidable.not_not] at hsettings
      obtain ⟨hpassword, hprivateKey, hcopy, hhostKey, hjump⟩ := hsettings
      dsimp only at ok
      split at ok
      · cases ok
      · next hfingerprint =>
          cases ok
          refine ⟨protocol, port_pos, port_le, rfl, hpassword, hprivateKey, hcopy, hhostKey,
            hjump, ?_⟩
          by_cases hempty : normalizeCertFingerprint r.rdpCertFingerprint = ""
          · exact Or.inl hempty
          · right
            apply normalizeCertFingerprint_lowerHex
            simpa [hempty] using hfingerprint

/-- The default authentication changes no other field. -/
theorem withDefaultAuthType_eq (r : ServerCreateReq) :
    withDefaultAuthType r = { r with authType := (withDefaultAuthType r).authType } := by
  unfold withDefaultAuthType
  split <;> rfl

theorem validateSSH_ok {r v : ServerCreateReq} (protocol : r.protocol = "ssh")
    (port_pos : 1 ≤ r.port) (port_le : r.port ≤ 65535) (ok : validateSSH r = .ok v) :
    AcceptedSSH v := by
  unfold validateSSH at ok
  rw [withDefaultAuthType_eq] at ok
  generalize (withDefaultAuthType _).authType = authType at ok
  dsimp only at ok
  split at ok
  · cases ok
  · next hauth =>
      split at ok
      · cases ok
      · next hhostKey =>
          have hauthType : authType = "key" ∨ authType = "password" := by
            simpa only [ne_eq, not_and, Decidable.not_not, Decidable.or_iff_not_imp_left]
              using hauth
          have hfingerprint : trimSpace r.hostKey = "" ∨
              isHostFingerprint (trimSpace r.hostKey) = true := by
            simpa only [ne_eq, not_and, Bool.not_eq_false, Decidable.or_iff_not_imp_left]
              using hhostKey
          split at ok
          · next hjump =>
              cases ok
              exact ⟨protocol, port_pos, port_le, rfl, rfl, hauthType, hfingerprint,
                fun jumpId hsome => by rw [hjump] at hsome; cases hsome⟩
          · next jumpId hjump =>
              split at ok
              · cases ok
              · next hpositive =>
                  cases ok
                  refine ⟨protocol, port_pos, port_le, rfl, rfl, hauthType, hfingerprint, ?_⟩
                  intro other hsome
                  rw [hjump] at hsome
                  cases hsome
                  omega

theorem withDefaultPort_protocol (r : ServerCreateReq) :
    (withDefaultPort r).protocol = r.protocol := by
  unfold withDefaultPort
  split
  · rfl
  · split <;> rfl

/-- Validation leaves a request of exactly one of two shapes. -/
theorem accepted_ok {body : Body} {r : ServerCreateReq} (ok : accepted body = .ok r) :
    AcceptedSSH r ∨ AcceptedRDP r := by
  unfold accepted at ok
  split at ok
  · cases ok
  · next bound hbound =>
      unfold validate at ok
      generalize withDefaultProtocol bound = named at ok
      dsimp only at ok
      split at ok
      · cases ok
      · next hnamed =>
          have hprotocol := withDefaultPort_protocol named
          unfold validatePort at ok
          generalize withDefaultPort named = ported at ok hprotocol
          dsimp only at ok
          split at ok
          · cases ok
          · next hport =>
              rw [not_or, Int.not_lt, Int.not_lt] at hport
              split at ok
              · next hrdp => exact Or.inr (validateRDP_ok hrdp hport.1 hport.2 ok)
              · next hrdp =>
                  refine Or.inl (validateSSH_ok ?_ hport.1 hport.2 ok)
                  rw [hprotocol] at hrdp ⊢
                  simpa [hrdp] using hnamed

theorem protocol_ne_empty {r : ServerCreateReq} (shape : AcceptedSSH r ∨ AcceptedRDP r) :
    r.protocol ≠ "" := by
  rcases shape with ssh | rdp
  · rw [ssh.protocol]; decide
  · rw [rdp.protocol]; decide

/-- What a request submits for the credentials, before and after validation. -/
structure SameCredentials (raw r : ServerCreateReq) : Prop where
  privateKey : r.privateKey = raw.privateKey
  password : r.password = raw.password
  copyKeyFrom : r.copyKeyFrom = raw.copyKeyFrom
  rdp : r.protocol = "rdp" ↔ raw.protocol = "rdp"
  authType : r.protocol ≠ "rdp" → (r.authType = "password" ↔ raw.authType = "password")

theorem SameCredentials.trans {first second third : ServerCreateReq}
    (left : SameCredentials first second) (right : SameCredentials second third) :
    SameCredentials first third where
  privateKey := right.privateKey.trans left.privateKey
  password := right.password.trans left.password
  copyKeyFrom := right.copyKeyFrom.trans left.copyKeyFrom
  rdp := right.rdp.trans left.rdp
  authType := fun ssh => (right.authType ssh).trans (left.authType (mt right.rdp.mpr ssh))

theorem withDefaultProtocol_same (r : ServerCreateReq) :
    SameCredentials r (withDefaultProtocol r) := by
  unfold withDefaultProtocol
  split
  · next hempty => exact ⟨rfl, rfl, rfl, by simp [hempty], fun _ => Iff.rfl⟩
  · exact ⟨rfl, rfl, rfl, Iff.rfl, fun _ => Iff.rfl⟩

theorem withDefaultPort_same (r : ServerCreateReq) : SameCredentials r (withDefaultPort r) := by
  unfold withDefaultPort
  split
  · exact ⟨rfl, rfl, rfl, Iff.rfl, fun _ => Iff.rfl⟩
  · split <;> exact ⟨rfl, rfl, rfl, Iff.rfl, fun _ => Iff.rfl⟩

theorem validateRDP_same {r v : ServerCreateReq} (protocol : r.protocol = "rdp")
    (ok : validateRDP r = .ok v) : SameCredentials r v := by
  unfold validateRDP at ok
  split at ok
  · cases ok
  · dsimp only at ok
    split at ok
    · cases ok
    · cases ok
      exact ⟨rfl, rfl, rfl, Iff.rfl, fun ssh => absurd protocol ssh⟩

theorem withDefaultAuthType_same (r : ServerCreateReq) :
    SameCredentials r (withDefaultAuthType r) := by
  unfold withDefaultAuthType
  split
  · next hempty => exact ⟨rfl, rfl, rfl, Iff.rfl, fun _ => by simp [hempty]⟩
  · exact ⟨rfl, rfl, rfl, Iff.rfl, fun _ => Iff.rfl⟩

theorem validateSSH_same {r v : ServerCreateReq} (ok : validateSSH r = .ok v) :
    SameCredentials r v := by
  have hcleared : SameCredentials r { r with rdpDomain := "", rdpCertFingerprint := "" } :=
    ⟨rfl, rfl, rfl, Iff.rfl, fun _ => Iff.rfl⟩
  have hsame := hcleared.trans (withDefaultAuthType_same _)
  unfold validateSSH at ok
  generalize withDefaultAuthType _ = typed at ok hsame
  have htrimmed : SameCredentials r { typed with hostKey := trimSpace typed.hostKey } :=
    hsame.trans ⟨rfl, rfl, rfl, Iff.rfl, fun _ => Iff.rfl⟩
  dsimp only at ok
  split at ok
  · cases ok
  · split at ok
    · cases ok
    · split at ok
      · cases ok
        exact htrimmed
      · split at ok
        · cases ok
        · cases ok
          exact htrimmed

/-- Validation keeps what the request submits for the credentials. -/
theorem accepted_same {body : Body} {r : ServerCreateReq} (ok : accepted body = .ok r) :
    ∃ raw, body = .ok raw ∧ SameCredentials raw r := by
  unfold accepted at ok
  split at ok
  · cases ok
  · next bound hbound =>
      have hbody : body = .ok bound := by
        unfold shouldBindJSON at hbound
        split at hbound
        · cases hbound
        · split at hbound
          · exact congrArg Except.ok (Except.ok.inj hbound)
          · cases hbound
      refine ⟨bound, hbody, ?_⟩
      have hsame := (withDefaultProtocol_same bound).trans (withDefaultPort_same _)
      unfold validate validatePort at ok
      dsimp only at ok
      split at ok
      · cases ok
      · split at ok
        · cases ok
        · split at ok
          · next hrdp => exact hsame.trans (validateRDP_same hrdp ok)
          · exact hsame.trans (validateSSH_same ok)

/-! ## The decisions of a save -/

/-- `resolveCredentials` once the source row has been read. -/
def resolveWith (gcm : GCM) (encKey : String) (rand : Option Nonce) (req : ServerCreateReq)
    (current : Option Server) (source : Except String (Option Server)) :
    Except String (String × String) :=
  if req.protocol = "rdp" then .ok ("", "")
  else
    let privateKey := (current.map Server.privateKey).getD ""
    let password := (current.map Server.password).getD ""
    if req.authType = "password" then
      passwordCredentials gcm encKey rand req privateKey password
    else if req.privateKey = "" ∧ 0 < req.copyKeyFrom then
      match source with
      | .error err => .error err
      | .ok none => .error errNoSourceKey
      | .ok (some source) =>
          if source.privateKey = "" then .error errNoSourceKey
          else keyCredentials gcm encKey rand req source.privateKey password
    else keyCredentials gcm encKey rand req privateKey password

section Resolved

variable {gcm : GCM} {encKey : String} {rand : Option Nonce} {req : ServerCreateReq}
  {current : Option Server} {source : Except String (Option Server)}
  {credentials : String × String}

theorem resolveWith_rdp (rdp : req.protocol = "rdp") :
    resolveWith gcm encKey rand req current source = .ok ("", "") := if_pos rdp

theorem passwordCredentials_ok {privateKey password : String}
    (ok : passwordCredentials gcm encKey rand req privateKey password = .ok credentials) :
    encryptOrKeep gcm encKey rand req.password password = .ok credentials.2 ∧
      credentials.2 ≠ "" ∧ credentials.1 = privateKey := by
  unfold passwordCredentials at ok
  split at ok
  · cases ok
  · next stored hstored =>
      split at ok
      · cases ok
      · next hnonempty =>
          cases ok
          exact ⟨hstored, hnonempty, rfl⟩

theorem keyCredentials_ok {privateKey password : String}
    (ok : keyCredentials gcm encKey rand req privateKey password = .ok credentials) :
    encryptOrKeep gcm encKey rand req.privateKey privateKey = .ok credentials.1 ∧
      credentials.1 ≠ "" ∧ credentials.2 = password := by
  unfold keyCredentials at ok
  split at ok
  · cases ok
  · next stored hstored =>
      split at ok
      · cases ok
      · next hnonempty =>
          cases ok
          exact ⟨hstored, hnonempty, rfl⟩

/-- A save with `auth_type` password submits or keeps a password and keeps the key. -/
theorem resolveWith_password (ssh : req.protocol ≠ "rdp") (auth : req.authType = "password")
    (ok : resolveWith gcm encKey rand req current source = .ok credentials) :
    encryptOrKeep gcm encKey rand req.password ((current.map Server.password).getD "") =
        .ok credentials.2 ∧
      credentials.2 ≠ "" ∧ credentials.1 = (current.map Server.privateKey).getD "" := by
  unfold resolveWith at ok
  rw [if_neg ssh] at ok
  dsimp only at ok
  rw [if_pos auth] at ok
  exact passwordCredentials_ok ok

/-- A submitted password is stored encrypted, whatever was stored before. -/
theorem resolveWith_submitted_password {ciphertext : String} (ssh : req.protocol ≠ "rdp")
    (auth : req.authType = "password") (submitted : req.password ≠ "")
    (encrypted : encrypt gcm rand (bytesOf req.password) encKey = .ok ciphertext) :
    resolveWith gcm encKey rand req current source =
      .ok ((current.map Server.privateKey).getD "", ciphertext) := by
  unfold resolveWith passwordCredentials encryptOrKeep
  rw [if_neg ssh]
  simp only [if_pos auth, if_pos submitted, encrypted, if_neg (encrypt_ne_empty encrypted)]

/-- A save with `auth_type` key submits, copies or keeps a key and keeps the password. -/
theorem resolveWith_key (ssh : req.protocol ≠ "rdp") (auth : req.authType ≠ "password")
    (ok : resolveWith gcm encKey rand req current source = .ok credentials) :
    credentials.1 ≠ "" ∧ credentials.2 = (current.map Server.password).getD "" ∧
      ((req.privateKey = "" ∧ 0 < req.copyKeyFrom ∧
          ∃ server, source = .ok (some server) ∧ credentials.1 = server.privateKey) ∨
        (¬ (req.privateKey = "" ∧ 0 < req.copyKeyFrom) ∧
          encryptOrKeep gcm encKey rand req.privateKey
            ((current.map Server.privateKey).getD "") = .ok credentials.1)) := by
  unfold resolveWith at ok
  rw [if_neg ssh] at ok
  dsimp only at ok
  rw [if_neg auth] at ok
  split at ok
  · next hcopy =>
      rcases source with err | _ | server
      · cases ok
      · cases ok
      · dsimp only at ok
        split at ok
        · cases ok
        · obtain ⟨hkept, hnonempty, hpassword⟩ := keyCredentials_ok ok
          refine ⟨hnonempty, hpassword, Or.inl ⟨hcopy.1, hcopy.2, server, rfl, ?_⟩⟩
          unfold encryptOrKeep at hkept
          rw [if_neg (not_not.mpr hcopy.1)] at hkept
          exact (Except.ok.inj hkept).symm
  · next hcopy =>
      obtain ⟨hkept, hnonempty, hpassword⟩ := keyCredentials_ok ok
      exact ⟨hnonempty, hpassword, Or.inr ⟨hcopy, hkept⟩⟩

end Resolved

/-- The jump row was there, and was not an RDP row, when it was read. -/
def JumpAccepted (table : ServersTable) (req : ServerCreateReq) (id : Int) : Prop :=
  ∀ jumpId, req.jumpServerId = some jumpId → jumpId ≠ id ∧
    ∃ jump, readServer table jumpId = .ok (some jump) ∧ jump.protocol ≠ "rdp"

def Response.IsError (response : Response) : Prop :=
  ∃ status text, 400 ≤ status ∧ response = ⟨status, .error text⟩

theorem badRequest_isError (text : String) : (badRequest text).IsError :=
  ⟨400, text, by decide, rfl⟩

theorem notFound_isError (text : String) : (notFound text).IsError :=
  ⟨404, text, by decide, rfl⟩

theorem internalError_isError (text : String) : (internalError text).IsError :=
  ⟨500, text, by decide, rfl⟩

section Rules

open Program

variable {mayFail : Prop} {discipline : Discipline serversDB ServersTable}
  {history : List (Event serversDB)} {table : ServersTable}
  {gcm : GCM} {encKey : String} {rand : Option Nonce}

theorem keeps_resolveCredentials {α : Type} {req : ServerCreateReq} {current : Option Server}
    {post : α → List (Event serversDB) → ServersTable → Prop}
    {rest : Except String (String × String) → DB α} (quiet : discipline.Quiet)
    (next : ∀ later, discipline.rely table later → ∀ source,
      Reads mayFail later req.copyKeyFrom source → ∀ events,
        (rest (resolveWith gcm encKey rand req current source)).Keeps (servers mayFail)
          discipline post events later) :
    (resolveCredentials gcm encKey rand req current >>= rest).Keeps (servers mayFail)
      discipline post history table := by
  have unread := next table (discipline.rely_refl table) _ (Or.inl rfl) history
  unfold resolveCredentials
  unfold resolveWith at unread
  split
  · next hrdp => simpa [hrdp] using unread
  · next hrdp =>
      dsimp only
      split
      · next hauth => simpa [hrdp, hauth] using unread
      · next hauth =>
          split
          · next hcopy =>
              rw [bind_assoc]
              refine keeps_getServer quiet fun later hlater source hsource events => ?_
              have hnext := next later hlater source hsource events
              unfold resolveWith at hnext
              simp only [hrdp, hauth, hcopy, and_self, if_false, if_true] at hnext
              rcases source with err | _ | server
              · exact hnext
              · exact hnext
              · dsimp only at hnext ⊢
                split
                · next hempty => simpa [hempty] using hnext
                · next hempty => simpa [hempty] using hnext
          · next hcopy => simpa [hrdp, hauth, hcopy] using unread

theorem keeps_checkJump {α : Type} {req : ServerCreateReq} {id : Int}
    {post : α → List (Event serversDB) → ServersTable → Prop}
    {rest : Option Response → DB α} (quiet : discipline.Quiet)
    (refused : ∀ later, discipline.rely table later → ∀ response, response.IsError →
      ∀ events, (rest (some response)).Keeps (servers mayFail) discipline post events later)
    (passed : ∀ later, discipline.rely table later → JumpAccepted later req id →
      ∀ events, (rest none).Keeps (servers mayFail) discipline post events later) :
    (checkJump req id >>= rest).Keeps (servers mayFail) discipline post history table := by
  unfold checkJump
  cases hjump : req.jumpServerId with
  | none =>
      refine passed table (discipline.rely_refl table) ?_ history
      intro jumpId hsome
      rw [hjump] at hsome
      cases hsome
  | some jumpId =>
      dsimp only
      split
      · exact refused table (discipline.rely_refl table) _ (badRequest_isError _) history
      · next hself =>
          rw [bind_assoc]
          refine keeps_getServer quiet fun later hlater result hresult events => ?_
          rcases result with err | _ | jump
          · exact refused later hlater _ (badRequest_isError _) events
          · exact refused later hlater _ (badRequest_isError _) events
          · dsimp only
            split
            · exact refused later hlater _ (badRequest_isError _) events
            · next hprotocol =>
                refine passed later hlater ?_ events
                intro other hsome
                rw [hjump] at hsome
                cases hsome
                exact ⟨hself, jump, hresult.of_ok, hprotocol⟩

variable {post : Response → List (Event serversDB) → ServersTable → Prop}

theorem keeps_saveOver {update : Bool} {req : ServerCreateReq} {id : Int}
    {current : Option Server} (quiet : discipline.Quiet)
    (refused : ∀ later, discipline.rely table later → ∀ response, response.IsError →
      ∀ events, post response events later)
    (write : ∀ s₁ s₂, discipline.rely table s₁ → discipline.rely s₁ s₂ →
      JumpAccepted s₁ req id → ∀ source, Reads mayFail s₂ req.copyKeyFrom source →
        ∀ credentials, resolveWith gcm encKey rand req current source = .ok credentials →
          ∀ events, (writeServer update (savedServer req id credentials)).Keeps
            (servers mayFail) discipline post events s₂) :
    (saveOver gcm encKey rand update req id current).Keeps (servers mayFail) discipline post
      history table := by
  unfold saveOver
  refine keeps_checkJump quiet ?_ ?_
  · intro later hlater response herror events last hlast
    exact refused last (discipline.rely_trans hlater hlast) response herror events
  · intro s₁ hs₁ hjump events₁
    refine keeps_resolveCredentials quiet fun s₂ hs₂ source hsource events₂ => ?_
    cases hresolved : resolveWith gcm encKey rand req current source with
    | error err =>
        intro last hlast
        exact refused last (discipline.rely_trans hs₁ (discipline.rely_trans hs₂ hlast)) _
          (badRequest_isError err) events₂
    | ok credentials => exact write s₁ s₂ hs₁ hs₂ hjump source hsource credentials hresolved events₂

theorem keeps_writeServer_update {server : Server} (quiet : discipline.Quiet)
    (named : server.protocol ≠ "")
    (failed : mayFail → ∀ later, discipline.rely table later → ∀ response, response.IsError →
      ∀ events, post response events later)
    (saved : ∀ later, discipline.rely table later → ∀ now,
      (∀ events event, discipline.guarantee events later event
        (later.update server.id (updatedRow server now))) ∧
      ∀ last, discipline.rely (later.update server.id (updatedRow server now)) last →
        ∀ events, post ⟨200, .server server.toListItem⟩ events last) :
    (writeServer true server).Keeps (servers mayFail) discipline post history table := by
  unfold writeServer
  rw [if_pos rfl]
  refine keeps_updateServer fun later hlater result after hupdate => ?_
  rcases hupdate with ⟨rfl, now, rfl⟩ | ⟨hfail, ⟨err, rfl⟩, rfl⟩
  · rw [withProtocol_of_ne named]
    obtain ⟨hguarantee, hpost⟩ := saved later hlater now
    exact ⟨hguarantee history, fun events last hlast => hpost last hlast events⟩
  · refine ⟨quiet history after, fun events last hlast => ?_⟩
    exact failed hfail last (discipline.rely_trans hlater hlast) _ (internalError_isError err)
      events

theorem keeps_writeServer_create {server : Server} (quiet : discipline.Quiet)
    (named : server.protocol ≠ "")
    (failed : mayFail → ∀ later, discipline.rely table later → ∀ response, response.IsError →
      ∀ events, post response events later)
    (saved : ∀ later, discipline.rely table later → ∀ now,
      (∀ events event, discipline.guarantee events later event
        (later.insert (overwrite (Row.blank now) server))) ∧
      ∀ last, discipline.rely (later.insert (overwrite (Row.blank now) server)) last →
        ∀ events, post ⟨201, .server { server.toListItem with id := later.sequence + 1 }⟩
          events last) :
    (writeServer false server).Keeps (servers mayFail) discipline post history table := by
  unfold writeServer
  rw [if_neg (by decide)]
  refine keeps_createServer fun later hlater result after hcreate => ?_
  rcases hcreate with ⟨rfl, now, rfl⟩ | ⟨hfail, ⟨err, rfl⟩, rfl⟩
  · rw [withProtocol_of_ne named]
    obtain ⟨hguarantee, hpost⟩ := saved later hlater now
    exact ⟨hguarantee history, fun events last hlast => hpost last hlast events⟩
  · refine ⟨quiet history after, fun events last hlast => ?_⟩
    exact failed hfail last (discipline.rely_trans hlater hlast) _ (internalError_isError err)
      events

/--
An update under interference.  The four states are those in which its own row,
the jump row and the source row are read and its row is written.
-/
theorem keeps_saveServer_update {param : String} {body : Body} (quiet : discipline.Quiet)
    (refused : ∀ later, discipline.rely table later → ∀ response, response.IsError →
      ∀ events, post response events later)
    (saved : ∀ req id, accepted body = .ok req → parseInt param = some id → 0 < id →
      ∀ s₁ s₂ s₃ s₄, discipline.rely table s₁ → discipline.rely s₁ s₂ →
        discipline.rely s₂ s₃ → discipline.rely s₃ s₄ →
      ∀ current, readServer s₁ id = .ok (some current) → JumpAccepted s₂ req id →
      ∀ source, Reads mayFail s₃ req.copyKeyFrom source →
      ∀ credentials, resolveWith gcm encKey rand req (some current) source = .ok credentials →
      ∀ now,
        (∀ events event, discipline.guarantee events s₄ event
          (s₄.update id (updatedRow (savedServer req id credentials) now))) ∧
        ∀ last, discipline.rely
            (s₄.update id (updatedRow (savedServer req id credentials) now)) last →
          ∀ events,
            post ⟨200, .server (savedServer req id credentials).toListItem⟩ events last) :
    (saveServer gcm encKey rand true param body).Keeps (servers mayFail) discipline post
      history table := by
  have refuse : ∀ {response : Response}, response.IsError → ∀ events,
      (Program.ret response : DB Response).Keeps (servers mayFail) discipline post events table :=
    fun herror events last hlast => refused last hlast _ herror events
  unfold saveServer
  cases hbody : accepted body with
  | error err => exact refuse (badRequest_isError err) history
  | ok req =>
      have hshape := accepted_ok hbody
      simp only [saveValidated, if_true]
      cases hparam : parseInt param with
      | none => exact refuse (badRequest_isError _) history
      | some id =>
          dsimp only
          split
          · exact refuse (badRequest_isError _) history
          · next hid =>
              refine keeps_getServer quiet fun s₁ hs₁ result hresult events₁ => ?_
              rcases result with err | _ | current
              · exact fun last hlast => refused last (discipline.rely_trans hs₁ hlast) _
                  (internalError_isError err) events₁
              · exact fun last hlast => refused last (discipline.rely_trans hs₁ hlast) _
                  (notFound_isError _) events₁
              · refine keeps_saveOver quiet ?_ ?_
                · exact fun later hlater => refused later (discipline.rely_trans hs₁ hlater)
                · intro s₂ s₃ hs₂ hs₃ hjump source hsource credentials hcredentials events₃
                  refine keeps_writeServer_update quiet (protocol_ne_empty hshape) ?_ ?_
                  · intro _ later hlater
                    exact refused later (discipline.rely_trans hs₁
                      (discipline.rely_trans hs₂ (discipline.rely_trans hs₃ hlater)))
                  · intro s₄ hs₄ now
                    exact saved req id hbody hparam (by omega) s₁ s₂ s₃ s₄ hs₁ hs₂ hs₃ hs₄
                      current hresult.of_ok hjump source hsource credentials hcredentials now

/-- A creation under interference: no row of its own is read. -/
theorem keeps_saveServer_create {param : String} {body : Body} (quiet : discipline.Quiet)
    (refused : ∀ later, discipline.rely table later → ∀ response, response.IsError →
      ∀ events, post response events later)
    (saved : ∀ req, accepted body = .ok req →
      ∀ s₁ s₂ s₃, discipline.rely table s₁ → discipline.rely s₁ s₂ → discipline.rely s₂ s₃ →
      JumpAccepted s₁ req 0 →
      ∀ source, Reads mayFail s₂ req.copyKeyFrom source →
      ∀ credentials, resolveWith gcm encKey rand req none source = .ok credentials →
      ∀ now,
        (∀ events event, discipline.guarantee events s₃ event
          (s₃.insert (overwrite (Row.blank now) (savedServer req 0 credentials)))) ∧
        ∀ last, discipline.rely
            (s₃.insert (overwrite (Row.blank now) (savedServer req 0 credentials))) last →
          ∀ events, post ⟨201, .server { (savedServer req 0 credentials).toListItem with
            id := s₃.sequence + 1 }⟩ events last) :
    (saveServer gcm encKey rand false param body).Keeps (servers mayFail) discipline post
      history table := by
  unfold saveServer
  cases hbody : accepted body with
  | error err => exact fun last hlast => refused last hlast _ (badRequest_isError err) history
  | ok req =>
      have hshape := accepted_ok hbody
      simp only [saveValidated, Bool.false_eq_true, if_false]
      refine keeps_saveOver quiet refused ?_
      intro s₁ s₂ hs₁ hs₂ hjump source hsource credentials hcredentials events
      refine keeps_writeServer_create quiet (protocol_ne_empty hshape) ?_ ?_
      · intro _ later hlater
        exact refused later (discipline.rely_trans hs₁ (discipline.rely_trans hs₂ hlater))
      · intro s₃ hs₃ now
        exact saved req hbody s₁ s₂ s₃ hs₁ hs₂ hs₃ hjump source hsource credentials
          hcredentials now

theorem keeps_deleteServerHandler {param : String} (quiet : discipline.Quiet)
    (refused : ∀ later, discipline.rely table later → ∀ response, response.IsError →
      ∀ events, post response events later)
    (deleted : ∀ id, parseInt param = some id → 0 < id →
      ∀ later, discipline.rely table later →
        (∀ events event, discipline.guarantee events later event (later.delete id)) ∧
        ∀ last, discipline.rely (later.delete id) last →
          ∀ events, post ⟨200, .message "deleted"⟩ events last) :
    (deleteServerHandler param).Keeps (servers mayFail) discipline post history table := by
  unfold deleteServerHandler
  cases hparam : parseInt param with
  | none => exact fun last hlast => refused last hlast _ (badRequest_isError _) history
  | some id =>
      dsimp only
      split
      · exact fun last hlast => refused last hlast _ (badRequest_isError _) history
      · next hid =>
          refine keeps_deleteServer fun later hlater result after hdelete => ?_
          rcases hdelete with ⟨rfl, rfl⟩ | ⟨hfail, ⟨err, rfl⟩, rfl⟩
          · obtain ⟨hguarantee, hpost⟩ := deleted id hparam (by omega) later hlater
            exact ⟨hguarantee history, fun events last hlast => hpost last hlast events⟩
          · refine ⟨quiet history after, fun events last hlast => ?_⟩
            exact refused last (discipline.rely_trans hlater hlast) _
              (internalError_isError err) events

end Rules

end OpsUp.Api
