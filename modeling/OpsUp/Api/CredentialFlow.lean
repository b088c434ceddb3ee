import OpsUp.Api.RequestRuns
import OpsUp.Models.Secrets

/-!
# What responses show of credentials

Two runs of the /servers API begin on tables, and receive requests, that differ in
the contents of non-empty secrets and in the encryption nonces only.  Every check
of a request and every branch of a save depends on a secret through its emptiness,
so the tables stay alike and the responses are the same.
-/

namespace OpsUp.Api

open OpsUp.Crypto OpsUp.Go OpsUp.Interaction OpsUp.Models OpsUp.Database OpsUp.Storage

/-- A request of the /servers API. -/
inductive ApiRequest where
  | list
  | get (param : String)
  | save (request : SaveRequest)

def ApiRequest.handle (gcm : GCM) (encKey : String) : ApiRequest → DB Response
  | .list => listServersHandler
  | .get param => getServerHandler param
  | .save request => request.handle gcm encKey

/-- The responses to a sequence of requests; the clock names the time of each statement. -/
def responses (gcm : GCM) (encKey : String) (clock : Nat → String) (table : ServersTable)
    (requests : List ApiRequest) : List Response :=
  (Program.serial (requests.map (ApiRequest.handle gcm encKey))).result (ticking clock) (0, table)

/-- A save answered against the clock is handled by the database. -/
theorem handles_ticking (gcm : GCM) (encKey : String) (clock : Nat → String) (mayFail : Prop)
    (request : SaveRequest) (state : Nat × ServersTable) :
    Handles mayFail gcm encKey state.2 request
      ((request.handle gcm encKey).result (ticking clock) state)
      ((request.handle gcm encKey).final (ticking clock) state).2 :=
  ⟨_, executes_ticking clock mayFail (request.handle gcm encKey) state⟩

/-! ## Requests that differ in their secrets only -/

inductive ServerCreateReq.Alike (req : ServerCreateReq) : ServerCreateReq → Prop where
  | intro {privateKey password : String} (sameKey : SameSecret req.privateKey privateKey)
      (samePassword : SameSecret req.password password) :
      ServerCreateReq.Alike req { req with privateKey := privateKey, password := password }

/-- Both random reads fail or both deliver some nonce. -/
abbrev SameDraw : Option Nonce → Option Nonce → Prop := Option.Rel fun _ _ => True

inductive SaveRequest.Alike : SaveRequest → SaveRequest → Prop where
  | create {body other : Body} {rand drawn : Option Nonce}
      (bodies : SameOutcome ServerCreateReq.Alike body other) (draws : SameDraw rand drawn) :
      SaveRequest.Alike (.create body rand) (.create other drawn)
  | update (param : String) {body other : Body} {rand drawn : Option Nonce}
      (bodies : SameOutcome ServerCreateReq.Alike body other) (draws : SameDraw rand drawn) :
      SaveRequest.Alike (.update param body rand) (.update param other drawn)
  | delete (param : String) : SaveRequest.Alike (.delete param) (.delete param)

inductive ApiRequest.Alike : ApiRequest → ApiRequest → Prop where
  | list : ApiRequest.Alike .list .list
  | get (param : String) : ApiRequest.Alike (.get param) (.get param)
  | save {request other : SaveRequest} (requests : request.Alike other) :
      ApiRequest.Alike (.save request) (.save other)

/-! ## Binding and validating -/

section Validation

variable {first second : ServerCreateReq}

theorem missingFields_alike (alike : first.Alike second) :
    missingFields first = missingFields second := by
  cases alike
  rfl

theorem shouldBindJSON_alike {body other : Body}
    (bodies : SameOutcome ServerCreateReq.Alike body other) :
    SameOutcome ServerCreateReq.Alike (shouldBindJSON body) (shouldBindJSON other) := by
  cases bodies with
  | error text => exact .error text
  | ok alike =>
      unfold shouldBindJSON
      simp only [missingFields_alike alike]
      split
      · exact .ok alike
      · exact .error _

theorem withDefaultProtocol_alike (alike : first.Alike second) :
    (withDefaultProtocol first).Alike (withDefaultProtocol second) := by
  cases alike with
  | intro sameKey samePassword =>
      exact related_ite Iff.rfl (.intro sameKey samePassword) (.intro sameKey samePassword)

theorem withDefaultPort_alike (alike : first.Alike second) :
    (withDefaultPort first).Alike (withDefaultPort second) := by
  cases alike with
  | intro sameKey samePassword =>
      apply related_ite Iff.rfl (.intro sameKey samePassword)
      exact related_ite Iff.rfl (.intro sameKey samePassword) (.intro sameKey samePassword)

theorem withDefaultAuthType_alike (alike : first.Alike second) :
    (withDefaultAuthType first).Alike (withDefaultAuthType second) := by
  cases alike with
  | intro sameKey samePassword =>
      exact related_ite Iff.rfl (.intro sameKey samePassword) (.intro sameKey samePassword)

theorem validateRDP_alike (alike : first.Alike second) :
    SameOutcome ServerCreateReq.Alike (validateRDP first) (validateRDP second) := by
  cases alike with
  | intro sameKey samePassword =>
      apply related_ite
      · exact or_congr (not_congr samePassword) (or_congr (not_congr sameKey) Iff.rfl)
      · exact .error _
      · apply related_ite Iff.rfl (.error _)
        exact .ok (.intro sameKey samePassword)

theorem validateSSH_alike (alike : first.Alike second) :
    SameOutcome ServerCreateReq.Alike (validateSSH first) (validateSSH second) := by
  have hcleared : ServerCreateReq.Alike
      (withDefaultAuthType { first with rdpDomain := "", rdpCertFingerprint := "" })
      (withDefaultAuthType { second with rdpDomain := "", rdpCertFingerprint := "" }) := by
    apply withDefaultAuthType_alike
    cases alike with
    | intro sameKey samePassword => exact .intro sameKey samePassword
  unfold validateSSH
  generalize withDefaultAuthType { first with rdpDomain := "", rdpCertFingerprint := "" } = req
    at hcleared ⊢
  generalize withDefaultAuthType { second with rdpDomain := "", rdpCertFingerprint := "" } = other
    at hcleared ⊢
  cases hcleared with
  | intro sameKey samePassword =>
      apply related_ite Iff.rfl (.error _)
      apply related_ite Iff.rfl (.error _)
      dsimp only
      cases req.jumpServerId with
      | none => exact .ok (.intro sameKey samePassword)
      | some jumpId => exact related_ite Iff.rfl (.error _) (.ok (.intro sameKey samePassword))

theorem validatePort_alike (alike : first.Alike second) :
    SameOutcome ServerCreateReq.Alike (validatePort first) (validatePort second) := by
  have hport := withDefaultPort_alike alike
  unfold validatePort
  generalize withDefaultPort first = req at hport ⊢
  generalize withDefaultPort second = other at hport ⊢
  have hrdp := validateRDP_alike hport
  have hssh := validateSSH_alike hport
  cases hport with
  | intro sameKey samePassword =>
      apply related_ite Iff.rfl (.error _)
      exact related_ite Iff.rfl hrdp hssh

theorem validate_alike (alike : first.Alike second) :
    SameOutcome ServerCreateReq.Alike (validate first) (validate second) := by
  have hprotocol := withDefaultProtocol_alike alike
  unfold validate
  generalize withDefaultProtocol first = req at hprotocol ⊢
  generalize withDefaultProtocol second = other at hprotocol ⊢
  have hvalid := validatePort_alike hprotocol
  cases hprotocol with
  | intro sameKey samePassword => exact related_ite Iff.rfl (.error _) hvalid

theorem accepted_alike {body other : Body}
    (bodies : SameOutcome ServerCreateReq.Alike body other) :
    SameOutcome ServerCreateReq.Alike (accepted body) (accepted other) := by
  have hbound := shouldBindJSON_alike bodies
  unfold accepted
  generalize shouldBindJSON body = bound at hbound ⊢
  generalize shouldBindJSON other = rebound at hbound ⊢
  cases hbound with
  | error text => exact .error text
  | ok alike => exact validate_alike alike

end Validation

/-! ## Resolving credentials -/

section Saving

variable {gcm : GCM} {encKey : String} {rand drawn : Option Nonce} {clock : Nat → String}
  {req other : ServerCreateReq}

/-- Encryption fails on any plaintext or on none, and never yields an empty text. -/
theorem encrypt_alike (draws : SameDraw rand drawn) (plaintext replaced : Bytes) :
    SameOutcome SameSecret (encrypt gcm rand plaintext encKey)
      (encrypt gcm drawn replaced encKey) := by
  unfold encrypt
  cases hexDecodeString encKey with
  | error err => exact .error _
  | ok key =>
      dsimp only
      cases newCipher key with
      | error err => exact .error _
      | ok _ =>
          cases draws with
          | none => exact .error _
          | some _ =>
              exact .ok (iff_of_false (hexEncode_nonce_ne_empty _ _) (hexEncode_nonce_ne_empty _ _))

variable (gcm encKey) in
theorem encryptOrKeep_alike (draws : SameDraw rand drawn) {submitted resubmitted : String}
    {stored kept : String} (sameSubmitted : SameSecret submitted resubmitted)
    (sameStored : SameSecret stored kept) :
    SameOutcome SameSecret (encryptOrKeep gcm encKey rand submitted stored)
      (encryptOrKeep gcm encKey drawn resubmitted kept) :=
  related_ite (not_congr sameSubmitted) (encrypt_alike draws _ _) (.ok sameStored)

/-- Two pairs of credentials, each alike. -/
abbrev SamePair (first second : String × String) : Prop :=
  SameSecret first.1 second.1 ∧ SameSecret first.2 second.2

variable (gcm encKey) in
theorem passwordCredentials_alike (draws : SameDraw rand drawn) (requests : req.Alike other)
    {privateKey password storedKey storedPassword : String}
    (sameKey : SameSecret privateKey storedKey)
    (samePassword : SameSecret password storedPassword) :
    SameOutcome SamePair (passwordCredentials gcm encKey rand req privateKey password)
      (passwordCredentials gcm encKey drawn other storedKey storedPassword) := by
  cases requests with
  | intro _ sameSubmitted =>
      have hresolved := encryptOrKeep_alike gcm encKey draws sameSubmitted samePassword
      unfold passwordCredentials
      generalize encryptOrKeep gcm encKey rand _ _ = resolved at hresolved ⊢
      generalize encryptOrKeep gcm encKey drawn _ _ = redone at hresolved ⊢
      cases hresolved with
      | error text => exact .error text
      | ok same => exact related_ite same (.error _) (.ok ⟨sameKey, same⟩)

variable (gcm encKey) in
theorem keyCredentials_alike (draws : SameDraw rand drawn) (requests : req.Alike other)
    {privateKey password storedKey storedPassword : String}
    (sameKey : SameSecret privateKey storedKey)
    (samePassword : SameSecret password storedPassword) :
    SameOutcome SamePair (keyCredentials gcm encKey rand req privateKey password)
      (keyCredentials gcm encKey drawn other storedKey storedPassword) := by
  cases requests with
  | intro sameSubmitted _ =>
      have hresolved := encryptOrKeep_alike gcm encKey draws sameSubmitted sameKey
      unfold keyCredentials
      generalize encryptOrKeep gcm encKey rand _ _ = resolved at hresolved ⊢
      generalize encryptOrKeep gcm encKey drawn _ _ = redone at hresolved ⊢
      cases hresolved with
      | error text => exact .error text
      | ok same => exact related_ite same (.error _) (.ok ⟨same, samePassword⟩)

theorem resolveCredentials_runAlike (draws : SameDraw rand drawn) (requests : req.Alike other)
    {current stored : Option Server} (servers : Option.Rel Server.Alike current stored) :
    RunAlike clock (SameOutcome SamePair) (resolveCredentials gcm encKey rand req current)
      (resolveCredentials gcm encKey drawn other stored) := by
  have hkey : SameSecret ((current.map Server.privateKey).getD "")
      ((stored.map Server.privateKey).getD "") := by
    cases servers with
    | none => exact Iff.rfl
    | some alike => cases alike with | intro sameKey _ => exact sameKey
  have hpassword : SameSecret ((current.map Server.password).getD "")
      ((stored.map Server.password).getD "") := by
    cases servers with
    | none => exact Iff.rfl
    | some alike => cases alike with | intro _ samePassword => exact samePassword
  have hpasswords := passwordCredentials_alike gcm encKey draws requests hkey hpassword
  have hkeys := fun key source (same : SameSecret key source) =>
    keyCredentials_alike gcm encKey draws requests same hpassword
  unfold resolveCredentials
  cases requests with
  | intro sameKey samePassword =>
      apply related_ite Iff.rfl (.ret (.ok ⟨Iff.rfl, Iff.rfl⟩))
      apply related_ite Iff.rfl (.ret hpasswords)
      apply related_ite (and_congr sameKey Iff.rfl) _ (.ret (hkeys _ _ hkey))
      apply Program.RunAlike.bind (getServer_runAlike _)
      intro source copied hsource
      cases hsource with
      | error text => exact .ret (.error text)
      | ok found =>
          cases found with
          | none => exact .ret (.error _)
          | some alike =>
              cases alike with
              | intro sameSource _ =>
                  exact related_ite sameSource (.ret (.error _)) (.ret (hkeys _ _ sameSource))

/-! ## Saving -/

theorem checkJump_runAlike (requests : req.Alike other) (id : Int) :
    RunAlike clock Eq (checkJump req id) (checkJump other id) := by
  cases requests
  unfold checkJump
  dsimp only
  cases req.jumpServerId with
  | none => exact .ret rfl
  | some jumpId =>
      apply related_ite Iff.rfl (.ret rfl)
      apply Program.RunAlike.bind (getServer_runAlike _)
      intro jump rejump hjump
      cases hjump with
      | error text => exact .ret rfl
      | ok found =>
          cases found with
          | none => exact .ret rfl
          | some alike =>
              cases alike
              exact related_ite Iff.rfl (.ret rfl) (.ret rfl)

theorem savedServer_alike (requests : req.Alike other) (id : Int)
    {credentials resolved : String × String} (pairs : SamePair credentials resolved) :
    (savedServer req id credentials).Alike (savedServer other id resolved) := by
  cases requests
  exact .intro pairs.1 pairs.2

theorem writeServer_runAlike (update : Bool) {server written : Server}
    (servers : server.Alike written) :
    RunAlike clock Eq (writeServer update server) (writeServer update written) := by
  unfold writeServer
  apply Program.RunAlike.bind
  · exact related_ite Iff.rfl (updateServer_runAlike servers) (createServer_runAlike servers)
  · intro saved resaved hsaved
    cases hsaved with
    | error text => exact .ret rfl
    | ok alike =>
        dsimp only
        rw [alike.toListItem_eq]
        exact .ret rfl

theorem saveOver_runAlike (draws : SameDraw rand drawn) (requests : req.Alike other)
    (update : Bool) (id : Int) {current stored : Option Server}
    (servers : Option.Rel Server.Alike current stored) :
    RunAlike clock Eq (saveOver gcm encKey rand update req id current)
      (saveOver gcm encKey drawn update other id stored) := by
  unfold saveOver
  apply Program.RunAlike.bind (checkJump_runAlike requests id)
  rintro refusal _ rfl
  cases refusal with
  | some refusal => exact .ret rfl
  | none =>
      apply Program.RunAlike.bind (resolveCredentials_runAlike draws requests servers)
      intro credentials resolved hcredentials
      cases hcredentials with
      | error text => exact .ret rfl
      | ok pairs => exact writeServer_runAlike update (savedServer_alike requests id pairs)

theorem saveValidated_runAlike (draws : SameDraw rand drawn) (requests : req.Alike other)
    (update : Bool) (param : String) :
    RunAlike clock Eq (saveValidated gcm encKey rand update param req)
      (saveValidated gcm encKey drawn update param other) := by
  unfold saveValidated
  apply related_ite Iff.rfl _ (saveOver_runAlike draws requests update 0 .none)
  cases parseInt param with
  | none => exact .ret rfl
  | some id =>
      apply related_ite Iff.rfl (.ret rfl)
      apply Program.RunAlike.bind (getServer_runAlike id)
      intro current stored hcurrent
      cases hcurrent with
      | error text => exact .ret rfl
      | ok found =>
          cases found with
          | none => exact .ret rfl
          | some alike => exact saveOver_runAlike draws requests update id (.some alike)

theorem saveServer_runAlike (draws : SameDraw rand drawn) (update : Bool) (param : String)
    {body rebody : Body} (bodies : SameOutcome ServerCreateReq.Alike body rebody) :
    RunAlike clock Eq (saveServer gcm encKey rand update param body)
      (saveServer gcm encKey drawn update param rebody) := by
  have haccepted := accepted_alike bodies
  unfold saveServer
  generalize accepted body = outcome at haccepted ⊢
  generalize accepted rebody = reoutcome at haccepted ⊢
  cases haccepted with
  | error text => exact .ret rfl
  | ok requests => exact saveValidated_runAlike draws requests update param

end Saving

/-! ## Whole sequences of requests -/

section Requests

variable (gcm : GCM) (encKey : String) (clock : Nat → String)

theorem listServersHandler_runAlike :
    RunAlike clock Eq listServersHandler listServersHandler := by
  apply Program.RunAlike.bind listServers_runAlike
  rintro listed _ rfl
  cases listed with
  | error text => exact .ret rfl
  | ok servers => exact .ret rfl

theorem getServerHandler_runAlike (param : String) :
    RunAlike clock Eq (getServerHandler param) (getServerHandler param) := by
  unfold getServerHandler
  cases parseInt param with
  | none => exact .ret rfl
  | some id =>
      apply Program.RunAlike.bind (getServer_runAlike id)
      intro found refound hfound
      cases hfound with
      | error text => exact .ret rfl
      | ok servers =>
          cases servers with
          | none => exact .ret rfl
          | some alike =>
              dsimp only
              rw [alike.toListItem_eq]
              exact .ret rfl

theorem deleteServerHandler_runAlike (param : String) :
    RunAlike clock Eq (deleteServerHandler param) (deleteServerHandler param) := by
  unfold deleteServerHandler
  cases parseInt param with
  | none => exact .ret rfl
  | some id =>
      apply related_ite Iff.rfl (.ret rfl)
      apply Program.RunAlike.bind (deleteServer_runAlike id)
      intro deleted redeleted hdeleted
      cases hdeleted with
      | error text => exact .ret rfl
      | ok _ => exact .ret rfl

theorem handle_runAlike {request other : ApiRequest} (requests : request.Alike other) :
    RunAlike clock Eq (request.handle gcm encKey) (other.handle gcm encKey) := by
  cases requests with
  | list => exact listServersHandler_runAlike clock
  | get param => exact getServerHandler_runAlike clock param
  | save saves =>
      cases saves with
      | create bodies draws => exact saveServer_runAlike draws false "" bodies
      | update param bodies draws => exact saveServer_runAlike draws true param bodies
      | delete param => exact deleteServerHandler_runAlike clock param

/--
Tables and request sequences that differ in the contents of non-empty secrets only
receive the same responses.
-/
theorem responses_independent {table other : ServersTable} {requests reissued : List ApiRequest}
    (tables : TablesAlike table other)
    (sequences : List.Forall₂ ApiRequest.Alike requests reissued) :
    responses gcm encKey clock table requests = responses gcm encKey clock other reissued := by
  have hhandled : List.Forall₂ (RunAlike clock Eq)
      (requests.map (ApiRequest.handle gcm encKey))
      (reissued.map (ApiRequest.handle gcm encKey)) := by
    rw [List.forall₂_map_left_iff, List.forall₂_map_right_iff]
    exact sequences.imp fun _ _ alike => handle_runAlike gcm encKey clock alike
  have hserial := Program.RunAlike.serial hhandled (0, table) (0, other) ⟨rfl, tables⟩
  rw [List.forall₂_eq_eq_eq] at hserial
  exact hserial.1

end Requests

/-- A gateway whose stored password is the given text. -/
def gatewayWith (secret : String) : ServersTable :=
  (Table.empty 0).insert (createdRow gatewayRequest secret)

/-- List, add a server behind the gateway, rename the gateway, read it back. -/
def gatewaySession (password : String) (nonce : Nonce) : List ApiRequest :=
  [.list,
    .save (.create (.ok { gatewayRequest with password := password, jumpServerId := some 1 })
      (some nonce)),
    .save (.update "1" (.ok { gatewayRequest with name := "renamed", password := "" }) none),
    .get "1"]

def onesNonce : Nonce := ⟨List.replicate nonceSize 1, List.length_replicate⟩

theorem responses_independent_gateway :
    (responses tagGCM legacyEncryptionKey (fun _ => "") (gatewayWith "00")
        (gatewaySession "first" zeroNonce)).map Response.status = [200, 201, 200, 200] ∧
      responses tagGCM legacyEncryptionKey (fun _ => "") (gatewayWith "00")
          (gatewaySession "first" zeroNonce) =
        responses tagGCM legacyEncryptionKey (fun _ => "") (gatewayWith "1111")
          (gatewaySession "second" onesNonce) := by
  refine ⟨by decide +kernel, ?_⟩
  have stored : SameSecret "00" "1111" := iff_of_false (by decide) (by decide)
  have submitted : SameSecret "first" "second" := iff_of_false (by decide) (by decide)
  apply responses_independent
  · exact ⟨.cons (.intro Iff.rfl (.some stored)) .nil, rfl⟩
  · have created : SameOutcome ServerCreateReq.Alike
        (.ok { gatewayRequest with password := "first", jumpServerId := some 1 })
        (.ok { gatewayRequest with password := "second", jumpServerId := some 1 }) :=
      .ok (.intro Iff.rfl submitted)
    have renamed : SameOutcome ServerCreateReq.Alike
        (.ok { gatewayRequest with name := "renamed", password := "" })
        (.ok { gatewayRequest with name := "renamed", password := "" }) :=
      .ok (.intro Iff.rfl Iff.rfl)
    exact .cons .list (.cons (.save (.create created (.some trivial)))
      (.cons (.save (.update "1" renamed .none)) (.cons (.get "1") .nil)))

end OpsUp.Api
