import OpsUp.Crypto.Encryption
import OpsUp.Go.Base64
import OpsUp.Models.Server

/-!
# The /servers handlers

A request body is bound and validated before the first statement.  An update
reads the current row, any save reads the jump row and, when a key is copied, the
source row; the last statement writes the whole row.  No transaction connects the
statements.
-/

namespace OpsUp.Api

open OpsUp.Crypto OpsUp.Go OpsUp.Interaction OpsUp.Models OpsUp.Database

structure ServerCreateReq where
  protocol : String
  rdpDomain : String
  rdpCertFingerprint : String
  name : String
  host : String
  port : Int
  username : String
  authType : String
  hostKey : String
  privateKey : String
  password : String
  copyKeyFrom : Int
  jumpServerId : Option Int
  group : String
  description : String
  deriving DecidableEq, Repr

/-- What decoding the JSON body yields: a request or the decoder's error. -/
abbrev Body := Except String ServerCreateReq

def requiredError (field : String) : String :=
  "Key: 'serverCreateReq." ++ field ++ "' Error:Field validation for '" ++ field ++
    "' failed on the 'required' tag"

/-- The fields with `binding:"required"` that are empty. -/
def missingFields (r : ServerCreateReq) : List String :=
  (if r.name = "" then ["Name"] else []) ++ (if r.host = "" then ["Host"] else []) ++
    (if r.username = "" then ["Username"] else [])

def shouldBindJSON (body : Body) : Except String ServerCreateReq :=
  match body with
  | .error err => .error err
  | .ok r =>
      if missingFields r = [] then .ok r
      else .error ("\n".intercalate ((missingFields r).map requiredError))

/-! ## Validation -/

def errProtocol : String := "protocol must be ssh or rdp"
def errPort : String := "port must be between 1 and 65535"
def errRDPSettings : String := "RDP V1 does not store credentials or support SSH settings"
def errRDPFingerprint : String := "RDP certificate fingerprint must be SHA256 (64 hex digits)"
def errAuthType : String := "auth_type must be key or password"
def errHostKey : String := "host_key must be an SHA256 SSH host fingerprint"
def errJumpId : String := "invalid jump_server_id"

def hostKeyPrefix : String := "SHA256:"

/-- The check made on a non-empty `host_key`. -/
def isHostFingerprint (hostKey : String) : Bool :=
  match rawStdDecodeString (trimPrefix hostKey hostKeyPrefix) with
  | none => false
  | some decoded => hasPrefix hostKey hostKeyPrefix && decoded.length == 32

/-- The check made on a non-empty, normalised `rdp_cert_fingerprint`. -/
def isCertFingerprint (fingerprint : String) : Bool :=
  match hexDecodeString fingerprint with
  | .error _ => false
  | .ok bytes => bytes.length == 32

def normalizeCertFingerprint (fingerprint : String) : String :=
  toLower (removeAll (trimSpace fingerprint) ':')

/-- The branch of `validate` for `rdp`, after the port has been settled. -/
def validateRDP (r : ServerCreateReq) : Except String ServerCreateReq :=
  if r.password ≠ "" ∨ r.privateKey ≠ "" ∨ r.copyKeyFrom ≠ 0 ∨ r.hostKey ≠ "" ∨
      r.jumpServerId ≠ none then
    .error errRDPSettings
  else
    let r := { r with
      authType := "password"
      rdpCertFingerprint := normalizeCertFingerprint r.rdpCertFingerprint }
    if r.rdpCertFingerprint ≠ "" ∧ isCertFingerprint r.rdpCertFingerprint = false then
      .error errRDPFingerprint
    else .ok r

def withDefaultAuthType (r : ServerCreateReq) : ServerCreateReq :=
  if r.authType = "" then { r with authType := "key" } else r

/-- The branch of `validate` for `ssh`, after the port has been settled. -/
def validateSSH (r : ServerCreateReq) : Except String ServerCreateReq :=
  let r := withDefaultAuthType { r with rdpDomain := "", rdpCertFingerprint := "" }
  if r.authType ≠ "key" ∧ r.authType ≠ "password" then .error errAuthType
  else
    let r := { r with hostKey := trimSpace r.hostKey }
    if r.hostKey ≠ "" ∧ isHostFingerprint r.hostKey = false then .error errHostKey
    else
      match r.jumpServerId with
      | none => .ok r
      | some jumpId => if jumpId ≤ 0 then .error errJumpId else .ok r

def withDefaultProtocol (r : ServerCreateReq) : ServerCreateReq :=
  if r.protocol = "" then { r with protocol := "ssh" } else r

/-- An absent port becomes the default port of the protocol. -/
def withDefaultPort (r : ServerCreateReq) : ServerCreateReq :=
  if r.protocol = "rdp" ∧ r.port = 0 then { r with port := 3389 }
  else if r.port = 0 then { r with port := 22 }
  else r

/-- The part of `validate` after the protocol has been settled. -/
def validatePort (r : ServerCreateReq) : Except String ServerCreateReq :=
  let r := withDefaultPort r
  if r.port < 1 ∨ 65535 < r.port then .error errPort
  else if r.protocol = "rdp" then validateRDP r
  else validateSSH r

/-- `validate` normalises the request in place; the accepted request is returned. -/
def validate (r : ServerCreateReq) : Except String ServerCreateReq :=
  let r := withDefaultProtocol r
  if r.protocol ≠ "ssh" ∧ r.protocol ≠ "rdp" then .error errProtocol
  else validatePort r

/-! ## Responses -/

inductive ResponseBody where
  | error (text : String)
  | message (text : String)
  | server (item : ServerListItem)
  | servers (items : List ServerListItem)
  deriving DecidableEq, Repr

structure Response where
  status : Nat
  body : ResponseBody
  deriving DecidableEq, Repr

def badRequest (text : String) : Response := ⟨400, .error text⟩
def notFound (text : String) : Response := ⟨404, .error text⟩
def internalError (text : String) : Response := ⟨500, .error text⟩

def errInvalidId : String := "invalid id"
def errServerNotFound : String := "server not found"
def errSelfJump : String := "server cannot jump through itself"
def errJumpNotFound : String := "jump server not found"
def errPasswordRequired : String := "password is required for password auth"
def errKeyRequired : String := "private_key or copy_key_from is required"
def errNoSourceKey : String := "source server has no private key"

/-! ## Reading -/

def listServersHandler : DB Response := do
  match ← listServers with
  | .error err => pure (internalError err)
  | .ok servers => pure ⟨200, .servers (servers.map Server.toListItem)⟩

def getServerHandler (param : String) : DB Response :=
  match parseInt param with
  | none => pure (badRequest errInvalidId)
  | some id => do
      match ← getServer id with
      | .error err => pure (internalError err)
      | .ok none => pure (notFound errServerNotFound)
      | .ok (some server) => pure ⟨200, .server server.toListItem⟩

/-! ## Saving -/

section Saving

variable (gcm : GCM) (encKey : String) (rand : Option Nonce)

/-- A submitted credential is encrypted, otherwise the stored one is kept. -/
def encryptOrKeep (submitted stored : String) : Except String String :=
  if submitted ≠ "" then encrypt gcm rand (bytesOf submitted) encKey else .ok stored

def passwordCredentials (req : ServerCreateReq) (privateKey password : String) :
    Except String (String × String) :=
  match encryptOrKeep gcm encKey rand req.password password with
  | .error err => .error err
  | .ok password =>
      if password = "" then .error errPasswordRequired else .ok (privateKey, password)

def keyCredentials (req : ServerCreateReq) (privateKey password : String) :
    Except String (String × String) :=
  match encryptOrKeep gcm encKey rand req.privateKey privateKey with
  | .error err => .error err
  | .ok privateKey =>
      if privateKey = "" then .error errKeyRequired else .ok (privateKey, password)

/-- The private key and the password to store. -/
def resolveCredentials (req : ServerCreateReq) (current : Option Server) :
    DB (Except String (String × String)) :=
  if req.protocol = "rdp" then pure (.ok ("", ""))
  else
    let privateKey := (current.map Server.privateKey).getD ""
    let password := (current.map Server.password).getD ""
    if req.authType = "password" then
      pure (passwordCredentials gcm encKey rand req privateKey password)
    else if req.privateKey = "" ∧ 0 < req.copyKeyFrom then do
      match ← getServer req.copyKeyFrom with
      | .error err => pure (.error err)
      | .ok none => pure (.error errNoSourceKey)
      | .ok (some source) =>
          if source.privateKey = "" then pure (.error errNoSourceKey)
          else pure (keyCredentials gcm encKey rand req source.privateKey password)
    else pure (keyCredentials gcm encKey rand req privateKey password)

/-- The refusal of an unusable `jump_server_id`, if there is one. -/
def checkJump (req : ServerCreateReq) (id : Int) : DB (Option Response) :=
  match req.jumpServerId with
  | none => pure none
  | some jumpId =>
      if jumpId = id then pure (some (badRequest errSelfJump))
      else do
        match ← getServer jumpId with
        | .error _ => pure (some (badRequest errJumpNotFound))
        | .ok none => pure (some (badRequest errJumpNotFound))
        | .ok (some jump) =>
            if jump.protocol = "rdp" then pure (some (badRequest errJumpNotFound))
            else pure none

/-- The record a save writes. -/
def savedServer (req : ServerCreateReq) (id : Int) (credentials : String × String) : Server where
  protocol := req.protocol
  rdpDomain := req.rdpDomain
  rdpCertFingerprint := req.rdpCertFingerprint
  id := id
  name := req.name
  host := req.host
  port := req.port
  username := req.username
  authType := req.authType
  hostKey := req.hostKey
  privateKey := credentials.1
  password := credentials.2
  description := req.description
  group := req.group
  jumpServerId := req.jumpServerId
  createdAt := ""
  updatedAt := ""

def writeServer (update : Bool) (server : Server) : DB Response := do
  match ← (if update then updateServer server else createServer server) with
  | .error err => pure (internalError err)
  | .ok server => pure ⟨if update then 200 else 201, .server server.toListItem⟩

/-- The part of `saveServer` after the current row has been read. -/
def saveOver (update : Bool) (req : ServerCreateReq) (id : Int) (current : Option Server) :
    DB Response := do
  match ← checkJump req id with
  | some refusal => pure refusal
  | none =>
      match ← resolveCredentials gcm encKey rand req current with
      | .error err => pure (badRequest err)
      | .ok credentials => writeServer update (savedServer req id credentials)

/-- `saveServer` on a validated request. -/
def saveValidated (update : Bool) (param : String) (req : ServerCreateReq) : DB Response :=
  if update then
    match parseInt param with
    | none => pure (badRequest errInvalidId)
    | some id =>
        if id ≤ 0 then pure (badRequest errInvalidId)
        else do
          match ← getServer id with
          | .error err => pure (internalError err)
          | .ok none => pure (notFound errServerNotFound)
          | .ok (some current) => saveOver gcm encKey rand update req id (some current)
  else saveOver gcm encKey rand update req 0 none

/-- A bound and validated request. -/
def accepted (body : Body) : Except String ServerCreateReq :=
  match shouldBindJSON body with
  | .error err => .error err
  | .ok req => validate req

def saveServer (update : Bool) (param : String) (body : Body) : DB Response :=
  match accepted body with
  | .error err => pure (badRequest err)
  | .ok req => saveValidated gcm encKey rand update param req

end Saving

def deleteServerHandler (param : String) : DB Response :=
  match parseInt param with
  | none => pure (badRequest errInvalidId)
  | some id =>
      if id ≤ 0 then pure (badRequest errInvalidId)
      else do
        match ← deleteServer id with
        | .error err => pure (internalError err)
        | .ok () => pure ⟨200, .message "deleted"⟩

/-- A request that may change the servers table, with the nonce its save may draw. -/
inductive SaveRequest where
  | create (body : Body) (rand : Option Nonce)
  | update (param : String) (body : Body) (rand : Option Nonce)
  | delete (param : String)

def SaveRequest.handle (gcm : GCM) (encKey : String) : SaveRequest → DB Response
  | .create body rand => saveServer gcm encKey rand false "" body
  | .update param body rand => saveServer gcm encKey rand true param body
  | .delete param => deleteServerHandler param

/-- Clients that each handle one request, with their own encryption keys. -/
def serving {ι : Type} (gcm : GCM) (encKey : ι → String) (requests : ι → SaveRequest)
    (table : ServersTable) : World serversDB ServersTable ι Response where
  store := table
  threads := fun client => (requests client).handle gcm (encKey client)

end OpsUp.Api
