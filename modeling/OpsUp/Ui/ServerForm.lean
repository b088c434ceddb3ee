import OpsUp.Interaction.Transition
import OpsUp.Ui.CertFingerprint
import OpsUp.Ui.HostKey

/-!
# The server form

`ServerFormModal` fills its fields when it opens, shows some of them depending on the
protocol and the kind of authentication, and sends what is shown.  A field that was never
set is empty: the decoder of the request makes no difference.
-/

namespace OpsUp.Ui

open OpsUp.Api OpsUp.Interaction OpsUp.Js OpsUp.Models

/-- What the form keeps and sends.  The number in the port field may have a fraction. -/
structure ServerForm where
  protocol : String
  rdpDomain : String
  rdpCertFingerprint : String
  name : String
  hostKey : String
  host : String
  port : Option Rat
  username : String
  authType : String
  privateKey : String
  password : String
  copyKeyFrom : Int
  jumpServerId : Option Int
  group : String
  description : String
  deriving DecidableEq

/-- `form.resetFields` -/
def ServerForm.empty : ServerForm :=
  ⟨"", "", "", "", "", "", none, "", "", "", "", 0, none, "", ""⟩

namespace ServerForm

/-- The request that the server decodes, but for the port. -/
def decoded (form : ServerForm) (port : Int) : ServerCreateReq where
  protocol := form.protocol
  rdpDomain := form.rdpDomain
  rdpCertFingerprint := form.rdpCertFingerprint
  name := form.name
  host := form.host
  port := port
  username := form.username
  authType := form.authType
  hostKey := form.hostKey
  privateKey := form.privateKey
  password := form.password
  copyKeyFrom := form.copyKeyFrom
  jumpServerId := form.jumpServerId
  group := form.group
  description := form.description

/-- `null` is the zero port, and only whole numbers are decoded. -/
def decodedPort (form : ServerForm) : Option Int :=
  match form.port with
  | none => some 0
  | some port => if port.den = 1 then some port.num else none

/-- The error of the decoder is left open. -/
def body (err : String) (form : ServerForm) : Body :=
  match form.decodedPort with
  | none => .error err
  | some port => .ok (form.decoded port)

/-- The port is not a fraction. -/
def Whole (form : ServerForm) : Prop := ∀ port ∈ form.port, port.den = 1

end ServerForm

/-! ## Fields -/

/-- The items of the form with a name and a text. -/
inductive FormField where
  | name
  | host
  | username
  | rdpDomain
  | rdpCertFingerprint
  | hostKey
  | password
  | description
  | group
  deriving DecidableEq

namespace FormField

def all : List FormField :=
  [name, host, username, rdpDomain, rdpCertFingerprint, hostKey, password, description, group]

/-- `form.getFieldValue` -/
def text (form : ServerForm) : FormField → String
  | name => form.name
  | host => form.host
  | username => form.username
  | rdpDomain => form.rdpDomain
  | rdpCertFingerprint => form.rdpCertFingerprint
  | hostKey => form.hostKey
  | password => form.password
  | description => form.description
  | group => form.group

/-- `form.setFieldValue` -/
def set (value : String) (form : ServerForm) : FormField → ServerForm
  | name => { form with name := value }
  | host => { form with host := value }
  | username => { form with username := value }
  | rdpDomain => { form with rdpDomain := value }
  | rdpCertFingerprint => { form with rdpCertFingerprint := value }
  | hostKey => { form with hostKey := value }
  | password => { form with password := value }
  | description => { form with description := value }
  | group => { form with group := value }

/-- `normalize` -/
def normalize (value : String) : FormField → String
  | hostKey => trim value
  | _ => value

def required (message value : String) : Option String := if value = "" then some message else none

/-- A `pattern` rule passes over an empty text. -/
def matching (test : String → Bool) (message value : String) : Option String :=
  if value = "" ∨ test value = true then none else some message

/-- The message of the rule that the text breaks. -/
def rule (value : String) : FormField → Option String
  | name => required "请输入名称" value
  | host => required "请输入主机地址" value
  | username => required "请输入用户名" value
  | rdpCertFingerprint => matching certPatternTest "请输入 64 位十六进制 SHA256 指纹" value
  | hostKey =>
      matching (fun value => hostKeyPattern.test (jsString value))
        "请输入 SHA256: 后跟 43 位 Base64 字符的指纹" value
  | rdpDomain => none
  | password => none
  | description => none
  | group => none

end FormField

/-! ## The state -/

inductive KeySource where
  | new
  | reuse
  deriving DecidableEq

/-- `server` is the prop: the record to edit, if there is one. -/
structure FormModal where
  shown : Bool
  server : Option ServerListItem
  values : ServerForm
  protocol : String
  authType : String
  keySource : KeySource
  existingServers : List ServerListItem
  /-- the list that the effect has asked for has not come yet -/
  listing : Bool
  reuseServerId : Option Int
  jumpServerId : Option Int
  deriving DecidableEq

/-- `text || default` -/
def textOr (text default : String) : String := if text = "" then default else text

/-- `id || null` -/
def idOrNull : Option Int → Option Int
  | none => none
  | some id => if id = 0 then none else some id

namespace FormModal

def initial : FormModal where
  shown := false
  server := none
  values := .empty
  protocol := "ssh"
  authType := "key"
  keySource := .new
  existingServers := []
  listing := false
  reuseServerId := none
  jumpServerId := none

/-- What the effect sets the fields to for a stored record. -/
def prefilled (server : ServerListItem) : ServerForm where
  protocol := textOr server.protocol "ssh"
  rdpDomain := server.rdpDomain
  rdpCertFingerprint := server.rdpCertFingerprint
  name := server.name
  hostKey := server.hostKey
  host := server.host
  port := some (server.port : Rat)
  username := server.username
  authType := textOr server.authType "key"
  privateKey := ""
  password := ""
  copyKeyFrom := 0
  jumpServerId := idOrNull server.jumpServerId
  group := server.group
  description := server.description

/-- The effect of a render that is open. -/
def opened (s : FormModal) : Option ServerListItem → FormModal
  | some server =>
      { s with
        shown := true
        listing := true
        server := some server
        protocol := textOr server.protocol "ssh"
        values := prefilled server
        authType := textOr server.authType "key"
        keySource := .new
        reuseServerId := none
        jumpServerId := idOrNull server.jumpServerId }
  | none =>
      { s with
        shown := true
        listing := true
        server := none
        protocol := "ssh"
        values := { ServerForm.empty with port := some 22, authType := "key", hostKey := "" }
        authType := "key"
        keySource := if s.existingServers = [] then .new else .reuse
        reuseServerId := none
        jumpServerId := none }

def reuseOptions (s : FormModal) : List ServerListItem :=
  s.existingServers.filter fun other =>
    other.protocol ≠ "rdp" ∧ s.server.map ServerListItem.id ≠ some other.id

/-- The items that are rendered. -/
def mounts (s : FormModal) : FormField → Bool
  | .rdpDomain | .rdpCertFingerprint => s.protocol = "rdp"
  | .hostKey => s.protocol ≠ "rdp"
  | .password => s.protocol ≠ "rdp" ∧ s.authType = "password"
  | .name | .host | .username | .description | .group => true

/-- The text area for a new key is rendered. -/
def mountsKey (s : FormModal) : Bool :=
  s.protocol ≠ "rdp" ∧ s.authType ≠ "password" ∧ s.keySource = .new

/-! ## Submitting -/

def messages (s : FormModal) : List String :=
  FormField.all.filterMap fun field =>
    if s.mounts field then field.rule (field.text s.values) else none

/-- The text of a rendered item. -/
def kept (s : FormModal) (field : FormField) : String :=
  if s.mounts field then field.text s.values else ""

/-- The values of the items that are rendered; the key is no item. -/
def registered (s : FormModal) : ServerForm :=
  { ServerForm.empty with
    name := s.kept .name
    host := s.kept .host
    port := s.values.port
    username := s.kept .username
    rdpDomain := s.kept .rdpDomain
    rdpCertFingerprint := s.kept .rdpCertFingerprint
    hostKey := s.kept .hostKey
    password := s.kept .password
    description := s.kept .description
    group := s.kept .group }

/-- `form.validateFields` -/
def validateFields (s : FormModal) : Except (List String) ServerForm :=
  if s.messages = [] then .ok s.registered else .error s.messages

/-- What pressing the button leads to: messages beside the fields, a message on top, or a
request that creates a record or updates the one with this id. -/
inductive Submission where
  | invalid (messages : List String)
  | refused (message : String)
  | sent (server : Option Int) (form : ServerForm)
  deriving DecidableEq

def errNoPassword : String := "请输入密码"
def errNoKey : String := "请输入SSH私钥或选择复用已有密钥"

/-- The call of `createServer` or `updateServer`. -/
def send (s : FormModal) (values : ServerForm) : Submission :=
  .sent (s.server.map ServerListItem.id)
    { values with jumpServerId := if s.protocol = "rdp" then none else s.jumpServerId }

/-- `reuseServerId`, when the key of another record is to be used. -/
def reused (s : FormModal) : Option Int :=
  if s.keySource = .reuse then idOrNull s.reuseServerId else none

/-- The branch of `handleSubmit` for a key. -/
def submitKey (s : FormModal) (values : ServerForm) : Submission :=
  let values := { values with password := "" }
  match s.reused with
  | some id => s.send { values with privateKey := "", copyKeyFrom := id }
  | none =>
      let values := { values with copyKeyFrom := 0, privateKey := s.values.privateKey }
      if s.server = none ∧ values.privateKey = "" then .refused errNoKey else s.send values

def handleSubmit (s : FormModal) : Submission :=
  match s.validateFields with
  | .error messages => .invalid messages
  | .ok values =>
      let values :=
        { values with authType := s.authType, hostKey := trim values.hostKey, protocol := s.protocol }
      if s.protocol = "rdp" then
        s.send { values with
          authType := "password", password := "", privateKey := "", copyKeyFrom := 0,
          hostKey := "" }
      else if s.authType = "password" then
        let values := { values with privateKey := "", copyKeyFrom := 0 }
        if s.server = none ∧ values.password = "" then .refused errNoPassword else s.send values
      else s.submitKey values

/-! ## Events -/

/-- The reading of a chosen key file may end at any time. -/
inductive FormEvent where
  | opens (server : Option ServerListItem)
  | closes
  | listed (servers : List ServerListItem)
  | types (field : FormField) (text : String)
  | typesKey (text : String)
  | importsKey (text : String)
  | setsPort (value : Option Rat)
  | choosesProtocol (value : String)
  | choosesAuthType (value : String)
  | choosesKeySource (value : KeySource)
  | choosesReused (id : Int)
  | choosesJump (id : Option Int)

def setPrivateKey (text : String) (s : FormModal) : FormModal :=
  { s with values := { s.values with privateKey := text } }

/-- The number field reports numbers between its bounds only. -/
def InBounds (value : Option Rat) : Prop := ∀ port ∈ value, 1 ≤ port ∧ port ≤ 65535

instance (value : Option Rat) : Decidable (InBounds value) := by
  unfold InBounds
  infer_instance

def step (s : FormModal) : FormEvent → Option FormModal
  | .opens server => some (s.opened server)
  | .closes => some { s with shown := false, listing := false }
  | .listed servers =>
      if s.listing then some { s with listing := false, existingServers := servers } else none
  | .types field text =>
      if s.mounts field then some { s with values := field.set (field.normalize text) s.values }
      else none
  | .typesKey text => if s.mountsKey then some (s.setPrivateKey text) else none
  | .importsKey text => some { s.setPrivateKey (trim text) with keySource := .new }
  | .setsPort value =>
      if InBounds value then some { s with values := { s.values with port := value } } else none
  | .choosesProtocol value =>
      if value = "ssh" ∨ value = "rdp" then
        some { s with
          protocol := value
          values := { s.values with port := some (if value = "rdp" then 3389 else 22) } }
      else none
  | .choosesAuthType value =>
      if s.protocol ≠ "rdp" ∧ (value = "key" ∨ value = "password") then
        some { s with authType := value }
      else none
  | .choosesKeySource value =>
      if s.protocol ≠ "rdp" ∧ s.authType ≠ "password" then some { s with keySource := value }
      else none
  | .choosesReused id =>
      if s.protocol ≠ "rdp" ∧ s.authType ≠ "password" ∧ s.keySource = .reuse ∧
          id ∈ s.reuseOptions.map ServerListItem.id then
        some { s with reuseServerId := some id }
      else none
  | .choosesJump id =>
      if s.protocol ≠ "rdp" ∧ ∀ jumpId ∈ id, jumpId ∈ s.reuseOptions.map ServerListItem.id then
        some { s with jumpServerId := id }
      else none

end FormModal

end OpsUp.Ui
