import OpsUp.Models.Server
import OpsUp.Ui.TerminalConnection

/-!
# The remote desktop client

The document in the frame of a tab: it takes the record and the token from the tab, and
each press of its button runs an asynchronous listener with two awaits.  The variables
`connecting` and `connected` keep a second run out.
-/

namespace OpsUp.Ui

open OpsUp.Interaction OpsUp.Models

/-- `opsup-rdp-init` -/
structure RdpInit where
  server : ServerListItem
  active : Bool
  token : String
  deriving DecidableEq

/-- `opsup-rdp-ready` and `opsup-rdp-status` -/
inductive RdpNotice where
  | ready
  | status (value : ConnectionStatus)
  deriving DecidableEq

structure DesktopSize where
  width : Nat
  height : Nat
  deriving DecidableEq

/-- `size`, for the client width and the client height of the desktop. -/
def DesktopSize.ofClient (width height : Nat) : DesktopSize where
  width := max 320 (min 3840 (width / 2 * 2))
  height := max 200 (min 2160 (height / 2 * 2))

structure DesktopSize.Fits (size : DesktopSize) : Prop where
  width : size.width % 2 = 0 ∧ 320 ≤ size.width ∧ size.width ≤ 3840
  height : size.height % 2 = 0 ∧ 200 ≤ size.height ∧ size.height ≤ 2160

theorem DesktopSize.fits_ofClient (width height : Nat) : (ofClient width height).Fits where
  width := by
    change max 320 (min 3840 (width / 2 * 2)) % 2 = 0 ∧ 320 ≤ max 320 _ ∧ max 320 _ ≤ 3840
    omega
  height := by
    change max 200 (min 2160 (height / 2 * 2)) % 2 = 0 ∧ 200 ≤ max 200 _ ∧ max 200 _ ≤ 2160
    omega

structure RdpConfig where
  username : String
  password : String
  serverDomain : String
  destination : String
  proxyAddress : String
  authToken : String
  desktopSize : DesktopSize
  deriving DecidableEq

/-- The calls of the user interaction that the component hands over. -/
inductive RdpCall where
  | connect (config : RdpConfig)
  | resize (size : DesktopSize)
  | setVisibility (visible : Bool)
  | shutdown
  | ctrlAltDel
  | sendClipboardData
  | saveRemoteClipboardData
  deriving DecidableEq

/-- A call that opens nothing. -/
def RdpCall.Plain : RdpCall → Prop
  | connect _ => False
  | resize size => size.Fits
  | _ => True

/-- How far `load` has come; `api` is set with the event of the component. -/
inductive LoadStage where
  | loading
  | ready
  | failed
  deriving DecidableEq

/-- Which promise a run of the listener awaits. -/
inductive Awaiting where
  | connect
  | run
  deriving DecidableEq

structure RdpClient where
  server : Option ServerListItem
  token : String
  active : Bool
  load : LoadStage
  connected : Bool
  connecting : Bool
  /-- the texts of the page, and the fields of its form -/
  name : String
  statusText : String
  username : String
  domain : String
  password : String
  connectDisabled : Bool
  cancelHidden : Bool
  loginHidden : Bool
  toolsHidden : Bool
  /-- the runs of the `submit` listener that have not returned -/
  runs : List Awaiting
  calls : List RdpCall

/-- The texts that the callbacks show. -/
inductive RdpHint where
  | warning
  | fullscreen
  | paste
  | copy
  deriving DecidableEq

def RdpHint.text : RdpHint → String
  | warning => "剪贴板操作不可用，请检查浏览器权限"
  | fullscreen => "浏览器未允许全屏"
  | paste => "无法读取本地剪贴板，请检查权限"
  | copy => "无法写入本地剪贴板，请检查权限"

/-- What happens in the document; `built` says whether the builder of the configuration
returned, an index names a run of the listener. -/
inductive RdpClientAction where
  | loads
  | loadFails
  | types (username domain password : String)
  | submit (built : Bool) (width height : Nat)
  | connects (index width height : Nat)
  | connectFails (index : Nat)
  | runReturns (index : Nat)
  | runFails (index : Nat)
  | disconnect
  | ctrlAltDel
  | paste
  | copy
  | hints (hint : RdpHint)
  | resizeTimer (width height : Nat)

namespace RdpClient

/-- The variables and the elements when the script runs. -/
def opened : RdpClient where
  server := none
  token := ""
  active := true
  load := .loading
  connected := false
  connecting := false
  name := "RDP 远程桌面"
  statusText := "正在加载客户端…"
  username := ""
  domain := ""
  password := ""
  connectDisabled := true
  cancelHidden := true
  loginHidden := false
  toolsHidden := true
  runs := []
  calls := []

/-- `status` -/
def status (text : String) (value : ConnectionStatus) (c : RdpClient) :
    RdpClient × List RdpNotice :=
  ({ c with statusText := text }, [.status value])

def call (call : RdpCall) (c : RdpClient) : RdpClient := { c with calls := c.calls ++ [call] }

/-- A call through `api?.` -/
def callIfReady (call : RdpCall) (c : RdpClient) : RdpClient :=
  if c.load = .ready then c.call call else c

/-- The first message sets the record and the fields, every message the other variables. -/
def take (init : RdpInit) (c : RdpClient) : RdpClient :=
  match c.server with
  | some _ => { c with token := init.token, active := init.active }
  | none =>
      { c with
        server := some init.server
        name := init.server.name ++ " · RDP"
        username := init.server.username
        domain := init.server.rdpDomain
        token := init.token
        active := init.active }

/-- The call of `resize` that the listeners share. -/
def resized (width height : Nat) (c : RdpClient) : RdpClient :=
  if c.connected ∧ c.active then c.callIfReady (.resize (.ofClient width height)) else c

/-- The listener of `message`, for a message that it accepts. -/
def receive (init : RdpInit) (width height : Nat) (c : RdpClient) : RdpClient :=
  (c.take init).resized width height

/-- The host, in brackets when it holds a colon. -/
def bracketed (host : String) : String := if ':' ∈ host.toList then "[" ++ host ++ "]" else host

def destination (server : ServerListItem) : String :=
  bracketed server.host ++ ":" ++ toString server.port

/-- `url.href`; `origin` is that of the sockets. -/
def proxyAddress (origin : String) (server : ServerListItem) : String :=
  origin ++ "/api/rdp/" ++ toString server.id

def config (origin : String) (server : ServerListItem) (width height : Nat) (c : RdpClient) :
    RdpConfig where
  username := c.username
  password := c.password
  serverDomain := c.domain
  destination := destination server
  proxyAddress := proxyAddress origin server
  authToken := c.token
  desktopSize := .ofClient width height

/-- The part of the `submit` listener from its check to its first `await`. -/
def start (origin : String) (server : ServerListItem) (built : Bool) (width height : Nat)
    (c : RdpClient) : RdpClient × List RdpNotice :=
  let (c, notices) :=
    { c with connecting := true, connectDisabled := true, cancelHidden := false }.status
      "正在连接…" .connecting
  if built then
    let config := c.config origin server width height
    ({ c.call (.connect config) with password := "", runs := c.runs ++ [.connect] }, notices)
  else (c, notices)

def submit (origin : String) (built : Bool) (width height : Nat) (c : RdpClient) :
    RdpClient × List RdpNotice :=
  match c.server with
  | none => (c, [])
  | some server =>
      if c.load ≠ .ready ∨ c.connecting ∨ c.connected then (c, [])
      else c.start origin server built width height

/-- The part between the two awaits. -/
def established (index width height : Nat) (c : RdpClient) : RdpClient × List RdpNotice :=
  let c :=
    { c with
      connected := true
      connecting := false
      cancelHidden := true
      loginHidden := true
      toolsHidden := false }
  let (c, notices) := (c.call (.setVisibility true)).status "已连接" .connected
  let c := c.call (.resize (.ofClient width height))
  ({ c with runs := c.runs.set index .run }, notices)

/-- The part after the last `await`, and `finally`. -/
def finish (text : String) (index : Nat) (c : RdpClient) : RdpClient × List RdpNotice :=
  let (c, notices) := c.status text .error
  let c := (c.call .shutdown).call (.setVisibility false)
  ({ c with
      runs := c.runs.eraseIdx index
      connected := false
      connecting := false
      loginHidden := false
      toolsHidden := true
      connectDisabled := false
      cancelHidden := true }, notices)

def textEnded : String := "连接已断开，请重新输入密码"
def textFailed : String := "连接失败：请检查网络、NLA、账号密码及证书指纹"

def step (origin : String) (c : RdpClient) : RdpClientAction → Option (RdpClient × List RdpNotice)
  | .loads =>
      if c.load = .loading then
        some ({ c with load := .ready, connectDisabled := false }.status
          "请输入密码连接" .connecting)
      else none
  | .loadFails =>
      if c.load = .loading then
        some ({ c with load := .failed }.status "客户端加载失败；请使用 HTTPS 并刷新重试" .error)
      else none
  | .types username domain password =>
      some ({ c with username := username, domain := domain, password := password }, [])
  | .submit built width height => some (c.submit origin built width height)
  | .connects index width height =>
      if c.runs[index]? = some .connect then some (c.established index width height) else none
  | .connectFails index =>
      if c.runs[index]? = some .connect then some (c.finish textFailed index) else none
  | .runReturns index =>
      if c.runs[index]? = some .run then some (c.finish textEnded index) else none
  | .runFails index =>
      if c.runs[index]? = some .run then some (c.finish textFailed index) else none
  | .disconnect => some (c.callIfReady .shutdown, [])
  | .ctrlAltDel => some (c.callIfReady .ctrlAltDel, [])
  | .paste => some (if c.active then c.callIfReady .sendClipboardData else c, [])
  | .copy => some (if c.active then c.callIfReady .saveRemoteClipboardData else c, [])
  | .hints hint => some ({ c with statusText := hint.text }, [])
  | .resizeTimer width height => some (c.resized width height, [])

/-- The listener of `pagehide`. -/
def pagehide (c : RdpClient) : RdpClient :=
  { c with password := "", token := "" }.callIfReady .shutdown

/-! ## The calls -/

/-- Every connection that was asked for has been shut down. -/
def Ended (calls : List RdpCall) : Prop :=
  ∀ front config back, calls = front ++ .connect config :: back → .shutdown ∈ back

/-- Before each `connect` the connections so far have been shut down. -/
def Separated (calls : List RdpCall) : Prop :=
  ∀ front config back, calls = front ++ .connect config :: back → Ended front

/-- Where a `connect` is when none has been appended. -/
theorem connect_of_append {calls more front back : List RdpCall} {config : RdpConfig}
    (plain : ∀ call ∈ more, call.Plain)
    (split : calls ++ more = front ++ .connect config :: back) :
    ∃ rest, calls = front ++ .connect config :: rest ∧ back = rest ++ more := by
  rcases List.append_eq_append_iff.mp split with ⟨mid, rfl, hmore⟩ | ⟨mid, rfl, hback⟩
  · exact (plain (.connect config) (hmore ▸ List.mem_append_right mid List.mem_cons_self)).elim
  · cases mid with
    | nil =>
        have hmore : .connect config :: back = more := hback
        exact (plain (.connect config) (hmore ▸ List.mem_cons_self)).elim
    | cons first rest =>
        obtain ⟨rfl, rfl⟩ := List.cons.inj hback
        exact ⟨rest, rfl, rfl⟩

section Calls

variable {calls more : List RdpCall} {config : RdpConfig}

theorem Ended.append (ended : Ended calls) (plain : ∀ call ∈ more, call.Plain) :
    Ended (calls ++ more) := by
  intro front config back hsplit
  obtain ⟨rest, hcalls, rfl⟩ := connect_of_append plain hsplit
  exact List.mem_append_left more (ended front config rest hcalls)

theorem ended_shutdown (plain : ∀ call ∈ more, call.Plain) (down : .shutdown ∈ more) :
    Ended (calls ++ more) := by
  intro front config back hsplit
  obtain ⟨rest, -, rfl⟩ := connect_of_append plain hsplit
  exact List.mem_append_right rest down

theorem Separated.append (separated : Separated calls) (plain : ∀ call ∈ more, call.Plain) :
    Separated (calls ++ more) := by
  intro front config back hsplit
  obtain ⟨rest, hcalls, -⟩ := connect_of_append plain hsplit
  exact separated front config rest hcalls

theorem Separated.connect (separated : Separated calls) (ended : Ended calls) :
    Separated (calls ++ [.connect config]) := by
  intro front other back hsplit
  rcases List.append_eq_append_iff.mp hsplit with ⟨mid, rfl, hlast⟩ | ⟨mid, rfl, hback⟩
  · cases mid with
    | nil => rwa [List.append_nil]
    | cons first rest => cases rest <;> cases hlast
  · cases mid with
    | nil => rwa [List.append_nil] at ended
    | cons first rest =>
        obtain ⟨rfl, -⟩ := List.cons.inj hback
        exact separated front other rest rfl

end Calls

/-! ## What a step can do -/

/-- Only the display changes, and nothing is opened. -/
structure Kept (c next : RdpClient) : Prop where
  server : next.server = c.server
  token : next.token = c.token
  active : next.active = c.active
  load : next.load = c.load
  connecting : next.connecting = c.connecting
  connected : next.connected = c.connected
  runs : next.runs = c.runs
  calls : ∃ more, next.calls = c.calls ++ more ∧ ∀ call ∈ more, call.Plain

inductive Move (origin : String) (c : RdpClient) : RdpClient × List RdpNotice → Prop
  | keeps {next} : Kept c next → Move origin c (next, [])
  | loaded {load text value disabled} : c.load = .loading → load ≠ .loading → value ≠ .connected →
      Move origin c
        ({ c with load := load, connectDisabled := disabled }.status text value)
  | started {server built width height} : c.server = some server → c.load = .ready →
      ¬ (c.connecting = true ∨ c.connected = true) →
      Move origin c (c.start origin server built width height)
  | established {index width height} : c.runs[index]? = some .connect →
      Move origin c (c.established index width height)
  | finished {text index awaiting} : c.runs[index]? = some awaiting →
      Move origin c (c.finish text index)

section Steps

variable {c next : RdpClient} {notices : List RdpNotice} {origin : String}

theorem kept_refl : Kept c c :=
  ⟨rfl, rfl, rfl, rfl, rfl, rfl, rfl, [], (List.append_nil _).symm, fun _ => by simp⟩

theorem kept_callIfReady {call : RdpCall} (plain : call.Plain) : Kept c (c.callIfReady call) := by
  unfold callIfReady
  split
  · refine ⟨rfl, rfl, rfl, rfl, rfl, rfl, rfl, [call], rfl, fun other hmem => ?_⟩
    obtain rfl := List.mem_singleton.mp hmem
    exact plain
  · exact kept_refl

theorem kept_resized {width height : Nat} : Kept c (c.resized width height) := by
  unfold resized
  split
  · exact kept_callIfReady (DesktopSize.fits_ofClient width height)
  · exact kept_refl

theorem kept_of_active {call : RdpCall} (plain : call.Plain) :
    Kept c (if c.active then c.callIfReady call else c) := by
  split
  · exact kept_callIfReady plain
  · exact kept_refl

theorem move_submit {built : Bool} {width height : Nat} :
    Move origin c (c.submit origin built width height) := by
  unfold submit
  split
  · exact .keeps kept_refl
  · rename_i server hserver
    split
    · exact .keeps kept_refl
    · rename_i hfree
      obtain ⟨hready, hidle⟩ := not_or.mp hfree
      exact .started hserver (not_not.mp hready) hidle

/-- The inversion of a step. -/
theorem move_of_step {action : RdpClientAction} {after : RdpClient × List RdpNotice}
    (step : c.step origin action = some after) : Move origin c after := by
  cases action with
  | loads =>
      obtain ⟨hloading, rfl⟩ := Option.ite_some_none_eq_some.mp step
      exact .loaded hloading (fun same => by cases same) (fun same => by cases same)
  | loadFails =>
      obtain ⟨hloading, rfl⟩ := Option.ite_some_none_eq_some.mp step
      exact .loaded hloading (fun same => by cases same) (fun same => by cases same)
  | types username domain password =>
      obtain rfl := Option.some.inj step
      exact .keeps ⟨rfl, rfl, rfl, rfl, rfl, rfl, rfl, kept_refl.calls⟩
  | submit built width height =>
      obtain rfl := Option.some.inj step
      exact move_submit
  | connects index width height =>
      obtain ⟨hawaited, rfl⟩ := Option.ite_some_none_eq_some.mp step
      exact .established hawaited
  | connectFails index =>
      obtain ⟨hawaited, rfl⟩ := Option.ite_some_none_eq_some.mp step
      exact .finished hawaited
  | runReturns index =>
      obtain ⟨hawaited, rfl⟩ := Option.ite_some_none_eq_some.mp step
      exact .finished hawaited
  | runFails index =>
      obtain ⟨hawaited, rfl⟩ := Option.ite_some_none_eq_some.mp step
      exact .finished hawaited
  | disconnect =>
      obtain rfl := Option.some.inj step
      exact .keeps (kept_callIfReady trivial)
  | ctrlAltDel =>
      obtain rfl := Option.some.inj step
      exact .keeps (kept_callIfReady trivial)
  | paste =>
      obtain rfl := Option.some.inj step
      exact .keeps (kept_of_active trivial)
  | copy =>
      obtain rfl := Option.some.inj step
      exact .keeps (kept_of_active trivial)
  | hints hint =>
      obtain rfl := Option.some.inj step
      exact .keeps ⟨rfl, rfl, rfl, rfl, rfl, rfl, rfl, kept_refl.calls⟩
  | resizeTimer width height =>
      obtain rfl := Option.some.inj step
      exact .keeps kept_resized

theorem calls_established (c : RdpClient) (index width height : Nat) :
    (c.established index width height).1.calls =
        c.calls ++ [.setVisibility true, .resize (.ofClient width height)] ∧
      ∀ call ∈ [RdpCall.setVisibility true, .resize (.ofClient width height)], call.Plain := by
  refine ⟨List.append_assoc _ _ _, fun call hmem => ?_⟩
  rcases List.mem_pair.mp hmem with rfl | rfl
  · trivial
  · exact DesktopSize.fits_ofClient width height

theorem calls_finish (c : RdpClient) (text : String) (index : Nat) :
    (c.finish text index).1.calls = c.calls ++ [.shutdown, .setVisibility false] ∧
      ∀ call ∈ [RdpCall.shutdown, .setVisibility false], call.Plain := by
  refine ⟨List.append_assoc _ _ _, fun call hmem => ?_⟩
  rcases List.mem_pair.mp hmem with rfl | rfl <;> trivial

theorem receive_eq {init : RdpInit} {width height : Nat} :
    (c.receive init width height).token = init.token ∧
      (c.receive init width height).active = init.active ∧
      (c.receive init width height).server ≠ none := by
  have hkept : Kept (c.take init) (c.receive init width height) := kept_resized
  rw [hkept.token, hkept.active, hkept.server]
  unfold take
  split
  · rename_i server hserver
    exact ⟨rfl, rfl, by rw [hserver]; exact Option.some_ne_none _⟩
  · exact ⟨rfl, rfl, Option.some_ne_none _⟩

theorem receive_status_eq {init : RdpInit} {width height : Nat} :
    (c.receive init width height).load = c.load ∧
      (c.receive init width height).connecting = c.connecting ∧
      (c.receive init width height).connected = c.connected := by
  have hkept : Kept (c.take init) (c.receive init width height) := kept_resized
  rw [hkept.load, hkept.connecting, hkept.connected]
  unfold take
  split <;> exact ⟨rfl, rfl, rfl⟩

theorem pagehide_status_eq :
    c.pagehide.load = c.load ∧ c.pagehide.connecting = c.connecting ∧
      c.pagehide.connected = c.connected := by
  have hkept : Kept { c with password := "", token := "" } c.pagehide := kept_callIfReady trivial
  exact ⟨hkept.load, hkept.connecting, hkept.connected⟩

theorem Move.init_eq {after : RdpClient × List RdpNotice} (move : Move origin c after) :
    after.1.server = c.server ∧ after.1.token = c.token ∧ after.1.active = c.active := by
  cases move with
  | keeps kept => exact ⟨kept.server, kept.token, kept.active⟩
  | loaded hloading hload hvalue => exact ⟨rfl, rfl, rfl⟩
  | @started server built width height hserver hready hidle =>
      cases built <;> exact ⟨rfl, rfl, rfl⟩
  | established hawaited => exact ⟨rfl, rfl, rfl⟩
  | finished hawaited => exact ⟨rfl, rfl, rfl⟩

end Steps

end RdpClient

end OpsUp.Ui
