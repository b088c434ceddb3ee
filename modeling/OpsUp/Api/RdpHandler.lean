import OpsUp.Api.Connection
import OpsUp.Api.RdpPins
import OpsUp.Api.RdpRequest
import OpsUp.Api.TerminalHandler
import OpsUp.Auth.Token

/-!
# The RDP gateway

`RDPHandler` takes one frame of the browser, connects to the stored server and negotiates
TLS with it; only then does the relay start.  Every exit before that is a return, with the
deferred closes behind it.  The context is not modelled: all that it does is to close the
sockets, and any call may fail at any time.
-/

namespace OpsUp.Api

open OpsUp.Auth OpsUp.Database OpsUp.Go OpsUp.Interaction OpsUp.Models

/-- `rdpResponse` -/
structure RdpResponse where
  version : Nat
  x224 : Bytes
  certificates : List Bytes
  address : String
  deriving DecidableEq

/-- What the handler is given, and the packages that it calls. -/
structure RdpConfig where
  jwtSecret : String
  asn1 : Asn1
  marshalResponse : RdpResponse → Option Bytes
  parseWithClaims : ParseWithClaims
  sha256 : Bytes → Bytes

/-! ## Calls -/

inductive RdpCall where
  /-- `AbortWithStatus` -/
  | abort (status : Nat)
  | upgrade
  | setReadLimit (limit : Nat)
  /-- in seconds -/
  | setReadDeadline (seconds : Nat)
  | readMessage
  /-- a close frame for a policy violation -/
  | closeMessage (reason : String)
  /-- `time.Now` -/
  | now
  | dial (address : String)
  /-- of the connection to the target; `none` is no deadline -/
  | setDeadline (seconds : Option Nat)
  /-- `raw.Write`; the reply counts the bytes that were sent -/
  | rawWrite (data : Bytes)
  /-- `io.ReadFull(raw, …)`; a failure may come after some bytes -/
  | readFull (n : Nat)
  /-- `HandshakeContext`; the reply is the chain of the peer -/
  | handshake (cfg : TLSConfig)
  | remoteAddr
  /-- `writer.write(BinaryMessage, …)` -/
  | write (frame : Bytes)
  | closeConn
  | closeRaw
  | closeSocket

@[reducible]
def RdpCall.Reply : RdpCall → Type
  | .abort _ => Unit
  | .upgrade => Except String Unit
  | .setReadLimit _ => Unit
  | .setReadDeadline _ => Unit
  | .readMessage => Except String (MessageKind × Bytes)
  | .closeMessage _ => Unit
  | .now => Auth.Time
  | .dial _ => Except String Unit
  | .setDeadline _ => Unit
  | .rawWrite _ => Nat × Option String
  | .readFull n => Except (Bytes × String) (Vector UInt8 n)
  | .handshake _ => Except String (List Bytes)
  | .remoteAddr => String
  | .write _ => Except String Unit
  | .closeConn => Unit
  | .closeRaw => Unit
  | .closeSocket => Unit

abbrev rdpCalls : Interface where
  Command := RdpCall
  Reply := RdpCall.Reply

/--
The browser and the target do as they like.  A handshake succeeds only with a chain that
the configuration accepts, where `trusted` is the verification of a chain for a host.
-/
def rdpPeers (trusted : String → List Bytes → Bool) : Service rdpCalls Unit
  | _, .rawWrite data, (sent, failure), _ =>
      sent ≤ data.length ∧ (failure = none → sent = data.length)
  | _, .readFull n, reply, _ => ∀ part err, reply = .error (part, err) → part.length < n
  | _, .handshake cfg, reply, _ => ∀ chain, reply = .ok chain → cfg.accepts trusted chain = true
  | _, _, _, _ => True

/-- The database beside the browser and the target. -/
abbrev gatewayCalls : Interface := serversDB.sum rdpCalls

abbrev Gateway := Program gatewayCalls

/-! ## Negotiation -/

/-- `io.Copy(raw, bytes.NewReader(data))`: one `Write`, and none without data. -/
def copyToRaw (data : Bytes) : Gateway (Except String Unit) :=
  if data = [] then .ret (.ok ())
  else
    .call (.inr (.rawWrite data)) fun
      | (_, some err) => .ret (.error err)
      | (sent, none) =>
          if sent ≠ data.length then .ret (.error "short write") else .ret (.ok ())

def invalidHeader (header : Vector UInt8 4) : Prop :=
  header[0] ≠ 3 ∨ header[1] ≠ 0 ∨ bigEndianUint16 (header.toList.drop 2) ≠ some 19

instance (header : Vector UInt8 4) : Decidable (invalidHeader header) := by
  unfold invalidHeader
  infer_instance

theorem toList_vector_four (v : Vector UInt8 4) : v.toList = [v[0], v[1], v[2], v[3]] := by
  refine List.ext_getElem Vector.length_toList fun i h₁ h₂ => ?_
  rw [Vector.getElem_toList]
  rcases i with _ | _ | _ | _ | i
  · rfl
  · rfl
  · rfl
  · rfl
  · change i + 4 < 4 at h₂
    omega

/-- The condition of "server must support TLS with NLA". -/
def invalidConfirm (response : Vector UInt8 19) : Prop :=
  let selected := littleEndianUint32 (response.toList.drop 15)
  response[4] ≠ 14 ∨ response[5] ≠ 0xd0 ∨ response[11] ≠ 2 ∨
    littleEndianUint16 (response.toList.drop 13) ≠ some 8 ∨
    (selected ≠ some 2 ∧ selected ≠ some 8)

instance (response : Vector UInt8 19) : Decidable (invalidConfirm response) := by
  unfold invalidConfirm
  infer_instance

/-- The chain of the peer and the response, once TLS is up. -/
def negotiateRDP (request : Bytes) (cfg : TLSConfig) :
    Gateway (Except String (List Bytes × Bytes)) :=
  .call (.inr (.setDeadline (some 15))) fun _ => do
    match ← copyToRaw request with
    | .error err => pure (.error err)
    | .ok () =>
        .call (.inr (.readFull 4)) fun
          | .error (_, err) => .ret (.error err)
          | .ok header =>
              if invalidHeader header then .ret (.error "invalid RDP negotiation response")
              else
                .call (.inr (.readFull 15)) fun
                  | .error (_, err) => .ret (.error err)
                  | .ok rest =>
                      if invalidConfirm (header ++ rest) then
                        .ret (.error "server must support TLS with NLA")
                      else
                        .call (.inr (.handshake cfg)) fun
                          | .error err =>
                              .ret (.error ("RDP TLS certificate or handshake failed: " ++ err))
                          | .ok chain =>
                              .call (.inr (.setDeadline none)) fun _ =>
                                .ret (.ok (chain, (header ++ rest).toList))

/-! ## The handler -/

section Handler

variable (cfg : RdpConfig)

/-- The result is whether the relay starts. -/
def fail (reason : String) : Gateway Bool :=
  .call (.inr (.closeMessage reason)) fun _ => .ret false

/-- A deferred close, which comes now unless the relay starts. -/
def unlessRelaying (close : RdpCall) (relaying : Bool) : Gateway Bool :=
  if relaying then .ret true else .call (.inr close) fun _ => .ret false

/-- The answer to the browser; an error of `SplitHostPort` leaves the address empty. -/
def answerBrowser (chain : List Bytes) (x224 : Bytes) : Gateway Bool :=
  .call (.inr .remoteAddr) fun remote =>
    let host := ((splitHostPort remote).map Prod.fst).getD ""
    match cfg.marshalResponse ⟨3390, x224, chain, host⟩ with
    | none => .ret false
    | some response =>
        .call (.inr (.write response)) fun
          | .error _ => .ret false
          | .ok () => .ret true

def serveTarget (request : Bytes) (tlsCfg : TLSConfig) : Gateway Bool := do
  match ← negotiateRDP request tlsCfg with
  | .error _ => fail "RDP negotiation or certificate verification failed"
  | .ok (chain, x224) => answerBrowser cfg chain x224 >>= unlessRelaying .closeConn

/-- The client-supplied destination is not among the arguments. -/
def serveRecord (request : Bytes) : Except String (Option Server) → Gateway Bool
  | .error _ => fail "RDP server unavailable"
  | .ok none => fail "RDP server unavailable"
  | .ok (some server) =>
      if server.protocol ≠ "rdp" ∨ server.jumpServerId ≠ none then fail "RDP server unavailable"
      else
        match rdpTLSConfig cfg.sha256 server with
        | .error _ => fail "Invalid RDP certificate configuration"
        | .ok tlsCfg =>
            .call (.inr (.dial (address server))) fun
              | .error _ => fail "RDP server unreachable"
              | .ok () => serveTarget cfg request tlsCfg >>= unlessRelaying .closeRaw

def serveRequest (id : Int) (request : RdpRequest) : Gateway Bool :=
  .call (.inr .now) fun now =>
    match validateToken cfg.parseWithClaims request.proxyAuth cfg.jwtSecret now with
    | .error _ => fail "Authentication required"
    | .ok _ => (getServer id).inl >>= serveRecord cfg request.x224

/-- A panic would end the handler with the deferred close. -/
def serveFrame (id : Int) : Except String (MessageKind × Bytes) → Gateway Bool
  | .error _ => fail "Expected RDCleanPath binary handshake"
  | .ok (kind, data) =>
      if kind ≠ .binary then fail "Expected RDCleanPath binary handshake"
      else
        match parseRDPRequest cfg.asn1 data with
        | .panics => .ret false
        | .refused _ => fail "Invalid RDCleanPath handshake"
        | .accepted request => serveRequest cfg id request

def serveSocket (id : Int) : Gateway Bool :=
  .call (.inr (.setReadLimit (64 * 1024))) fun _ =>
    .call (.inr (.setReadDeadline 10)) fun _ =>
      .call (.inr .readMessage) (serveFrame cfg id)

/-- `RDPHandler` up to the relay. -/
def rdpHandler (param : String) : Gateway Bool :=
  match parseInt param with
  | none => .call (.inr (.abort 400)) fun _ => .ret false
  | some id =>
      if id ≤ 0 then .call (.inr (.abort 400)) fun _ => .ret false
      else
        .call (.inr .upgrade) fun
          | .error _ => .ret false
          | .ok () => serveSocket cfg id >>= unlessRelaying .closeSocket

end Handler

end OpsUp.Api
