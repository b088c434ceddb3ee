import OpsUp.Api.Connection
import OpsUp.Api.SftpHandler
import OpsUp.Interaction.Embedding
import OpsUp.SshClient.TransportOwnership

/-!
# Handlers that reach a server

The file handlers, the connection test and the terminal each load a record, connect to it,
ask something of the server and close what they hold, whatever goes wrong on the way.
-/

namespace OpsUp.Api

open OpsUp.Crypto OpsUp.Database OpsUp.Go OpsUp.Interaction OpsUp.Models OpsUp.Posix
open OpsUp.SftpClient OpsUp.SshClient

/-! ## Requests -/

/-- What is asked of an SFTP client, apart from an upload. -/
inductive FileCommand where
  | readDir (path : String)
  | stat (path : String)
  /-- `client.Open` -/
  | openFile (path : String)
  /-- `remoteFile.Stat`, up to the size -/
  | fileStat
  | closeFile
  | mkdirAll (path : String)
  | remove (path : String)
  | removeDirectory (path : String)

@[reducible]
def FileCommand.Reply : FileCommand → Type
  | .readDir _ => Except String (List (Name × Entry × FileAttributes))
  | .stat _ => Except String Entry
  | .openFile _ => Except String Unit
  | .fileStat => Except String Int
  | .closeFile => Unit
  | .mkdirAll _ => Except String Unit
  | .remove _ => Except String Unit
  | .removeDirectory _ => Except String Unit

abbrev fileRequests : Interface where
  Command := FileCommand
  Reply := FileCommand.Reply

/-- What a handler does at the browser's side while it holds a connection. -/
inductive BrowserCommand where
  /-- `c.DataFromReader` -/
  | sendFile (size : Int)
  /-- an error frame -/
  | report (text : String)
  /-- the first frame of a session -/
  | greet (host : String)
  /-- `<-ctx.Done()` -/
  | done

@[reducible]
def BrowserCommand.Reply : BrowserCommand → Type
  | .sendFile _ => Unit
  | .report _ => Unit
  | .greet _ => Except String Unit
  | .done => Unit

abbrev browser : Interface where
  Command := BrowserCommand
  Reply := BrowserCommand.Reply

/-- Requests that open and close nothing of the network. -/
abbrev requests : Interface := (fileRequests.sum sftp).sum browser

abbrev Requests := Program requests

/-- All that these handlers use. -/
abbrev reaching (ssh : SSH) : Interface := (dialing ssh).sum (sessions.sum requests)

abbrev Reaching (ssh : SSH) := Program (reaching ssh)

/-- Established clients are used beside the database. -/
def owningPart (ssh : SSH) : (owning ssh).Embedding (reaching ssh) where
  command
    | .inl command => .inl (.inr command)
    | .inr command => .inr (.inl command)
  reply
    | .inl _ => id
    | .inr _ => id

def requestsPart (ssh : SSH) : requests.Embedding (reaching ssh) where
  command := fun command => .inr (.inr command)
  reply := fun _ => id

def filesPart : fileRequests.Embedding requests where
  command := fun command => .inl (.inl command)
  reply := fun _ => id

def uploadPart : sftp.Embedding requests where
  command := fun command => .inl (.inr command)
  reply := fun _ => id

/-- What a handler answers with a client at hand. -/
inductive FileAnswer where
  | json (response : SftpResponse)
  /-- an attachment of this name and length -/
  | file (name : String) (size : Int)
  deriving DecidableEq

inductive Answer where
  | served (answer : FileAnswer)
  /-- the result of a connection test -/
  | tested (success : Bool) (err : Option String)
  /-- the socket of a session has been closed -/
  | hungUp
  /-- a nil client is used -/
  | crashed
  deriving DecidableEq

def Answer.json (status : Nat) (body : SftpBody) : Answer := .served (.json ⟨status, body⟩)

section Handlers

variable (ssh : SSH) (gcm : GCM) (encKey : String)

/-! ## Connecting -/

def connectSFTP (param : String) : Reaching ssh Handed :=
  match parseInt param with
  | none => .ret (none, some "invalid server id")
  | some id =>
      if id ≤ 0 then .ret (none, some "invalid server id")
      else do
        match ← (loadConnectionServer id).inl.inl with
        | .error err => .ret (none, some ("load server: " ++ err))
        | .ok none => .ret (none, some "server not found")
        | .ok (some server) =>
            match ← (dialServer ssh gcm (some server) encKey).inl with
            | (_, some err) => .ret (none, some err)
            | (none, none) => .ret (none, none)
            | (some owner, none) => (newClient ssh owner).translate (owningPart ssh)

/-- The connection is closed when the body has answered. -/
def withSFTP (param : String) (serve : Requests FileAnswer) : Reaching ssh Answer := do
  match ← connectSFTP ssh gcm encKey param with
  | (_, some err) => .ret (.json 500 (.error err))
  | (none, none) => .ret .crashed
  | (some handle, none) =>
      let answer ← serve.translate (requestsPart ssh)
      .call (.inr (.inl (.closeHandle handle.client))) fun _ => .ret (.served answer)

/-! ## The file handlers -/

def listBody (query : String) : Program fileRequests FileAnswer :=
  let dirPath := directoryOr query
  .call (.readDir dirPath) fun
    | .error err => .ret (.json ⟨500, .error err⟩)
    | .ok entries => .ret (.json ⟨200, .files (entries.map (fileInfo dirPath))⟩)

def handleList (param query : String) : Reaching ssh Answer :=
  withSFTP ssh gcm encKey param ((listBody query).translate filesPart)

/-- What is refused before the server is asked. -/
def uploadRefusal : UploadForm → Option SftpResponse
  | .invalid tooLarge => some ⟨if tooLarge then 413 else 400, .error errUploadBody⟩
  | .parsed _ none => some ⟨400, .error errNoFile⟩
  | .parsed _ (some (filename, _)) =>
      match uploadName filename with
      | none => some ⟨400, .error errInvalidFilename⟩
      | some _ => none

def handleUpload (param : String) (form : UploadForm) (rand : Option UploadNonce)
    (posixRename : Bool) : Reaching ssh Answer :=
  match uploadRefusal form with
  | some refusal => .ret (.served (.json refusal))
  | none => withSFTP ssh gcm encKey param
      ((FileAnswer.json <$> sftpUpload form (.ok ()) rand posixRename).translate uploadPart)

/-- The file is closed before the client is. -/
def downloadBody (filePath : String) : Requests FileAnswer :=
  .call (.inl (.inl (.openFile filePath))) fun
    | .error err => .ret (.json ⟨500, .error ("open file: " ++ err)⟩)
    | .ok () => .call (.inl (.inl .fileStat)) fun
        | .error err => .call (.inl (.inl .closeFile)) fun _ => .ret (.json ⟨500, .error err⟩)
        | .ok size => .call (.inr (.sendFile size)) fun _ =>
            .call (.inl (.inl .closeFile)) fun _ => .ret (.file (basePath filePath) size)

def handleDownload (param filePath : String) : Reaching ssh Answer :=
  if filePath = "" then .ret (.json 400 (.error errPathRequired))
  else withSFTP ssh gcm encKey param (downloadBody filePath)

def mkdirBody (path : String) : Program fileRequests FileAnswer :=
  .call (.mkdirAll path) fun
    | .error err => .ret (.json ⟨500, .error err⟩)
    | .ok () => .ret (.json ⟨200, .message "created"⟩)

/-- The body is the path it names, or why it does not bind. -/
def handleMkdir (param : String) : Except String String → Reaching ssh Answer
  | .error err => .ret (.json 400 (.error err))
  | .ok path => withSFTP ssh gcm encKey param ((mkdirBody path).translate filesPart)

def deleteBody (filePath : String) : Program fileRequests FileAnswer :=
  .call (.stat filePath) fun
    | .error err => .ret (.json ⟨500, .error err⟩)
    | .ok entry =>
        let respond : Except String Unit → Program fileRequests FileAnswer
          | .error err => .ret (.json ⟨500, .error err⟩)
          | .ok () => .ret (.json ⟨200, .message "deleted"⟩)
        if entry = .directory then .call (.removeDirectory filePath) respond
        else .call (.remove filePath) respond

def handleDelete (param filePath : String) : Reaching ssh Answer :=
  if filePath = "" then .ret (.json 400 (.error errPathRequired))
  else withSFTP ssh gcm encKey param ((deleteBody filePath).translate filesPart)

/-! ## The connection test -/

/-- The digits up to the first that is none, or that leaves the range of a `uint64`. -/
def clampDigits : Nat → List Char → Option Nat
  | value, [] => some value
  | value, c :: rest =>
      match decimalDigit c with
      | none => none
      | some digit =>
          if 10 * value + digit < 2 * int64Cutoff then clampDigits (10 * value + digit) rest
          else some (2 * int64Cutoff - 1)

def clampUint : List Char → Option Nat
  | [] => none
  | digits => clampDigits 0 digits

/-- The value of `strconv.ParseInt` when its error is ignored. -/
def parseIntValue (text : String) : Int :=
  match text.toList with
  | '-' :: digits => -(min ((clampUint digits).getD 0) int64Cutoff : Nat)
  | '+' :: digits => (min ((clampUint digits).getD 0) (int64Cutoff - 1) : Nat)
  | digits => (min ((clampUint digits).getD 0) (int64Cutoff - 1) : Nat)

def testConnection (param : String) : Dialing ssh Answer := do
  match ← (getServer (parseIntValue param)).inl with
  | .error _ => .ret (.json 404 (.error "server not found"))
  | .ok none => .ret (.json 404 (.error "server not found"))
  | .ok (some server) =>
      if server.protocol = "rdp" then
        .ret (.json 400 (.error "Open the RDP tab to test authentication"))
      else
        match ← dialServer ssh gcm (some server) encKey with
        | (_, some err) => .ret (.tested false (some err))
        | (none, none) => .ret .crashed
        | (some client, none) => .call (.inr (.close client)) fun _ => .ret (.tested true none)

/-! ## The terminal -/

/-- The deferred calls of `runTerminal` once there is a client. -/
def closeClient (client : Client) : Reaching ssh Answer :=
  .call (.inl (.inr (.close client))) fun _ => .ret .hungUp

/-- `runTerminal` on the goroutine that dials. -/
def runTerminal (server : Server) : Reaching ssh Answer := do
  match ← (dialServer ssh gcm (some server) encKey).inl with
  | (_, some err) =>
      .call (.inr (.inr (.inr (.report ("SSH connection failed: " ++ err))))) fun _ => .ret .hungUp
  | (none, none) => .ret .crashed
  | (some client, none) =>
      match ← (newSession ssh client 80 24).translate (owningPart ssh) with
      | (_, some err) =>
          .call (.inr (.inr (.inr (.report ("SSH session failed: " ++ err))))) fun _ =>
            closeClient ssh client
      | (none, none) => .ret .crashed
      | (some session, none) =>
          .call (.inr (.inr (.inr (.greet server.host)))) fun
            | .error _ =>
                .call (.inr (.inl (.closeHandle session.client))) fun _ => closeClient ssh client
            | .ok () =>
                .call (.inr (.inr (.inr .done))) fun _ =>
                  .call (.inl (.inr (.close client))) fun _ =>
                    .call (.inr (.inl (.closeHandle session.client))) fun _ =>
                      closeClient ssh client

end Handlers

end OpsUp.Api
