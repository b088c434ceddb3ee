import OpsUp.Go.Hex
import OpsUp.Go.Path
import OpsUp.Interaction.RelyGuarantee

/-!
# Uploads

`Upload` fills a temporary file beside the destination and renames it over the
destination when it is complete.  Every request may fail; a failed one has no
effect, except that a failed write may have stored a part of its data.
-/

namespace OpsUp.SftpClient

open OpsUp.Go OpsUp.Interaction

/-! ## The server -/

structure Owner where
  uid : Nat
  gid : Nat
  deriving DecidableEq, Repr

structure File where
  content : Bytes
  perm : Nat
  owner : Owner
  deriving DecidableEq

/-- A regular file, or an entry of another kind, such as a directory or a link. -/
inductive Node where
  | regular (file : File)
  | other (perm : Nat) (owner : Owner)
  deriving DecidableEq

/-- The entries of the remote file tree. -/
abbrev Tree (κ : Type) := κ → Option Node

/-- What `Lstat` tells of an entry. -/
structure FileInfo where
  regular : Bool
  perm : Nat
  sys : Option Owner
  deriving DecidableEq

def Node.info : Node → FileInfo
  | .regular file => ⟨true, file.perm, some file.owner⟩
  | .other perm owner => ⟨false, perm, some owner⟩

/-- A failed request; `notExist` is what `os.IsNotExist` answers. -/
structure StatusError where
  notExist : Bool
  text : String
  deriving DecidableEq

/-- The requests of an upload.  An open file is named by the path it was opened at. -/
inductive SftpCommand where
  | lstat (path : String)
  /-- `OpenFile(path, O_WRONLY|O_CREATE|O_EXCL)` -/
  | openFile (path : String)
  | chmod (file : String) (mode : Nat)
  | write (file : String) (data : Bytes)
  | chown (file : String) (owner : Owner)
  | close (file : String)
  | remove (path : String)
  | posixRename (source target : String)
  | rename (source target : String)

@[reducible]
def SftpCommand.Reply : SftpCommand → Type
  | .lstat _ => Except StatusError FileInfo
  | .openFile _ => Except StatusError Unit
  | .chmod _ _ => Except StatusError Unit
  | .write _ _ => Except StatusError Unit
  | .chown _ _ => Except StatusError Unit
  | .close _ => Except StatusError Unit
  | .remove _ => Except StatusError Unit
  | .posixRename _ _ => Except StatusError Unit
  | .rename _ _ => Except StatusError Unit

abbrev sftp : Interface where
  Command := SftpCommand
  Reply := SftpCommand.Reply

abbrev Sftp := Program sftp

section Server

variable {κ : Type} [DecidableEq κ]

/-- A request on an open regular file that changes it, or fails. -/
def Changes (change : File → File) (k : κ) (tree : Tree κ) (reply : Except StatusError Unit)
    (after : Tree κ) : Prop :=
  (∃ file, tree k = some (.regular file) ∧ reply = .ok () ∧
    after = Function.update tree k (some (.regular (change file)))) ∨
  ((∃ err, reply = .error err) ∧ after = tree)

/-- A move of an entry, or a failure. -/
def Moves (k target : κ) (tree : Tree κ) (reply : Except StatusError Unit)
    (after : Tree κ) : Prop :=
  (∃ node, tree k = some node ∧ reply = .ok () ∧
    after = Function.update (Function.update tree k none) target (some node)) ∨
  ((∃ err, reply = .error err) ∧ after = tree)

/--
The server, with the entry that each path resolves to.  A new file has any mode and
owner; `rename` refuses an existing target, `posixRename` replaces it.
-/
def sftpServer (resolve : String → κ) : Service sftp (Tree κ)
  | tree, .lstat path, reply, after => after = tree ∧
      ((∃ node, tree (resolve path) = some node ∧ reply = .ok node.info) ∨
        ∃ err, reply = .error err)
  | tree, .openFile path, reply, after =>
      (tree (resolve path) = none ∧ reply = .ok () ∧ ∃ perm owner,
        after = Function.update tree (resolve path) (some (.regular ⟨[], perm, owner⟩))) ∨
      ((∃ err, reply = .error err) ∧ after = tree)
  | tree, .chmod file mode, reply, after =>
      Changes (fun stored => { stored with perm := mode }) (resolve file) tree reply after
  | tree, .write file data, reply, after =>
      Changes (fun stored => { stored with content := stored.content ++ data }) (resolve file)
        tree reply after ∨
      ((∃ err, reply = .error err) ∧ ∃ part stored, part <+: data ∧
        tree (resolve file) = some (.regular stored) ∧ after = Function.update tree (resolve file)
          (some (.regular { stored with content := stored.content ++ part })))
  | tree, .chown file owner, reply, after =>
      Changes (fun stored => { stored with owner := owner }) (resolve file) tree reply after
  | tree, .close _, _, after => after = tree
  | tree, .remove path, reply, after =>
      (tree (resolve path) ≠ none ∧ reply = .ok () ∧
        after = Function.update tree (resolve path) none) ∨
      ((∃ err, reply = .error err) ∧ after = tree)
  | tree, .posixRename source target, reply, after =>
      Moves (resolve source) (resolve target) tree reply after
  | tree, .rename source target, reply, after =>
      (tree (resolve target) = none ∧ Moves (resolve source) (resolve target) tree reply after) ∨
      ((∃ err, reply = .error err) ∧ after = tree)

end Server

/-! ## The program -/

/-- The data of each write, and the error that ends the source early. -/
structure Source where
  chunks : List Bytes
  failure : Option String

def Source.content (source : Source) : Bytes := source.chunks.flatten

/-- 16 random bytes. -/
abbrev UploadNonce := { bytes : Bytes // bytes.length = 16 }

/-- One call of `Upload`: `rand` is what the random reader delivers, and
`posixRename` whether the server has the extension. -/
structure UploadCall where
  remotePath : String
  source : Source
  rand : Option UploadNonce
  posixRename : Bool

def tempPath (remotePath : String) (nonce : UploadNonce) : String :=
  joinPath [dirPath remotePath, ".opsup-upload-" ++ hexEncodeToString nonce]

def privateMode : Nat := 0o600

/-- The error of a request, `none` when it succeeded. -/
def errOf : Except StatusError Unit → Option String
  | .ok () => none
  | .error err => some err.text

/-- `io.Copy`. -/
def copySource (file : String) : List Bytes → Option String → Sftp (Option String)
  | [], failure => .ret failure
  | chunk :: rest, failure =>
      .call (.write file chunk) fun
        | .error err => .ret (some err.text)
        | .ok () => copySource file rest failure

/-- A step that is taken only when no error has occurred. -/
def unlessFailed (failed : Option String) (command : Sftp (Option String)) : Sftp (Option String) :=
  match failed with
  | some err => .ret (some err)
  | none => command

def chownFile (file : String) : Option Owner → Sftp (Option String)
  | none => .ret none
  | some owner => .call (.chown file owner) fun reply => .ret (errOf reply)

/-- From the copy to the close. -/
def fillFile (file : String) (mode : Nat) (ownership : Option Owner) (source : Source) :
    Sftp (Option String) := do
  let copyErr ← copySource file source.chunks source.failure
  let copyErr ← unlessFailed copyErr (chownFile file ownership)
  let copyErr ← unlessFailed copyErr (.call (.chmod file mode) fun reply => .ret (errOf reply))
  .call (.close file) fun reply =>
    match copyErr, errOf reply with
    | some err, _ => .ret (some ("upload: " ++ err))
    | none, some err => .ret (some ("close upload: " ++ err))
    | none, none => .ret none

def published (reply : Except StatusError Unit) : Option String :=
  (errOf reply).map fun err => "publish upload: " ++ err

/-- Without the extension an existing destination is refused, first by this check
and then by the rename itself. -/
def publish (posixRename : Bool) (temp remotePath : String) : Sftp (Option String) :=
  if posixRename then .call (.posixRename temp remotePath) fun reply => .ret (published reply)
  else
    .call (.lstat remotePath) fun
      | .ok _ => .ret (some "atomic overwrite unsupported by this SFTP server")
      | .error err =>
          if err.notExist = false then .ret (some ("check destination: " ++ err.text))
          else .call (.rename temp remotePath) fun reply => .ret (published reply)

def fillAndPublish (call : UploadCall) (temp : String) (mode : Nat) (ownership : Option Owner) :
    Sftp (Option String) :=
  .call (.chmod temp privateMode) fun
    | .error err =>
        .call (.close temp) fun _ => .ret (some ("secure temporary file: " ++ err.text))
    | .ok () => do
        match ← fillFile temp mode ownership call.source with
        | some err => pure (some err)
        | none => publish call.posixRename temp call.remotePath

/-- The deferred removal of what has not been published. -/
def removeUnlessPublished (temp : String) (failed : Option String) : Sftp (Option String) :=
  match failed with
  | none => .ret none
  | some err => .call (.remove temp) fun _ => .ret (some err)

def uploadWith (call : UploadCall) (mode : Nat) (ownership : Option Owner) :
    Sftp (Option String) :=
  match call.rand with
  | none => .ret (some "read failed")
  | some nonce =>
      let temp := tempPath call.remotePath nonce
      .call (.openFile temp) fun
        | .error err => .ret (some ("create temporary file: " ++ err.text))
        | .ok () => fillAndPublish call temp mode ownership >>= removeUnlessPublished temp

/-- `Upload`; the result is the error, `none` for `nil`. -/
def upload (call : UploadCall) : Sftp (Option String) :=
  .call (.lstat call.remotePath) fun
    | .ok existing =>
        if existing.regular = false then
          .ret (some "upload destination must be a regular file")
        else uploadWith call existing.perm existing.sys
    | .error err =>
        if err.notExist = false then .ret (some ("check destination: " ++ err.text))
        else uploadWith call privateMode none

end OpsUp.SftpClient
