import OpsUp.SftpClient.Files
import OpsUp.SftpClient.UploadRuns

/-!
# The file handlers

Listing, uploading and deleting.  Each handler settles the path it was given before it asks
the server; a path that is shown in a listing comes back unchanged when its row is deleted.
-/

namespace OpsUp.Api

open OpsUp.Go OpsUp.Interaction OpsUp.Posix OpsUp.SftpClient

/-- One row of a listing. -/
structure FileInfo where
  name : String
  size : Int
  mode : String
  modTime : String
  isDir : Bool
  path : String
  deriving DecidableEq, Repr

inductive SftpBody where
  | error (text : String)
  | message (text : String)
  | uploaded (path : String)
  | files (rows : List FileInfo)
  deriving DecidableEq, Repr

structure SftpResponse where
  status : Nat
  body : SftpBody
  deriving DecidableEq, Repr

def errUploadBody : String := "invalid upload or request exceeds 256 MiB"
def errNoFile : String := "no file provided"
def errInvalidFilename : String := "invalid filename"
def errPathRequired : String := "path is required"

/-- An empty path stands for the root directory. -/
def directoryOr (path : String) : String := if path = "" then "/" else path

/-- What `connectSFTP` returns: an error text or the session. -/
abbrev Connected := Except String Process

def fileInfo (dirPath : String) (child : Name × Entry × FileAttributes) : FileInfo where
  name := String.ofList child.1
  size := child.2.2.size
  mode := child.2.2.mode
  modTime := child.2.2.modTime
  isDir := child.2.1 = .directory
  path := joinPath [dirPath, String.ofList child.1]

def sftpList (connected : Connected) (query : String) (files : Files) : SftpResponse :=
  let dirPath := directoryOr query
  match connected with
  | .error err => ⟨500, .error err⟩
  | .ok process =>
      match readDir process files dirPath with
      | .error err => ⟨500, .error err⟩
      | .ok entries => ⟨200, .files (entries.map (fileInfo dirPath))⟩

/-- What parsing the multipart form yields; `tooLarge` is why it failed. -/
inductive UploadForm where
  | invalid (tooLarge : Bool)
  | parsed (path : String) (file : Option (String × Source))

/-- The name a file is stored under, `none` when it is refused. -/
def uploadName (filename : String) : Option String :=
  let filename := basePath (replaceAll filename '\\' '/')
  if filename = "." ∨ filename = "/" ∨ filename = ".." ∨ Char.ofNat 0 ∈ filename.toList then none
  else some filename

def sftpUpload (form : UploadForm) (connected : Except String Unit) (rand : Option UploadNonce)
    (posixRename : Bool) : Sftp SftpResponse :=
  match form with
  | .invalid tooLarge => pure ⟨if tooLarge then 413 else 400, .error errUploadBody⟩
  | .parsed path file =>
      let dirPath := directoryOr path
      match file with
      | none => pure ⟨400, .error errNoFile⟩
      | some (filename, source) =>
          match uploadName filename with
          | none => pure ⟨400, .error errInvalidFilename⟩
          | some filename =>
              match connected with
              | .error err => pure ⟨500, .error err⟩
              | .ok () => do
                  let remotePath := joinPath [dirPath, filename]
                  match ← upload ⟨remotePath, source, rand, posixRename⟩ with
                  | some err => pure ⟨500, .error err⟩
                  | none => pure ⟨200, .uploaded remotePath⟩

def sftpDelete (connected : Connected) (filePath : String) (files : Files) :
    SftpResponse × Files :=
  if filePath = "" then (⟨400, .error errPathRequired⟩, files)
  else
    match connected with
    | .error err => (⟨500, .error err⟩, files)
    | .ok process =>
        match stat process files filePath with
        | .error err => (⟨500, .error err⟩, files)
        | .ok entry =>
            match (if entry = .directory then removeDirectory process files filePath
              else remove process files filePath) with
            | .error err => (⟨500, .error err⟩, files)
            | .ok after => (⟨200, .message "deleted"⟩, after)

/-! ## Names in a directory -/

/-- A stored name is a name, without a zero byte. -/
theorem uploadName_isName {filename name : String} (accepted : uploadName filename = some name) :
    IsName name.toList ∧ Char.ofNat 0 ∉ name.toList := by
  unfold uploadName at accepted
  dsimp only at accepted
  split at accepted
  · cases accepted
  · next hrefused =>
      obtain rfl := Option.some.inj accepted
      simp only [not_or] at hrefused
      obtain ⟨hdot, hslash, hdots, hzero⟩ := hrefused
      obtain ⟨hnonempty, hbase⟩ := basePath_no_slash (replaceAll filename '\\' '/')
      refine ⟨⟨?_, ?_, ?_, hbase.resolve_left hslash⟩, hzero⟩
      · simpa using hnonempty
      · exact fun hsame => hdot (String.toList_inj.mp hsame)
      · exact fun hsame => hdots (String.toList_inj.mp hsame)

/-- The name of the temporary file is a name. -/
theorem tempName_isName (nonce : UploadNonce) :
    IsName (".opsup-upload-" ++ hexEncodeToString nonce).toList := by
  have hstart : (".opsup-upload-" ++ hexEncodeToString nonce).toList =
      ".opsup-upload-".toList ++ hexChars nonce := by
    rw [String.toList_append]
    exact congrArg (".opsup-upload-".toList ++ ·) String.toList_ofList
  rw [hstart]
  constructor
  · exact List.append_ne_nil_of_left_ne_nil (by decide) _
  · intro hsame
    have hlength := congrArg List.length hsame
    rw [List.length_append] at hlength
    simp at hlength
    omega
  · intro hsame
    have hlength := congrArg List.length hsame
    rw [List.length_append] at hlength
    simp at hlength
    omega
  · rw [List.mem_append, not_or]
    refine ⟨by decide, fun hslash => ?_⟩
    have hdigit := isLowerHex_iff.mp (isLowerHex_of_mem_hexChars hslash)
    simp only [Char.reduceToNat] at hdigit
    omega

/-- The temporary file is in the directory of the upload. -/
theorem dirPath_tempPath (dir : String) {name : String} (named : IsName name.toList)
    (nonce : UploadNonce) : dirPath (tempPath (joinPath [dir, name]) nonce) = cleanPath dir := by
  rw [tempPath, dirPath_joinPath _ (tempName_isName nonce), dirPath_joinPath dir named,
    cleanPath_idem]

/-- An entry of a directory, as the paths of the standard library see it. -/
structure Inside (dir path name : String) : Prop where
  directory : dirPath path = cleanPath dir
  base : basePath path = name

theorem inside_joinPath (dir : String) {name : String} (named : IsName name.toList) :
    Inside dir (joinPath [dir, name]) name :=
  ⟨dirPath_joinPath dir named, basePath_joinPath dir named⟩

/-- A request on the destination or its temporary file. -/
def StoresAt (dir name : String) (rand : Option UploadNonce) (command : SftpCommand) : Prop :=
  ∀ path ∈ command.paths, dirPath path = cleanPath dir ∧
    (basePath path = name ∨ ∃ nonce, rand = some nonce ∧ path = tempPath (joinPath [dir, name]) nonce)

/-- Only the destination is answered. -/
def AnswersAt (dir name : String) (response : SftpResponse) : Prop :=
  ∀ path, response.body = .uploaded path → Inside dir path name

theorem storesAt_of_keeps {dir name : String} {source : Source} {rand : Option UploadNonce}
    {posixRename : Bool} {command : SftpCommand} (named : IsName name.toList)
    (keeps : UploadCall.Keeps ⟨joinPath [dir, name], source, rand, posixRename⟩ command) :
    StoresAt dir name rand command := by
  intro path hpath
  rcases keeps path hpath with rfl | htemp
  · exact ⟨dirPath_joinPath dir named, Or.inl (basePath_joinPath dir named)⟩
  · obtain ⟨nonce, hnonce, rfl⟩ := Option.map_eq_some_iff.mp htemp
    exact ⟨dirPath_tempPath dir named nonce, Or.inr ⟨nonce, hnonce, rfl⟩⟩

theorem sftpUpload_issues {path filename name : String} {source : Source}
    {connected : Except String Unit} {rand : Option UploadNonce} {posixRename : Bool}
    (accepted : uploadName filename = some name) :
    (sftpUpload (.parsed path (some (filename, source))) connected rand posixRename).Issues
      (StoresAt (directoryOr path) name rand) (AnswersAt (directoryOr path) name) := by
  obtain ⟨named, -⟩ := uploadName_isName accepted
  simp only [sftpUpload, accepted]
  cases connected with
  | error err => exact nofun
  | ok =>
      refine .bind ((upload_issues _).weaken (fun command keeps => storesAt_of_keeps named keeps)
        fun failed _ => ?_)
      cases failed with
      | some err => exact nofun
      | none =>
          rintro answered ⟨⟩
          exact inside_joinPath _ named

/--
Uploads and listings stay in the directory they were given, on whatever server: an upload
whose file name is refused sends nothing; any other sends requests on the sanitised name in
the cleaned directory and on the temporary file beside it, and answers no other path; and
the path of a row that is listed is that of its name in the cleaned directory.
-/
theorem paths_stay_in_directory {σ : Type} {service : Service sftp σ} :
    (∀ path filename source connected rand posixRename state events rest final,
      Program.Steps service
        (sftpUpload (.parsed path (some (filename, source))) connected rand posixRename) state
        events rest final →
      (uploadName filename = none →
        events = [] ∧ rest = .ret ⟨400, .error errInvalidFilename⟩) ∧
      ∀ name, uploadName filename = some name →
        IsName name.toList ∧ Char.ofNat 0 ∉ name.toList ∧
        Inside (directoryOr path) (joinPath [directoryOr path, name]) name ∧
        (∀ event ∈ events, StoresAt (directoryOr path) name rand event.command) ∧
        ∀ response, rest = .ret response → AnswersAt (directoryOr path) name response) ∧
    ∀ connected query files rows, (sftpList connected query files).body = .files rows →
      ∀ row ∈ rows, IsName row.name.toList → Inside (directoryOr query) row.path row.name := by
  constructor
  · intro path filename source connected rand posixRename state events rest final steps
    constructor
    · intro hrefused
      simp only [sftpUpload, hrefused, Program.pure_eq_ret] at steps
      obtain ⟨hevents, hrest, -⟩ := Program.Steps.of_ret steps
      exact ⟨hevents, hrest⟩
    · intro name accepted
      obtain ⟨named, hzero⟩ := uploadName_isName accepted
      obtain ⟨hevents, hrest⟩ := Program.Steps.issues steps (sftpUpload_issues accepted)
      refine ⟨named, hzero, inside_joinPath _ named, hevents, ?_⟩
      rintro response rfl
      exact hrest
  · intro connected query files rows listed row hrow named
    unfold sftpList at listed
    dsimp only at listed
    split at listed
    · cases listed
    · split at listed
      · cases listed
      · cases listed
        obtain ⟨child, -, rfl⟩ := List.mem_map.mp hrow
        exact inside_joinPath _ named

/-- A server with nothing on it that does what it is asked. -/
def emptyServer (_ : Unit) : (command : SftpCommand) → SftpCommand.Reply command × Unit
  | .lstat _ => (.error ⟨true, "file does not exist"⟩, ())
  | .openFile _ => (.ok (), ())
  | .chmod _ _ => (.ok (), ())
  | .write _ _ => (.ok (), ())
  | .chown _ _ => (.ok (), ())
  | .close _ => (.ok (), ())
  | .remove _ => (.ok (), ())
  | .posixRename _ _ => (.ok (), ())
  | .rename _ _ => (.ok (), ())

/-- An upload that tries to leave its directory. -/
def escapingUpload : Sftp SftpResponse :=
  sftpUpload (.parsed "srv/../data/" (some ("..\\..\\etc/passwd", ⟨[[1], [2]], none⟩))) (.ok ())
    (some ⟨List.replicate 16 0, List.length_replicate⟩) true

def escapingRun : List (Event sftp) × SftpResponse × Unit :=
  Program.run emptyServer escapingUpload ()

theorem paths_stay_in_directory_escaping :
    Program.Executes (fun _ command reply _ => reply = (emptyServer () command).1) escapingUpload ()
      escapingRun.1 ⟨200, .uploaded "data/passwd"⟩ () ∧
    (∀ event ∈ escapingRun.1, ∀ path ∈ event.command.paths, dirPath path = "data") ∧
    Inside "srv/../data/" "data/passwd" "passwd" := by
  have run : Program.Executes (fun _ command reply _ => reply = (emptyServer () command).1)
      escapingUpload () escapingRun.1 escapingRun.2.1 escapingRun.2.2 :=
    Program.executes_run (fun _ _ => rfl) escapingUpload ()
  have answered : escapingRun.2.1 = ⟨200, .uploaded "data/passwd"⟩ := by decide +kernel
  have accepted : uploadName "..\\..\\etc/passwd" = some "passwd" := by decide
  have hdir : cleanPath (directoryOr "srv/../data/") = "data" := by decide +kernel
  rw [answered] at run
  obtain ⟨huploads, -⟩ := @paths_stay_in_directory Unit
    fun _ command reply _ => reply = (emptyServer () command).1
  obtain ⟨-, hwhole⟩ := huploads _ _ _ _ _ _ _ _ _ _ run
  obtain ⟨-, -, -, hevents, hanswer⟩ := hwhole "passwd" accepted
  refine ⟨run, fun event hevent path hpath => ?_, hanswer _ rfl _ rfl⟩
  rw [← hdir]
  exact (hevents event hevent path hpath).1

example : uploadName "a\\.." = none := by decide

end OpsUp.Api
