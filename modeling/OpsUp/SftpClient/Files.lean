import OpsUp.Posix.FileTree
import OpsUp.SshClient.Session

/-!
# The client and its requests on remote files

`NewClient` takes ownership of the SSH connection, including on failure.  The server keeps
a file tree and answers each request on the entry that the path leads to.  Reading a
directory and `STAT` follow links; `REMOVE` and `RMDIR` do not.
-/

namespace OpsUp.SftpClient

open OpsUp.Posix

/-! ## The client -/

section Client

open OpsUp.Interaction OpsUp.SshClient

def newClient (ssh : SSH) (owner : Client) : Owning ssh Handed :=
  takingOver owner <|
    .call (.inr (.newSftp owner)) fun
      | .error err =>
          .call (.inl (.close owner)) fun _ =>
            .call (.inl .setupErr) fun setupErr =>
              .ret (none, some ("sftp init: " ++ setupErr.getD err))
      | .ok () => settleHandle owner

end Client

/-! ## The server -/

/-- What a listing shows of an entry besides its name. -/
structure FileAttributes where
  size : Int
  mode : String
  modTime : String
  deriving DecidableEq, Repr

abbrev Files := FileTree FileAttributes

def errNotExist : String := "file does not exist"

def errFailure : String := "sftp: \"Failure\" (SSH_FX_FAILURE)"

section Requests

variable (process : Process) (files : Files) (path : String)

/-- `ReadDir`: the entries as they are, links not followed. -/
def readDir : Except String (List (Name × Entry × FileAttributes)) :=
  match process.resolve files true path with
  | none => .error errNotExist
  | some directory =>
      if files.lookup directory = some .directory then .ok (files.children directory)
      else .error errNotExist

/-- `Stat`. -/
def stat : Except String Entry :=
  match (process.resolve files true path).bind files.lookup with
  | none => .error errNotExist
  | some entry => .ok entry

/-- The request `REMOVE`. -/
def removeFile : Except String Files :=
  match process.resolve files false path with
  | none => .error errNotExist
  | some here =>
      match files.unlink here with
      | none => .error errFailure
      | some after => .ok after

/-- The request `RMDIR`. -/
def removeDirectory : Except String Files :=
  match process.resolve files false path with
  | none => .error errNotExist
  | some here =>
      match files.rmdir here with
      | none => .error errFailure
      | some after => .ok after

/-- `Remove`: `REMOVE`, then `RMDIR`; when both fail, one of the two errors. -/
def remove : Except String Files :=
  match removeFile process files path with
  | .ok after => .ok after
  | .error errF =>
      match removeDirectory process files path with
      | .ok after => .ok after
      | .error errD =>
          if errF = errD then .error errF
          else
            match stat process files path with
            | .error err => .error err
            | .ok .directory => .error errD
            | .ok _ => .error errF

end Requests

variable {process : Process} {files after : Files} {path : String} {entry : Entry}
  {here : Location}

theorem stat_eq_ok_iff : stat process files path = .ok entry ↔
    ∃ here, process.resolve files true path = some here ∧ files.lookup here = some entry := by
  unfold stat
  cases hresolved : process.resolve files true path with
  | none => simp
  | some here =>
      rw [Option.bind_some]
      cases hentry : files.lookup here with
      | none => simp [hentry]
      | some found => simp [hentry]

theorem removeFile_ok (removed : removeFile process files path = .ok after) :
    ∃ here, process.resolve files false path = some here ∧ files.IsFile here ∧
      files.Removed here after := by
  unfold removeFile at removed
  split at removed
  · cases removed
  · next here hresolved =>
      split at removed
      · cases removed
      · next hunlinked =>
          obtain rfl := Except.ok.inj removed
          exact ⟨here, hresolved, FileTree.removed_of_unlink hunlinked⟩

theorem removeDirectory_ok (removed : removeDirectory process files path = .ok after) :
    ∃ here, process.resolve files false path = some here ∧
      files.lookup here = some .directory ∧ files.Removed here after := by
  unfold removeDirectory at removed
  split at removed
  · cases removed
  · next here hresolved =>
      split at removed
      · cases removed
      · next hrmdir =>
          obtain rfl := Except.ok.inj removed
          exact ⟨here, hresolved, FileTree.removed_of_rmdir hrmdir⟩

/-- Whichever request succeeds, it has removed the entry that the path names. -/
theorem remove_ok (removed : remove process files path = .ok after) :
    ∃ here, process.resolve files false path = some here ∧ files.Removed here after := by
  unfold remove at removed
  cases hfile : removeFile process files path with
  | ok unlinked =>
      simp only [hfile] at removed
      obtain rfl := Except.ok.inj removed
      obtain ⟨here, hresolved, -, hremoved⟩ := removeFile_ok hfile
      exact ⟨here, hresolved, hremoved⟩
  | error errF =>
      cases hdirectory : removeDirectory process files path with
      | ok emptied =>
          simp only [hfile, hdirectory] at removed
          obtain rfl := Except.ok.inj removed
          obtain ⟨here, hresolved, -, hremoved⟩ := removeDirectory_ok hdirectory
          exact ⟨here, hresolved, hremoved⟩
      | error errD =>
          simp only [hfile, hdirectory] at removed
          split at removed
          · cases removed
          · split at removed <;> cases removed

theorem exists_remove (resolved : process.resolve files false path = some here)
    (file : files.IsFile here) :
    ∃ after, remove process files path = .ok after ∧ files.Removed here after := by
  obtain ⟨after, hunlinked⟩ := FileTree.exists_unlink file
  have hfile : removeFile process files path = .ok after := by
    simp only [removeFile, resolved, hunlinked]
  refine ⟨after, ?_, (FileTree.removed_of_unlink hunlinked).2⟩
  simp only [remove, hfile]

theorem exists_removeDirectory (resolved : process.resolve files false path = some here)
    (directory : files.lookup here = some .directory) (leaf : files.IsLeaf here)
    (not_root : here ≠ []) :
    ∃ after, removeDirectory process files path = .ok after ∧ files.Removed here after := by
  obtain ⟨after, hrmdir⟩ := FileTree.exists_rmdir directory leaf not_root
  refine ⟨after, ?_, (FileTree.removed_of_rmdir hrmdir).2⟩
  simp only [removeDirectory, resolved, hrmdir]

end OpsUp.SftpClient
