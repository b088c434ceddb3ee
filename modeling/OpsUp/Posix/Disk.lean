import OpsUp.Go.Strings
import OpsUp.Interaction.RelyGuarantee

/-!
# Files on a disk

A process reads files, creates new ones and appends to them.  Any call may fail on a
disk that has faults.  A failed call has no effect, except that a failed write may have
stored a part of its data.
-/

namespace OpsUp.Posix

open OpsUp.Go OpsUp.Interaction

/-- A failed call; `notExist` is what `os.IsNotExist` answers. -/
structure PathError where
  notExist : Bool
  text : String
  deriving DecidableEq, Repr

/-- System calls.  An open file is named by the path it was opened at. -/
inductive DiskCommand where
  | readFile (path : Bytes)
  | chmod (path : Bytes) (mode : Nat)
  | mkdirAll (path : Bytes) (mode : Nat)
  /-- `n` random bytes -/
  | random (n : Nat)
  /-- `OpenFile(path, O_WRONLY|O_CREATE|O_EXCL, mode)` -/
  | openFile (path : Bytes) (mode : Nat)
  /-- the reply counts the bytes that were stored -/
  | write (file : Bytes) (data : Bytes)
  | sync (file : Bytes)
  | close (file : Bytes)

@[reducible]
def DiskCommand.Reply : DiskCommand → Type
  | .readFile _ => Except PathError Bytes
  | .chmod _ _ => Except PathError Unit
  | .mkdirAll _ _ => Except PathError Unit
  | .random _ => Except PathError Bytes
  | .openFile _ _ => Except PathError Unit
  | .write _ _ => Nat × Option PathError
  | .sync _ => Except PathError Unit
  | .close _ => Except PathError Unit

abbrev diskCalls : Interface where
  Command := DiskCommand
  Reply := DiskCommand.Reply

abbrev OnDisk := Program diskCalls

/-- The content of each regular file. -/
abbrev Files (κ : Type) := κ → Option Bytes

section Disk

variable {κ : Type}

/-- No file is changed, and none but `k` is new. -/
def OnlyAdds (k : κ) (before after : Files κ) : Prop :=
  ∀ other, after other = before other ∨ before other = none ∧ other = k

theorem OnlyAdds.refl (k : κ) (files : Files κ) : OnlyAdds k files files := fun _ => Or.inl rfl

variable [DecidableEq κ]

/-- A call that changes no file. -/
def Done (faults : Prop) (files : Files κ) (reply : Except PathError Unit) (after : Files κ) :
    Prop :=
  after = files ∧ (reply = .ok () ∨ faults ∧ ∃ err, reply = .error err)

/--
The disk, with the file that each path resolves to.  Only a path without a file is
reported not to exist, and without faults it always is.
-/
def disk (resolve : Bytes → κ) (faults : Prop) : Service diskCalls (Files κ)
  | files, .readFile path, reply, after => after = files ∧
      (files (resolve path) = none ∧ (∃ text, reply = .error ⟨true, text⟩) ∨
        (∃ bytes, files (resolve path) = some bytes ∧ reply = .ok bytes) ∨
        faults ∧ ∃ text, reply = .error ⟨false, text⟩)
  | files, .chmod _ _, reply, after => Done faults files reply after
  | files, .mkdirAll _ _, reply, after => Done faults files reply after
  | files, .random n, reply, after => after = files ∧
      ((∃ bytes, bytes.length = n ∧ reply = .ok bytes) ∨ faults ∧ ∃ err, reply = .error err)
  | files, .openFile path _, reply, after =>
      (files (resolve path) = none ∧ reply = .ok () ∧
        after = Function.update files (resolve path) (some [])) ∨
      ((files (resolve path) ≠ none ∨ faults) ∧ (∃ err, reply = .error err) ∧ after = files)
  | files, .write file data, (stored, failure), after =>
      after = Function.update files (resolve file)
        ((files (resolve file)).map fun content => content ++ data.take stored) ∧
      stored ≤ data.length ∧ (stored = data.length ∧ failure = none ∨ faults ∧ failure ≠ none)
  | files, .sync _, reply, after => Done faults files reply after
  | files, .close _, reply, after => Done faults files reply after

theorem OnlyAdds.update {k : κ} {before files : Files κ} (adds : OnlyAdds k before files)
    (absent : before k = none) (content : Option Bytes) :
    OnlyAdds k before (Function.update files k content) := by
  intro other
  by_cases hother : other = k
  · subst hother
    exact Or.inr ⟨absent, rfl⟩
  · rw [Function.update_of_ne hother]
    exact adds other

/-- Every call is answered. -/
theorem disk_total (resolve : Bytes → κ) (faults : Prop) (files : Files κ)
    (command : DiskCommand) : ∃ reply after, disk resolve faults files command reply after := by
  cases command with
  | readFile path =>
      cases hfile : files (resolve path) with
      | none => exact ⟨.error ⟨true, ""⟩, files, rfl, Or.inl ⟨hfile, "", rfl⟩⟩
      | some bytes => exact ⟨.ok bytes, files, rfl, Or.inr (Or.inl ⟨bytes, hfile, rfl⟩)⟩
  | chmod path mode => exact ⟨.ok (), files, rfl, Or.inl rfl⟩
  | mkdirAll path mode => exact ⟨.ok (), files, rfl, Or.inl rfl⟩
  | random n =>
      exact ⟨.ok (List.replicate n 0), files, rfl, Or.inl ⟨_, List.length_replicate, rfl⟩⟩
  | openFile path mode =>
      by_cases hfile : files (resolve path) = none
      · exact ⟨.ok (), _, Or.inl ⟨hfile, rfl, rfl⟩⟩
      · exact ⟨.error ⟨false, ""⟩, files, Or.inr ⟨Or.inl hfile, ⟨_, rfl⟩, rfl⟩⟩
  | write file data =>
      exact ⟨(data.length, none), _, rfl, Nat.le_refl _, Or.inl ⟨rfl, rfl⟩⟩
  | sync file => exact ⟨.ok (), files, rfl, Or.inl rfl⟩
  | close file => exact ⟨.ok (), files, rfl, Or.inl rfl⟩

end Disk

/-! ## What a run received and wrote -/

/-- The random values that were drawn. -/
def draws (events : List (Event diskCalls)) : List Bytes :=
  events.filterMap fun
    | ⟨.random _, .ok bytes⟩ => some bytes
    | _ => none

/-- The data of each write, and how many of its bytes were stored. -/
def writes (events : List (Event diskCalls)) : List (Bytes × Nat) :=
  events.filterMap fun
    | ⟨.write _ data, (stored, _)⟩ => some (data, stored)
    | _ => none

section Received

variable (front back : List (Event diskCalls))

@[simp]
theorem draws_append : draws (front ++ back) = draws front ++ draws back := List.filterMap_append

@[simp]
theorem writes_append : writes (front ++ back) = writes front ++ writes back :=
  List.filterMap_append

end Received

end OpsUp.Posix
