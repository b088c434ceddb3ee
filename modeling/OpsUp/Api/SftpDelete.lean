import OpsUp.Api.SftpHandler

/-!
# Deleting a listed row

`SFTPDelete` looks at what the path leads to and acts on the path itself.  The two differ for
links, and the path of a row is the cleaned path of its directory, which may be another
directory than the one that was listed.
-/

namespace OpsUp.Api

open OpsUp.Go OpsUp.Posix OpsUp.SftpClient

/-- The row's path is deleted and exactly the entry at `here` is gone. -/
def Deletes (process : Process) (files : Files) (row : FileInfo) (here : Location) : Prop :=
  ∃ after, sftpDelete (.ok process) row.path files = (⟨200, .message "deleted"⟩, after) ∧
    files.Removed here after

/-- The path leads to something that is no directory. -/
def LeadsToFile (process : Process) (files : Files) (path : String) : Prop :=
  ∃ there found, process.resolve files true path = some there ∧
    files.lookup there = some found ∧ found ≠ .directory

variable {process : Process} {files after : Files} {query : String} {directory : Location}
  {name : Name} {entry : Entry} {attributes : FileAttributes}

theorem sftpDelete_eq {path : String} (nonempty : path ≠ "") :
    sftpDelete (.ok process) path files =
      match stat process files path with
      | .error err => (⟨500, .error err⟩, files)
      | .ok entry =>
          match (if entry = .directory then removeDirectory process files path
            else remove process files path) with
          | .error err => (⟨500, .error err⟩, files)
          | .ok after => (⟨200, .message "deleted"⟩, after) := by
  unfold sftpDelete
  exact if_neg nonempty

/-- A deletion that succeeds has looked at something and removed what the path names. -/
theorem sftpDelete_ok {path : String} (nonempty : path ≠ "")
    (deleted : sftpDelete (.ok process) path files = (⟨200, .message "deleted"⟩, after)) :
    ∃ found here, stat process files path = .ok found ∧
      process.resolve files false path = some here ∧ files.Removed here after := by
  rw [sftpDelete_eq nonempty] at deleted
  cases hstat : stat process files path with
  | error err =>
      simp only [hstat] at deleted
      cases deleted
  | ok found =>
      simp only [hstat] at deleted
      split at deleted
      · cases deleted
      · next removed hremoved =>
          obtain rfl : removed = after := (Prod.mk.inj deleted).2
          split at hremoved
          · obtain ⟨here, hresolved, -, hgone⟩ := removeDirectory_ok hremoved
            exact ⟨found, here, rfl, hresolved, hgone⟩
          · obtain ⟨here, hresolved, hgone⟩ := remove_ok hremoved
            exact ⟨found, here, rfl, hresolved, hgone⟩

theorem sftpDelete_directory {path : String} (nonempty : path ≠ "")
    (stated : stat process files path = .ok .directory)
    (removed : removeDirectory process files path = .ok after) :
    sftpDelete (.ok process) path files = (⟨200, .message "deleted"⟩, after) := by
  rw [sftpDelete_eq nonempty]
  simp only [stated, if_true, removed]

theorem sftpDelete_file {path : String} (nonempty : path ≠ "")
    (stated : stat process files path = .ok entry) (other : entry ≠ .directory)
    (removed : remove process files path = .ok after) :
    sftpDelete (.ok process) path files = (⟨200, .message "deleted"⟩, after) := by
  rw [sftpDelete_eq nonempty]
  simp only [stated, if_neg other, removed]

theorem named_of_child (child : (name, entry, attributes) ∈ files.children directory) :
    IsName (String.ofList name).toList := by
  rw [String.toList_ofList]
  exact (FileTree.lookup_of_mem_children child).2.2

theorem path_ne_empty (child : (name, entry, attributes) ∈ files.children directory)
    (dir : String) : joinPath [dir, String.ofList name] ≠ "" := by
  have hnamed := named_of_child child
  rw [joinPath_name dir hnamed, ne_eq, String.ofList_eq_empty_iff]
  exact List.append_ne_nil_of_right_ne_nil _ hnamed.nonempty

/-- The path of a child names the child when the cleaned path leads to its directory. -/
theorem resolve_child (child : (name, entry, attributes) ∈ files.children directory)
    {dir : String} (leads : process.resolve files true (cleanPath dir) = some directory) :
    process.resolve files false (joinPath [dir, String.ofList name]) = some (directory ++ [name]) := by
  obtain ⟨hentry, hdirectory, -⟩ := FileTree.lookup_of_mem_children child
  rw [resolve_joinPath process dir (named_of_child child), leads, Option.bind_some,
    String.toList_ofList, lastStep, if_neg (not_not.mpr hdirectory), hentry]
  rfl

/-- What the path of a child names is the child only if the cleaned path leads to its
directory. -/
theorem leads_of_resolve_child {dir : String} (named : IsName (String.ofList name).toList)
    (resolved : process.resolve files false (joinPath [dir, String.ofList name]) =
      some (directory ++ [name])) :
    process.resolve files true (cleanPath dir) = some directory := by
  rw [resolve_joinPath process dir named, String.toList_ofList] at resolved
  obtain ⟨there, hthere, hlast⟩ := Option.bind_eq_some_iff.mp resolved
  unfold lastStep at hlast
  split at hlast
  · cases hlast
  · split at hlast
    · cases hlast
    · have hsame := List.append_inj_left' (Option.some.inj hlast) rfl
      rw [hthere, hsame]

/-- An entry that is no link is what its path leads to. -/
theorem stat_child (child : (name, entry, attributes) ∈ files.children directory)
    {dir : String} (leads : process.resolve files true (cleanPath dir) = some directory)
    (unlinked : ∀ target, entry ≠ .link target) :
    stat process files (joinPath [dir, String.ofList name]) = .ok entry := by
  have hresolved := resolve_child child leads
  have hentry := (FileTree.lookup_of_mem_children child).1
  have hfollow : SameUnlessLink files _ _ :=
    resolve_follow process (joinPath [dir, String.ofList name])
  rw [stat_eq_ok_iff]
  rcases hfollow with hsame | ⟨there, target, hthere, hlink⟩
  · exact ⟨_, hsame.symm.trans hresolved, hentry⟩
  · obtain rfl := Option.some.inj (hthere.symm.trans hresolved)
    exact absurd (Option.some.inj (hentry.symm.trans hlink)) (unlinked target)

theorem isFile_of_child (child : (name, entry, attributes) ∈ files.children directory)
    (other : entry ≠ .directory) : files.IsFile (directory ++ [name]) := by
  have hentry := (FileTree.lookup_of_mem_children child).1
  unfold FileTree.IsFile
  rw [hentry]
  exact ⟨nofun, fun hsame => other (Option.some.inj hsame)⟩

theorem deletes_child_iff (child : (name, entry, attributes) ∈ files.children directory)
    (deletable : entry = .directory → files.IsLeaf (directory ++ [name])) (dir : String) :
    Deletes process files (fileInfo dir (name, entry, attributes)) (directory ++ [name]) ↔
      process.resolve files true (cleanPath dir) = some directory ∧
        ∀ target, entry = .link target →
          LeadsToFile process files (joinPath [dir, String.ofList name]) := by
  have hnonempty := path_ne_empty child dir
  constructor
  · rintro ⟨after, hdeleted, hremoved⟩
    obtain ⟨found, here, hstat, hresolved, hgone⟩ := sftpDelete_ok hnonempty hdeleted
    obtain rfl := hgone.unique hremoved
    have hleads := leads_of_resolve_child (named_of_child child) hresolved
    refine ⟨hleads, ?_⟩
    rintro target rfl
    obtain ⟨there, hthere, hfound⟩ := stat_eq_ok_iff.mp hstat
    refine ⟨there, found, hthere, hfound, ?_⟩
    rintro rfl
    -- a link is no directory, so `RMDIR` on it has failed
    have hreply : sftpDelete (.ok process) (joinPath [dir, String.ofList name]) files =
        (⟨200, .message "deleted"⟩, after) := hdeleted
    rw [sftpDelete_eq hnonempty] at hreply
    simp only [hstat, if_true] at hreply
    split at hreply
    · cases hreply
    · next hrmdir =>
        obtain ⟨other, hother, hdirectory, -⟩ := removeDirectory_ok hrmdir
        obtain rfl := Option.some.inj (hother.symm.trans hresolved)
        have hentry := (FileTree.lookup_of_mem_children child).1
        cases hentry.symm.trans hdirectory
  · rintro ⟨hleads, hlinks⟩
    have hresolved := resolve_child child hleads
    have hentry := (FileTree.lookup_of_mem_children child).1
    by_cases hdirectory : entry = .directory
    · subst hdirectory
      obtain ⟨after, hrmdir, hremoved⟩ := exists_removeDirectory hresolved hentry
        (deletable rfl) (by simp)
      exact ⟨after, sftpDelete_directory hnonempty (stat_child child hleads nofun) hrmdir,
        hremoved⟩
    · obtain ⟨after, hremove, hremoved⟩ := exists_remove hresolved
        (isFile_of_child child hdirectory)
      refine ⟨after, ?_, hremoved⟩
      cases entry with
      | link target =>
          obtain ⟨there, found, hthere, hfound, hother⟩ := hlinks target rfl
          exact sftpDelete_file hnonempty (stat_eq_ok_iff.mpr ⟨there, hthere, hfound⟩) hother
            hremove
      | regular => exact sftpDelete_file hnonempty (stat_child child hleads nofun) nofun hremove
      | special => exact sftpDelete_file hnonempty (stat_child child hleads nofun) nofun hremove
      | directory => exact absurd rfl hdirectory

/--
Every listed row shows a child of the directory that was asked for.  Unless the child is a
directory with something in it, deleting the row's path succeeds and removes the child and
nothing else, exactly when the cleaned path of the directory leads to the same directory and
the child is no link or a link that leads to a file.
-/
theorem deletes_listed_iff {rows : List FileInfo} {row : FileInfo}
    (listed : sftpList (.ok process) query files = ⟨200, .files rows⟩) (shown : row ∈ rows) :
    ∃ directory name entry attributes,
      process.resolve files true (directoryOr query) = some directory ∧
      (name, entry, attributes) ∈ files.children directory ∧
      row = fileInfo (directoryOr query) (name, entry, attributes) ∧
      ((entry = .directory → files.IsLeaf (directory ++ [name])) →
        (Deletes process files row (directory ++ [name]) ↔
          process.resolve files true (cleanPath (directoryOr query)) = some directory ∧
            ∀ target, entry = .link target → LeadsToFile process files row.path)) := by
  unfold sftpList at listed
  dsimp only at listed
  cases hread : readDir process files (directoryOr query) with
  | error err =>
      simp only [hread] at listed
      cases listed
  | ok entries =>
      simp only [hread] at listed
      obtain rfl := SftpBody.files.inj (SftpResponse.mk.inj listed).2
      obtain ⟨⟨name, entry, attributes⟩, hchild, rfl⟩ := List.mem_map.mp shown
      unfold readDir at hread
      split at hread
      · cases hread
      · next directory hdirectory =>
          split at hread
          · obtain rfl := Except.ok.inj hread
            exact ⟨directory, name, entry, attributes, hdirectory, hchild, rfl,
              fun deletable => deletes_child_iff hchild deletable _⟩
          · cases hread

def plainAttributes : FileAttributes := ⟨0, "", ""⟩

/-- A directory `d`, a file `f` and a link `l` to the directory. -/
def linkedFiles : Files :=
  (((FileTree.empty plainAttributes).add [] ['d'] (.directory, plainAttributes)
    rfl (by decide) (by decide)).add [] ['f'] (.regular, plainAttributes)
    (by decide) (by decide) (by decide)).add [] ['l'] (.link "d", plainAttributes)
    (by decide) (by decide) (by decide)

def linkedRow : FileInfo := fileInfo "/" (['l'], .link "d", plainAttributes)

def fileRow : FileInfo := fileInfo "/" (['f'], .regular, plainAttributes)

def linkedRows : List FileInfo :=
  [linkedRow, fileRow, fileInfo "/" (['d'], .directory, plainAttributes)]

theorem sftpList_linkedFiles :
    sftpList (.ok ⟨[], 40⟩) "" linkedFiles = ⟨200, .files linkedRows⟩ := by
  decide +kernel

/-- The row of the link is listed, and deleting it fails. -/
theorem delete_linked_directory : linkedRow ∈ linkedRows ∧
    sftpList (.ok ⟨[], 40⟩) "" linkedFiles = ⟨200, .files linkedRows⟩ ∧
    linkedFiles.lookup [['l']] = some (.link "d") ∧
    (sftpDelete (.ok ⟨[], 40⟩) linkedRow.path linkedFiles).1 = ⟨500, .error errFailure⟩ := by
  refine ⟨List.mem_cons_self, sftpList_linkedFiles, ?_⟩
  decide +kernel

/-- The file beside the link is deleted. -/
theorem deletes_listed_iff_file : Deletes ⟨[], 40⟩ linkedFiles fileRow [['f']] := by
  have hshown : fileRow ∈ linkedRows := List.mem_cons_of_mem _ List.mem_cons_self
  obtain ⟨directory, name, entry, attributes, hdirectory, hchild, hrow, hiff⟩ :=
    deletes_listed_iff sftpList_linkedFiles hshown
  have hroot : (⟨[], 40⟩ : Process).resolve linkedFiles true (directoryOr "") = some [] := by
    decide +kernel
  obtain rfl := Option.some.inj (hdirectory.symm.trans hroot)
  have hname : String.ofList name = "f" := (congrArg FileInfo.name hrow).symm
  have hletters : name = ['f'] := by
    rw [← String.toList_ofList (l := name), hname]
    rfl
  subst hletters
  have hregular : linkedFiles.lookup [['f']] = some .regular := by decide +kernel
  have hentry := (FileTree.lookup_of_mem_children hchild).1
  obtain rfl := Option.some.inj (hentry.symm.trans hregular)
  have hcleaned : (⟨[], 40⟩ : Process).resolve linkedFiles true (cleanPath (directoryOr "")) =
      some [] := by
    decide +kernel
  exact (hiff nofun).mpr ⟨hcleaned, nofun⟩

end OpsUp.Api
