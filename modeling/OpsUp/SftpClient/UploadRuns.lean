import OpsUp.SftpClient.Upload

/-!
# Uploads that run together

Each upload relies on nothing but that no other touches its temporary file.  What
it guarantees in return is said for one step, with the events it has already
produced; what any number of uploads do together follows from that.
-/

namespace OpsUp.SftpClient

open OpsUp.Go OpsUp.Interaction

/-! ## The steps of one upload -/

def UploadCall.temp (call : UploadCall) : Option String :=
  call.rand.map (tempPath call.remotePath)

/-- The entries that a request names. -/
def SftpCommand.paths : SftpCommand → List String
  | .lstat path => [path]
  | .openFile path => [path]
  | .chmod file _ => [file]
  | .write file _ => [file]
  | .chown file _ => [file]
  | .close file => [file]
  | .remove path => [path]
  | .posixRename source target => [source, target]
  | .rename source target => [source, target]

/-- A request on nothing but the destination and the temporary file. -/
def UploadCall.Keeps (call : UploadCall) (command : SftpCommand) : Prop :=
  ∀ path ∈ command.paths, path = call.remotePath ∨ call.temp = some path

section Paths

variable {call : UploadCall} {temp : String}

theorem UploadCall.keeps_temp {command : SftpCommand} (chosen : call.temp = some temp)
    (named : command.paths = [temp]) : call.Keeps command := by
  intro path hpath
  rw [named, List.mem_singleton] at hpath
  rw [hpath]
  exact Or.inr chosen

theorem UploadCall.keeps_both {command : SftpCommand} (chosen : call.temp = some temp)
    (named : command.paths = [temp, call.remotePath]) : call.Keeps command := by
  intro path hpath
  rw [named] at hpath
  rcases List.mem_cons.mp hpath with rfl | hlast
  · exact Or.inr chosen
  · exact Or.inl (List.mem_singleton.mp hlast)

theorem copySource_issues (chosen : call.temp = some temp) (chunks : List Bytes)
    (failure : Option String) : (copySource temp chunks failure).Issues call.Keeps fun _ => True := by
  induction chunks with
  | nil => exact trivial
  | cons chunk rest ih =>
      refine ⟨UploadCall.keeps_temp chosen rfl, fun reply => ?_⟩
      cases reply with
      | error err => exact trivial
      | ok => exact ih

theorem unlessFailed_issues {failed : Option String} {command : Sftp (Option String)}
    (issues : command.Issues call.Keeps fun _ => True) :
    (unlessFailed failed command).Issues call.Keeps fun _ => True := by
  cases failed with
  | none => exact issues
  | some err => exact trivial

theorem fillFile_issues (chosen : call.temp = some temp) (mode : Nat) (ownership : Option Owner)
    (source : Source) : (fillFile temp mode ownership source).Issues call.Keeps fun _ => True := by
  refine .bind ((copySource_issues chosen _ _).mono fun copyErr _ => ?_)
  refine .bind (.mono (unlessFailed_issues ?_) fun copyErr _ => ?_)
  · cases ownership with
    | none => exact trivial
    | some owner => exact ⟨UploadCall.keeps_temp chosen rfl, fun _ => trivial⟩
  refine .bind (.mono (unlessFailed_issues ?_) fun copyErr _ => ?_)
  · exact ⟨UploadCall.keeps_temp chosen rfl, fun _ => trivial⟩
  · refine ⟨UploadCall.keeps_temp chosen rfl, fun reply => ?_⟩
    dsimp only
    split <;> exact trivial

theorem publish_issues (chosen : call.temp = some temp) (posixRename : Bool) :
    (publish posixRename temp call.remotePath).Issues call.Keeps fun _ => True := by
  unfold publish
  split
  · exact ⟨UploadCall.keeps_both chosen rfl, fun _ => trivial⟩
  · refine ⟨fun path hpath => Or.inl (List.mem_singleton.mp hpath), fun reply => ?_⟩
    cases reply with
    | ok info => exact trivial
    | error err =>
        dsimp only
        split
        · exact trivial
        · exact ⟨UploadCall.keeps_both chosen rfl, fun _ => trivial⟩

theorem fillAndPublish_issues (chosen : call.temp = some temp) (mode : Nat)
    (ownership : Option Owner) :
    (fillAndPublish call temp mode ownership).Issues call.Keeps fun _ => True := by
  refine ⟨UploadCall.keeps_temp chosen rfl, fun reply => ?_⟩
  cases reply with
  | error err => exact ⟨UploadCall.keeps_temp chosen rfl, fun _ => trivial⟩
  | ok =>
      refine .bind ((fillFile_issues chosen _ _ _).mono fun failed _ => ?_)
      cases failed with
      | none => exact publish_issues chosen _
      | some err => exact trivial

theorem uploadWith_issues (mode : Nat) (ownership : Option Owner) :
    (uploadWith call mode ownership).Issues call.Keeps fun _ => True := by
  unfold uploadWith
  split
  · exact trivial
  · next nonce hrand =>
      have chosen : call.temp = some (tempPath call.remotePath nonce) := by
        simp [UploadCall.temp, hrand]
      refine ⟨UploadCall.keeps_temp chosen rfl, fun reply => ?_⟩
      cases reply with
      | error err => exact trivial
      | ok =>
          refine .bind ((fillAndPublish_issues chosen _ _).mono fun failed _ => ?_)
          cases failed with
          | none => exact trivial
          | some err => exact ⟨UploadCall.keeps_temp chosen rfl, fun _ => trivial⟩

/-- An upload names nothing but its destination and its temporary file. -/
theorem upload_issues (call : UploadCall) :
    (upload call).Issues call.Keeps fun _ => True := by
  refine ⟨fun path hpath => Or.inl (List.mem_singleton.mp hpath), fun reply => ?_⟩
  cases reply with
  | ok existing =>
      dsimp only
      split
      · exact trivial
      · exact uploadWith_issues _ _
  | error err =>
      dsimp only
      split
      · exact trivial
      · exact uploadWith_issues _ _

end Paths

section Events

variable (call : UploadCall) (event : Event sftp)

def Opens : Prop := ∃ temp, call.temp = some temp ∧ event = ⟨.openFile temp, .ok ()⟩

def Secures : Prop := ∃ temp, call.temp = some temp ∧ event = ⟨.chmod temp privateMode, .ok ()⟩

def Publishes : Prop := ∃ temp, call.temp = some temp ∧
  (event = ⟨.posixRename temp call.remotePath, .ok ()⟩ ∨
    event = ⟨.rename temp call.remotePath, .ok ()⟩)

def RemoveFails : Prop := ∃ temp err, call.temp = some temp ∧ event = ⟨.remove temp, .error err⟩

end Events

/-- The mode that the answer of the first `Lstat` asks for. -/
def seenPerm : Except StatusError FileInfo → Nat
  | .ok info => info.perm
  | .error _ => privateMode

def seenOwner : Except StatusError FileInfo → Option Owner
  | .ok info => info.sys
  | .error _ => none

/-- The whole source, with the attributes of the regular file that the first
`Lstat` saw, or private where it saw none. -/
def Complete (call : UploadCall) (history : List (Event sftp)) (node : Option Node) : Prop :=
  ∃ file seen, node = some (.regular file) ∧ call.source.failure = none ∧
    file.content = call.source.content ∧
    history.head? = some ⟨.lstat call.remotePath, seen⟩ ∧
    (∀ info, seen = .ok info → info.regular = true) ∧ file.perm = seenPerm seen ∧
    ∀ owner, seenOwner seen = some owner → file.owner = owner

section Steps

variable {κ : Type} (resolve : String → κ) (call : UploadCall)

def tempKey : Option κ := call.temp.map resolve

def destKey : κ := resolve call.remotePath

/-- What one step of an upload may do. -/
structure UploadStep (history : List (Event sftp)) (before : Tree κ) (event : Event sftp)
    (after : Tree κ) : Prop where
  elsewhere : ∀ k, tempKey resolve call ≠ some k → k ≠ destKey resolve call →
    after k = before k
  unpublished : ¬ Publishes call event → after (destKey resolve call) = before (destKey resolve call)
  published : Publishes call event → Complete call history (after (destKey resolve call)) ∧
    (call.posixRename = false → before (destKey resolve call) = none)
  secured : ∀ k, tempKey resolve call = some k → (∃ e ∈ history ++ [event], Opens call e) →
    ∀ file, after k = some (.regular file) → file.content ≠ [] →
      ∃ e ∈ history ++ [event], Secures call e

/-- The others leave the temporary file alone. -/
def uploadDiscipline : Discipline sftp (Tree κ) where
  rely := fun before after => ∀ k, tempKey resolve call = some k → after k = before k
  guarantee := UploadStep resolve call
  rely_refl := fun _ _ _ => rfl
  rely_trans := fun first second k hk => (second k hk).trans (first k hk)

/-- How an upload ends. -/
def Finished (failed : Option String) (history : List (Event sftp)) (tree : Tree κ) : Prop :=
  match failed with
  | none => (∃ e ∈ history, Publishes call e) ∧ ∀ k, tempKey resolve call = some k → tree k = none
  | some _ => (∀ e ∈ history, ¬ Publishes call e) ∧ ∀ k, tempKey resolve call = some k →
      (∃ e ∈ history, Opens call e) → tree k = none ∨ ∃ e ∈ history, RemoveFails call e

end Steps

/-! ## One upload under interference -/

section Rules

open Program

variable {κ : Type} {resolve : String → κ} {call : UploadCall} {temp : String}
  {seen : Except StatusError FileInfo} {history : List (Event sftp)} {tree : Tree κ}
  {event : Event sftp}

/-- The first `Lstat` let the upload go on, and nothing is published yet. -/
structure Begun (call : UploadCall) (seen : Except StatusError FileInfo)
    (history : List (Event sftp)) : Prop where
  first : history.head? = some ⟨.lstat call.remotePath, seen⟩
  regular : ∀ info, seen = .ok info → info.regular = true
  unpublished : ∀ e ∈ history, ¬ Publishes call e

theorem Begun.concat (begun : Begun call seen history) (quiet : ¬ Publishes call event) :
    Begun call seen (history ++ [event]) where
  first := by
    obtain ⟨front, hfront⟩ := List.head?_eq_some_iff.mp begun.first
    rw [hfront]
    rfl
  regular := begun.regular
  unpublished := by
    intro e he
    rcases List.mem_append.mp he with hold | hnew
    · exact begun.unpublished e hold
    · obtain rfl := List.mem_singleton.mp hnew
      exact quiet

/-- The temporary file is private and holds `file`. -/
structure Filling (resolve : String → κ) (call : UploadCall) (temp : String)
    (seen : Except StatusError FileInfo) (history : List (Event sftp)) (tree : Tree κ)
    (file : File) : Prop where
  begun : Begun call seen history
  secured : ∃ e ∈ history, Secures call e
  holds : tree (resolve temp) = some (.regular file)

theorem Filling.later {file : File} {later : Tree κ} (filling : Filling resolve call temp seen
    history tree file) (named : call.temp = some temp)
    (step : (uploadDiscipline resolve call).rely tree later) :
    Filling resolve call temp seen history later file where
  begun := filling.begun
  secured := filling.secured
  holds := by
    rw [step (resolve temp) (by rw [tempKey, named]; rfl)]
    exact filling.holds

theorem Filling.concat {file changed : File} {after : Tree κ} (filling : Filling resolve call temp
    seen history tree file) (quiet : ¬ Publishes call event)
    (holds : after (resolve temp) = some (.regular changed)) :
    Filling resolve call temp seen (history ++ [event]) after changed where
  begun := filling.begun.concat quiet
  secured := by
    obtain ⟨e, he, hsecures⟩ := filling.secured
    exact ⟨e, List.mem_append_left _ he, hsecures⟩
  holds := holds

/-- The temporary file holds nothing before it is private. -/
def Guarded (resolve : String → κ) (call : UploadCall) (temp : String)
    (history : List (Event sftp)) (tree : Tree κ) : Prop :=
  ∀ file, tree (resolve temp) = some (.regular file) → file.content ≠ [] →
    ∃ e ∈ history, Secures call e

theorem Guarded.concat (guarded : Guarded resolve call temp history tree) :
    Guarded resolve call temp (history ++ [event]) tree := by
  intro file hfile hcontent
  obtain ⟨e, he, hsecures⟩ := guarded file hfile hcontent
  exact ⟨e, List.mem_append_left _ he, hsecures⟩

theorem Guarded.later {later : Tree κ} (guarded : Guarded resolve call temp history tree)
    (named : call.temp = some temp) (step : (uploadDiscipline resolve call).rely tree later) :
    Guarded resolve call temp history later := by
  intro file hfile
  rw [step (resolve temp) (by rw [tempKey, named]; rfl)] at hfile
  exact guarded file hfile

theorem guarded_of_empty {file : File} (holds : tree (resolve temp) = some (.regular file))
    (empty : file.content = []) : Guarded resolve call temp history tree := by
  intro stored hstored hcontent
  rw [holds] at hstored
  obtain ⟨rfl⟩ := hstored
  exact absurd empty hcontent

theorem Filling.guarded {file : File} {after : Tree κ}
    (filling : Filling resolve call temp seen history tree file) :
    Guarded resolve call temp history after :=
  fun _ _ _ => filling.secured

/-- A step that touches only the temporary file. -/
theorem uploadStep_temp {after : Tree κ} (named : call.temp = some temp)
    (apart : resolve temp ≠ destKey resolve call) (quiet : ¬ Publishes call event)
    (frame : ∀ k, k ≠ resolve temp → after k = tree k)
    (guarded : Guarded resolve call temp (history ++ [event]) after) :
    UploadStep resolve call history tree event after where
  elsewhere := by
    intro k hk _
    refine frame k fun hsame => hk ?_
    rw [hsame, tempKey, named]
    rfl
  unpublished := fun _ => frame _ apart.symm
  published := fun hpublishes => absurd hpublishes quiet
  secured := by
    intro k hk _
    rw [tempKey, named] at hk
    obtain rfl := Option.some.inj hk
    exact guarded

theorem Filling.step {file : File} {after : Tree κ} (filling : Filling resolve call temp seen
    history tree file) (named : call.temp = some temp)
    (apart : resolve temp ≠ destKey resolve call) (quiet : ¬ Publishes call event)
    (frame : ∀ k, k ≠ resolve temp → after k = tree k) :
    UploadStep resolve call history tree event after :=
  uploadStep_temp named apart quiet frame filling.guarded.concat

/-- A step of a filling upload that leaves the tree as it is. -/
theorem Filling.idle {file : File} (filling : Filling resolve call temp seen history tree file)
    (named : call.temp = some temp) (apart : resolve temp ≠ destKey resolve call)
    (quiet : ¬ Publishes call event) :
    UploadStep resolve call history tree event tree ∧
      Filling resolve call temp seen (history ++ [event]) tree file :=
  ⟨filling.step named apart quiet fun _ _ => rfl, filling.concat quiet filling.holds⟩

theorem not_publishes {command : SftpCommand} {reply : command.Reply}
    (posix : ∀ source target, command ≠ .posixRename source target)
    (rename : ∀ source target, command ≠ .rename source target) :
    ¬ Publishes call ⟨command, reply⟩ := by
  rintro ⟨temp, -, hevent | hevent⟩
  · exact posix _ _ (congrArg Event.command hevent)
  · exact rename _ _ (congrArg Event.command hevent)

/-- How an upload stands before the deferred removal. -/
def Attempted (resolve : String → κ) (call : UploadCall) (temp : String)
    (seen : Except StatusError FileInfo) (failed : Option String) (history : List (Event sftp))
    (tree : Tree κ) : Prop :=
  match failed with
  | none => (∃ e ∈ history, Publishes call e) ∧ tree (resolve temp) = none
  | some _ => Begun call seen history ∧ Guarded resolve call temp history tree

/-- A filling upload has not published. -/
theorem Filling.attempted {file : File} {err : String}
    (filling : Filling resolve call temp seen history tree file) :
    Attempted resolve call temp seen (some err) history tree :=
  ⟨filling.begun, filling.guarded⟩

theorem not_opens_lstat {path : String} {reply : Except StatusError FileInfo} :
    ¬ Opens call ⟨.lstat path, reply⟩ := by
  rintro ⟨temp, -, hevent⟩
  cases hevent

theorem not_opens_refused {path : String} {err : StatusError} :
    ¬ Opens call ⟨.openFile path, .error err⟩ := by
  rintro ⟨temp, -, hevent⟩
  cases hevent

/-- A step before the temporary file is made. -/
theorem uploadStep_unopened (quiet : ¬ Publishes call event)
    (unopened : ∀ e ∈ history ++ [event], ¬ Opens call e) :
    UploadStep resolve call history tree event tree where
  elsewhere := fun _ _ _ => rfl
  unpublished := fun _ => rfl
  published := fun hpublishes => absurd hpublishes quiet
  secured := by
    rintro k - ⟨e, he, hopens⟩
    exact absurd hopens (unopened e he)

variable [DecidableEq κ]

theorem update_frame {k : κ} {node : Option Node} :
    ∀ other, other ≠ k → Function.update tree k node other = tree other :=
  fun _ hother => Function.update_of_ne hother _ _

/-- A step that may change the temporary file, and does when it succeeds. -/
theorem Filling.changed {file : File} {change : File → File} {reply : Except StatusError Unit}
    {after : Tree κ} (filling : Filling resolve call temp seen history tree file)
    (named : call.temp = some temp) (apart : resolve temp ≠ destKey resolve call)
    (quiet : ¬ Publishes call event) (changes : Changes change (resolve temp) tree reply after) :
    UploadStep resolve call history tree event after ∧
      ∃ changed, Filling resolve call temp seen (history ++ [event]) after changed ∧
        (reply = .ok () → changed = change file) := by
  rcases changes with ⟨stored, hstored, rfl, rfl⟩ | ⟨⟨err, rfl⟩, rfl⟩
  · rw [filling.holds] at hstored
    obtain ⟨rfl⟩ := hstored
    refine ⟨filling.step named apart quiet update_frame, change file, ?_, fun _ => rfl⟩
    exact filling.concat quiet (Function.update_self _ _ _)
  · exact ⟨filling.step named apart quiet fun _ _ => rfl, file, filling.concat quiet filling.holds, nofun⟩

/-- The post-condition of a part of the filling: the file it leaves when it fails and when
it does not. -/
abbrev Fills (resolve : String → κ) (call : UploadCall) (temp : String)
    (seen : Except StatusError FileInfo) (done : File → Prop) (failed : Option String)
    (history : List (Event sftp)) (tree : Tree κ) : Prop :=
  ∃ file, Filling resolve call temp seen history tree file ∧ (failed = none → done file)

theorem keeps_fills {file : File} {done : File → Prop} {failed : Option String}
    (named : call.temp = some temp)
    (filling : Filling resolve call temp seen history tree file)
    (holds : failed = none → done file) :
    Program.Keeps (sftpServer resolve) (uploadDiscipline resolve call)
      (Fills resolve call temp seen done) (.ret failed) history tree :=
  fun _ hlater => ⟨file, filling.later named hlater, holds⟩

theorem keeps_copySource {chunks : List Bytes} {failure : Option String} {file : File}
    (named : call.temp = some temp) (apart : resolve temp ≠ destKey resolve call)
    (filling : Filling resolve call temp seen history tree file) :
    (copySource temp chunks failure).Keeps (sftpServer resolve) (uploadDiscipline resolve call)
      (Fills resolve call temp seen fun copied => failure = none ∧
        copied = { file with content := file.content ++ chunks.flatten }) history tree := by
  induction chunks generalizing file history tree with
  | nil =>
      refine keeps_fills named filling fun hfailure => ⟨hfailure, ?_⟩
      rw [List.flatten_nil, List.append_nil]
  | cons chunk rest ih =>
      intro later hlater reply after answer
      have hfilling := filling.later named hlater
      have hquiet : ¬ Publishes call ⟨.write temp chunk, reply⟩ := not_publishes nofun nofun
      rcases answer with changes | ⟨⟨err, rfl⟩, part, stored, -, -, rfl⟩
      · obtain ⟨hstep, changed, hchanged, hok⟩ := hfilling.changed named apart hquiet changes
        refine ⟨hstep, ?_⟩
        cases reply with
        | error err => exact keeps_fills named hchanged nofun
        | ok _ =>
            obtain rfl := hok rfl
            have hrest := ih hchanged
            rwa [List.append_assoc, ← List.flatten_cons] at hrest
      · refine ⟨hfilling.step named apart hquiet update_frame, ?_⟩
        exact keeps_fills named (hfilling.concat hquiet (Function.update_self _ _ _)) nofun

theorem keeps_chownFile {ownership : Option Owner} {file : File} {done : File → Prop}
    (named : call.temp = some temp) (apart : resolve temp ≠ destKey resolve call)
    (filling : Filling resolve call temp seen history tree file)
    (holds : done { file with owner := ownership.getD file.owner }) :
    (chownFile temp ownership).Keeps (sftpServer resolve) (uploadDiscipline resolve call)
      (Fills resolve call temp seen done) history tree := by
  cases ownership with
  | none => exact keeps_fills named filling fun _ => holds
  | some owner =>
      intro later hlater reply after answer
      have hquiet : ¬ Publishes call ⟨.chown temp owner, reply⟩ := not_publishes nofun nofun
      obtain ⟨hstep, changed, hchanged, hok⟩ :=
        (filling.later named hlater).changed named apart hquiet answer
      refine ⟨hstep, ?_⟩
      cases reply with
      | error err => exact keeps_fills named hchanged nofun
      | ok _ => exact keeps_fills named hchanged fun _ => hok rfl ▸ holds

theorem keeps_chmod {mode : Nat} {file : File} {done : File → Prop}
    (named : call.temp = some temp) (apart : resolve temp ≠ destKey resolve call)
    (filling : Filling resolve call temp seen history tree file)
    (holds : done { file with perm := mode }) :
    Program.Keeps (sftpServer resolve) (uploadDiscipline resolve call)
      (Fills resolve call temp seen done)
      (.call (.chmod temp mode) fun reply => .ret (errOf reply)) history tree := by
  intro later hlater reply after answer
  have hquiet : ¬ Publishes call ⟨.chmod temp mode, reply⟩ := not_publishes nofun nofun
  obtain ⟨hstep, changed, hchanged, hok⟩ :=
    (filling.later named hlater).changed named apart hquiet answer
  refine ⟨hstep, ?_⟩
  cases reply with
  | error err => exact keeps_fills named hchanged nofun
  | ok _ => exact keeps_fills named hchanged fun _ => hok rfl ▸ holds

/-- A step that is only taken without an error keeps what the steps before it have done. -/
theorem keeps_unlessFailed {failed : Option String} {step : Sftp (Option String)}
    {before done : File → Prop} (named : call.temp = some temp)
    (fills : Fills resolve call temp seen before failed history tree)
    (taken : ∀ file, Filling resolve call temp seen history tree file → before file →
      step.Keeps (sftpServer resolve) (uploadDiscipline resolve call)
        (Fills resolve call temp seen done) history tree) :
    (unlessFailed failed step).Keeps (sftpServer resolve) (uploadDiscipline resolve call)
      (Fills resolve call temp seen done) history tree := by
  obtain ⟨file, hfilling, hbefore⟩ := fills
  cases failed with
  | some err => exact keeps_fills named hfilling nofun
  | none => exact taken file hfilling (hbefore rfl)

/-- The temporary file has the source and its owner; its mode is still private. -/
structure Owned (source : Source) (ownership : Option Owner) (file : File) : Prop where
  failure : source.failure = none
  content : file.content = source.content
  owner : ∀ owner, ownership = some owner → file.owner = owner

/-- The temporary file is what is to be published. -/
structure Filled (source : Source) (mode : Nat) (ownership : Option Owner) (file : File) : Prop
    extends Owned source ownership file where
  perm : file.perm = mode

theorem keeps_fillFile {mode : Nat} {ownership : Option Owner} {source : Source} {file : File}
    (named : call.temp = some temp) (apart : resolve temp ≠ destKey resolve call)
    (filling : Filling resolve call temp seen history tree file) (empty : file.content = []) :
    (fillFile temp mode ownership source).Keeps (sftpServer resolve)
      (uploadDiscipline resolve call)
      (Fills resolve call temp seen (Filled source mode ownership)) history tree := by
  refine Keeps.bind ((keeps_copySource named apart filling).mono fun failed events later copied => ?_)
  have howned : (unlessFailed failed (chownFile temp ownership)).Keeps (sftpServer resolve)
      (uploadDiscipline resolve call) (Fills resolve call temp seen (Owned source ownership))
      events later := by
    refine keeps_unlessFailed named copied ?_
    rintro full hfilling ⟨hfailure, rfl⟩
    refine keeps_chownFile named apart hfilling ⟨hfailure, ?_, ?_⟩
    · rw [empty]
      rfl
    · rintro owner rfl
      rfl
  refine Keeps.bind (howned.mono fun failed events later owned => ?_)
  have hfilled : (unlessFailed failed (.call (.chmod temp mode) fun reply => .ret (errOf reply))).Keeps
      (sftpServer resolve) (uploadDiscipline resolve call)
      (Fills resolve call temp seen (Filled source mode ownership)) events later := by
    refine keeps_unlessFailed named owned ?_
    rintro full hfilling howned
    exact keeps_chmod named apart hfilling ⟨⟨howned.failure, howned.content, howned.owner⟩, rfl⟩
  refine Keeps.bind (hfilled.mono fun failed events later filled => ?_)
  obtain ⟨full, hfilling, hfull⟩ := filled
  intro last hlast reply after answer
  obtain rfl : after = last := answer
  have hquiet : ¬ Publishes call ⟨.close temp, reply⟩ := not_publishes nofun nofun
  obtain ⟨hstep, hclosed⟩ := (hfilling.later named hlast).idle named apart hquiet
  refine ⟨hstep, ?_⟩
  cases failed with
  | some err => exact keeps_fills named hclosed nofun
  | none =>
      cases reply with
      | error err => exact keeps_fills named hclosed nofun
      | ok _ => exact keeps_fills named hclosed hfull

theorem keeps_attempted {failed : Option String} (named : call.temp = some temp)
    (attempted : Attempted resolve call temp seen failed history tree) :
    Program.Keeps (sftpServer resolve) (uploadDiscipline resolve call)
      (Attempted resolve call temp seen) (.ret failed) history tree := by
  intro later hlater
  cases failed with
  | some err => exact ⟨attempted.1, attempted.2.later named hlater⟩
  | none =>
      obtain ⟨hpublished, hgone⟩ := attempted
      refine ⟨hpublished, ?_⟩
      rw [hlater (resolve temp) (by rw [tempKey, named]; rfl)]
      exact hgone

/-- The rename puts the complete file in the place of the destination, or fails. -/
theorem Filling.moves {file : File} {reply : Except StatusError Unit}
    {after : Tree κ} (filling : Filling resolve call temp seen history tree file)
    (named : call.temp = some temp) (apart : resolve temp ≠ destKey resolve call)
    (filled : Filled call.source (seenPerm seen) (seenOwner seen) file)
    (publishes : reply = .ok () → Publishes call event)
    (quiet : ∀ err, reply = .error err → ¬ Publishes call event)
    (fresh : call.posixRename = false → reply = .ok () → tree (destKey resolve call) = none)
    (moves : Moves (resolve temp) (destKey resolve call) tree reply after) :
    UploadStep resolve call history tree event after ∧
      (reply = .ok () → after (resolve temp) = none) := by
  rcases moves with ⟨node, hnode, rfl, rfl⟩ | ⟨⟨err, rfl⟩, rfl⟩
  · rw [filling.holds] at hnode
    obtain rfl := Option.some.inj hnode
    refine ⟨⟨?_, fun hquiet => absurd (publishes rfl) hquiet, ?_, ?_⟩, fun _ => ?_⟩
    · intro k hk hdest
      have hne : k ≠ resolve temp := by
        rintro rfl
        exact hk (by rw [tempKey, named]; rfl)
      rw [Function.update_of_ne hdest, Function.update_of_ne hne]
    · refine fun _ => ⟨?_, fun hposix => fresh hposix rfl⟩
      rw [Function.update_self]
      exact ⟨file, seen, rfl, filled.failure, filled.content, filling.begun.first,
        filling.begun.regular, filled.perm, filled.owner⟩
    · intro k _ _ _ _ _
      obtain ⟨e, he, hsecures⟩ := filling.secured
      exact ⟨e, List.mem_append_left _ he, hsecures⟩
    · rw [Function.update_of_ne apart, Function.update_self]
  · exact ⟨filling.step named apart (quiet err rfl) fun _ _ => rfl, nofun⟩

/-- A rename that has been answered. -/
theorem keeps_moved {command : SftpCommand} {reply : Except StatusError Unit}
    {answer : command.Reply} {file : File} {before after : Tree κ} (named : call.temp = some temp)
    (apart : resolve temp ≠ destKey resolve call)
    (filling : Filling resolve call temp seen history before file)
    (filled : Filled call.source (seenPerm seen) (seenOwner seen) file)
    (publishes : reply = .ok () → Publishes call ⟨command, answer⟩)
    (quiet : ∀ err, reply = .error err → ¬ Publishes call ⟨command, answer⟩)
    (fresh : call.posixRename = false → reply = .ok () → before (destKey resolve call) = none)
    (moves : Moves (resolve temp) (destKey resolve call) before reply after) :
    UploadStep resolve call history before ⟨command, answer⟩ after ∧
      Program.Keeps (sftpServer resolve) (uploadDiscipline resolve call)
        (Attempted resolve call temp seen) (.ret (published reply))
        (history ++ [⟨command, answer⟩]) after := by
  obtain ⟨hstep, hgone⟩ := filling.moves named apart filled publishes quiet fresh moves
  refine ⟨hstep, keeps_attempted named ?_⟩
  cases reply with
  | error err => exact ⟨filling.begun.concat (quiet err rfl), filling.guarded.concat⟩
  | ok _ =>
      have hmem := List.mem_append_right history (List.mem_singleton_self (⟨command, answer⟩ : Event sftp))
      exact ⟨⟨_, hmem, publishes rfl⟩, hgone rfl⟩

theorem keeps_publish {file : File} (named : call.temp = some temp)
    (apart : resolve temp ≠ destKey resolve call)
    (filling : Filling resolve call temp seen history tree file)
    (filled : Filled call.source (seenPerm seen) (seenOwner seen) file) :
    (publish call.posixRename temp call.remotePath).Keeps (sftpServer resolve)
      (uploadDiscipline resolve call) (Attempted resolve call temp seen) history tree := by
  unfold publish
  split
  · next hposix =>
      intro later hlater reply after answer
      refine keeps_moved named apart (filling.later named hlater) filled ?_ ?_ ?_ answer
      · rintro rfl
        exact ⟨temp, named, Or.inl rfl⟩
      · rintro err rfl ⟨other, -, hevent | hevent⟩ <;> cases hevent
      · intro hplain
        rw [hplain] at hposix
        cases hposix
  · next hposix =>
      intro later hlater reply after answer
      obtain ⟨rfl, -⟩ := answer
      have hquiet : ¬ Publishes call ⟨.lstat call.remotePath, reply⟩ := not_publishes nofun nofun
      obtain ⟨hstep, hlooked⟩ := (filling.later named hlater).idle named apart hquiet
      refine ⟨hstep, ?_⟩
      cases reply with
      | ok info => exact keeps_attempted named hlooked.attempted
      | error err =>
          dsimp only
          split
          · exact keeps_attempted named hlooked.attempted
          · intro last hlast reply final answer
            have hready := hlooked.later named hlast
            rcases answer with ⟨habsent, hmoves⟩ | ⟨⟨err', rfl⟩, rfl⟩
            · refine keeps_moved named apart hready filled ?_ ?_ (fun _ _ => habsent) hmoves
              · rintro rfl
                exact ⟨temp, named, Or.inr rfl⟩
              · rintro err rfl ⟨other, -, hevent | hevent⟩ <;> cases hevent
            · have hfailed : ¬ Publishes call ⟨.rename temp call.remotePath, .error err'⟩ := by
                rintro ⟨other, -, hevent | hevent⟩ <;> cases hevent
              obtain ⟨hstep, hlast⟩ := hready.idle named apart hfailed
              exact ⟨hstep, keeps_attempted named hlast.attempted⟩

/-- The temporary file has just been made; it is empty and not yet private. -/
theorem keeps_fillAndPublish {file : File} (named : call.temp = some temp)
    (apart : resolve temp ≠ destKey resolve call) (begun : Begun call seen history)
    (holds : tree (resolve temp) = some (.regular file)) (empty : file.content = []) :
    (fillAndPublish call temp (seenPerm seen) (seenOwner seen)).Keeps (sftpServer resolve)
      (uploadDiscipline resolve call) (Attempted resolve call temp seen) history tree := by
  intro later hlater reply after answer
  have hholds : later (resolve temp) = some (.regular file) := by
    rw [hlater (resolve temp) (by rw [tempKey, named]; rfl)]
    exact holds
  have hquiet : ¬ Publishes call ⟨.chmod temp privateMode, reply⟩ := not_publishes nofun nofun
  rcases answer with ⟨stored, hstored, rfl, rfl⟩ | ⟨⟨err, rfl⟩, rfl⟩
  · rw [hholds] at hstored
    obtain ⟨rfl⟩ := hstored
    have hsecured : ∃ e ∈ history ++ [⟨.chmod temp privateMode, .ok ()⟩], Secures call e :=
      ⟨_, List.mem_append_right _ (List.mem_singleton_self _), temp, named, rfl⟩
    have hfilling : Filling resolve call temp seen
        (history ++ [⟨.chmod temp privateMode, .ok ()⟩])
        (Function.update later (resolve temp) (some (.regular { file with perm := privateMode })))
        { file with perm := privateMode } :=
      ⟨begun.concat hquiet, hsecured, Function.update_self _ _ _⟩
    refine ⟨uploadStep_temp named apart hquiet update_frame fun _ _ _ => hsecured, ?_⟩
    refine Keeps.bind ((keeps_fillFile named apart hfilling empty).mono ?_)
    rintro failed events final ⟨full, hfull, hfilled⟩
    cases failed with
    | some err => exact keeps_attempted named hfull.attempted
    | none => exact keeps_publish named apart hfull (hfilled rfl)
  · have hguarded : Guarded resolve call temp (history ++ [⟨.chmod temp privateMode, .error err⟩])
        after := guarded_of_empty hholds empty
    refine ⟨uploadStep_temp named apart hquiet (fun _ _ => rfl) hguarded, ?_⟩
    intro last hlast reply final answer
    obtain rfl : final = last := answer
    have hclosed : ¬ Publishes call ⟨.close temp, reply⟩ := not_publishes nofun nofun
    have hkept := hguarded.later named hlast
    refine ⟨uploadStep_temp named apart hclosed (fun _ _ => rfl) hkept.concat, ?_⟩
    exact keeps_attempted named ⟨(begun.concat hquiet).concat hclosed, hkept.concat⟩

/-- What has not been published is removed, unless the removal fails. -/
theorem keeps_removeUnlessPublished {failed : Option String} (named : call.temp = some temp)
    (apart : resolve temp ≠ destKey resolve call)
    (attempted : Attempted resolve call temp seen failed history tree) :
    (removeUnlessPublished temp failed).Keeps (sftpServer resolve) (uploadDiscipline resolve call)
      (Finished resolve call) history tree := by
  have htemp : tempKey resolve call = some (resolve temp) := by
    rw [tempKey, named]
    rfl
  cases failed with
  | none =>
      obtain ⟨hpublished, hgone⟩ := attempted
      refine fun later hlater => ⟨hpublished, fun k hk => ?_⟩
      rw [hlater k hk]
      obtain rfl := Option.some.inj (htemp.symm.trans hk)
      exact hgone
  | some err =>
      obtain ⟨hbegun, hguarded⟩ := attempted
      intro later hlater reply after answer
      have hquiet : ¬ Publishes call ⟨.remove temp, reply⟩ := not_publishes nofun nofun
      have hremoved := (hbegun.concat hquiet).unpublished
      rcases answer with ⟨-, rfl, rfl⟩ | ⟨⟨refusal, rfl⟩, rfl⟩
      · have hnone : Function.update later (resolve temp) none (resolve temp) = none :=
          Function.update_self _ _ _
        refine ⟨uploadStep_temp named apart hquiet update_frame ?_, ?_⟩
        · intro file hfile
          rw [hnone] at hfile
          cases hfile
        · refine fun last hlast => ⟨hremoved, fun k hk _ => Or.inl ?_⟩
          rw [hlast k hk]
          obtain rfl := Option.some.inj (htemp.symm.trans hk)
          exact hnone
      · refine ⟨uploadStep_temp named apart hquiet (fun _ _ => rfl) ?_, ?_⟩
        · exact hguarded.concat.later named hlater
        · refine fun last hlast => ⟨hremoved, fun k hk _ => Or.inr ?_⟩
          exact ⟨_, List.mem_append_right _ (List.mem_singleton_self _), temp, refusal, named, rfl⟩

/-- An upload that gives up before it has made its temporary file. -/
theorem keeps_unopened {err : String} (unpublished : ∀ e ∈ history, ¬ Publishes call e)
    (unopened : ∀ e ∈ history, ¬ Opens call e) :
    Program.Keeps (sftpServer resolve) (uploadDiscipline resolve call) (Finished resolve call)
      (.ret (some err)) history tree := by
  refine fun later _ => ⟨unpublished, fun _ _ opened => ?_⟩
  obtain ⟨e, he, hopens⟩ := opened
  exact absurd hopens (unopened e he)

theorem keeps_uploadWith (seen : Except StatusError FileInfo)
    (apart : ∀ temp, call.temp = some temp → resolve temp ≠ destKey resolve call)
    (regular : ∀ info, seen = .ok info → info.regular = true) :
    (uploadWith call (seenPerm seen) (seenOwner seen)).Keeps (sftpServer resolve)
      (uploadDiscipline resolve call) (Finished resolve call) [⟨.lstat call.remotePath, seen⟩]
      tree := by
  have hunpublished : ∀ e ∈ [(⟨.lstat call.remotePath, seen⟩ : Event sftp)], ¬ Publishes call e := by
    intro e he
    obtain rfl := List.mem_singleton.mp he
    exact not_publishes nofun nofun
  have hunopened : ∀ e ∈ [(⟨.lstat call.remotePath, seen⟩ : Event sftp)], ¬ Opens call e := by
    intro e he
    obtain rfl := List.mem_singleton.mp he
    exact not_opens_lstat
  cases hrand : call.rand with
  | none =>
      simp only [uploadWith, hrand]
      exact keeps_unopened hunpublished hunopened
  | some nonce =>
      have named : call.temp = some (tempPath call.remotePath nonce) := by
        rw [UploadCall.temp, hrand]
        rfl
      have hapart := apart _ named
      have hbegun : Begun call seen [⟨.lstat call.remotePath, seen⟩] := ⟨rfl, regular, hunpublished⟩
      simp only [uploadWith, hrand]
      intro later hlater reply after answer
      have hquiet : ¬ Publishes call ⟨.openFile (tempPath call.remotePath nonce), reply⟩ :=
        not_publishes nofun nofun
      rcases answer with ⟨habsent, rfl, perm, owner, rfl⟩ | ⟨⟨err, rfl⟩, rfl⟩
      · have hmade := Function.update_self (resolve (tempPath call.remotePath nonce))
          (some (Node.regular ⟨[], perm, owner⟩)) later
        refine ⟨uploadStep_temp named hapart hquiet update_frame (guarded_of_empty hmade rfl), ?_⟩
        refine Keeps.bind ((keeps_fillAndPublish named hapart (hbegun.concat hquiet) hmade rfl).mono ?_)
        intro failed events final attempted
        exact keeps_removeUnlessPublished named hapart attempted
      · have hopened : ∀ e ∈ [(⟨.lstat call.remotePath, seen⟩ : Event sftp)] ++
            [⟨.openFile (tempPath call.remotePath nonce), .error err⟩], ¬ Opens call e := by
          intro e he
          rcases List.mem_append.mp he with hfirst | hlast
          · exact hunopened e hfirst
          · obtain rfl := List.mem_singleton.mp hlast
            exact not_opens_refused
        exact ⟨uploadStep_unopened hquiet hopened,
          keeps_unopened (hbegun.concat hquiet).unpublished hopened⟩

/-- An upload keeps its discipline from every tree. -/
theorem keeps_upload (apart : ∀ temp, call.temp = some temp → resolve temp ≠ destKey resolve call) :
    (upload call).Keeps (sftpServer resolve) (uploadDiscipline resolve call)
      (Finished resolve call) [] tree := by
  intro later hlater seen after answer
  obtain ⟨rfl, -⟩ := answer
  have hquiet : ¬ Publishes call ⟨.lstat call.remotePath, seen⟩ := not_publishes nofun nofun
  have hunopened : ∀ e ∈ [] ++ [(⟨.lstat call.remotePath, seen⟩ : Event sftp)], ¬ Opens call e := by
    intro e he
    obtain rfl := List.mem_singleton.mp he
    exact not_opens_lstat
  have hunpublished : ∀ e ∈ [] ++ [(⟨.lstat call.remotePath, seen⟩ : Event sftp)],
      ¬ Publishes call e := by
    intro e he
    obtain rfl := List.mem_singleton.mp he
    exact hquiet
  refine ⟨uploadStep_unopened hquiet hunopened, ?_⟩
  cases seen with
  | ok info =>
      dsimp only
      split
      · exact keeps_unopened hunpublished hunopened
      · next hregular =>
          have hseen : ∀ other, (.ok info : Except StatusError FileInfo) = .ok other →
              other.regular = true := by
            rintro other ⟨⟩
            exact Bool.of_not_eq_false hregular
          exact keeps_uploadWith (.ok info) apart hseen
  | error err =>
      dsimp only
      split
      · exact keeps_unopened hunpublished hunopened
      · have hseen : ∀ other, (.error err : Except StatusError FileInfo) = .ok other →
            other.regular = true := nofun
        exact keeps_uploadWith (.error err) apart hseen

end Rules

/-! ## Uploads together -/

section Together

open Program World

variable {ι κ : Type} {resolve : String → κ} {calls : ι → UploadCall}

/-- The temporary files of different uploads are different, and none is a destination. -/
structure Apart (resolve : String → κ) (calls : ι → UploadCall) : Prop where
  distinct : ∀ {client other k}, tempKey resolve (calls client) = some k →
    tempKey resolve (calls other) = some k → client = other
  fresh : ∀ {client other k}, tempKey resolve (calls client) = some k →
    k ≠ destKey resolve (calls other)

theorem Apart.temp_ne_dest (apart : Apart resolve calls) (client : ι) :
    ∀ temp, (calls client).temp = some temp → resolve temp ≠ destKey resolve (calls client) := by
  intro temp named
  have htemp : tempKey resolve (calls client) = some (resolve temp) := by
    rw [tempKey, named]
    rfl
  exact apart.fresh htemp

/-- No step of an upload touches the temporary file of another. -/
theorem UploadStep.rely (apart : Apart resolve calls) {client other : ι} (different : client ≠ other)
    {history : List (Event sftp)} {before : Tree κ} {event : Event sftp} {after : Tree κ}
    (step : UploadStep resolve (calls client) history before event after) :
    (uploadDiscipline resolve (calls other)).rely before after := by
  intro k hk
  refine step.elsewhere k ?_ (apart.fresh hk)
  intro hsame
  exact different (apart.distinct hsame hk)

/-- Any number of uploads, each from its beginning. -/
def uploads (tree : Tree κ) (calls : ι → UploadCall) : World sftp (Tree κ) ι (Option String) :=
  ⟨tree, fun client => upload (calls client)⟩

variable {tree : Tree κ} {events back : List (ι × Event sftp)}
  {world before after : World sftp (Tree κ) ι (Option String)} {client : ι} {event : Event sftp}

theorem Complete.append {call : UploadCall} {history later : List (Event sftp)}
    {node : Option Node} (complete : Complete call history node) :
    Complete call (history ++ later) node := by
  obtain ⟨file, seen, hnode, hfailure, hcontent, hfirst, hrest⟩ := complete
  refine ⟨file, seen, hnode, hfailure, hcontent, ?_, hrest⟩
  obtain ⟨tail, rfl⟩ := List.head?_eq_some_iff.mp hfirst
  rfl

variable [DecidableEq ι]

/-- The entry has what it had at first, or the whole source of an upload that has
published to it. -/
def Whole (resolve : String → κ) (calls : ι → UploadCall) (tree : Tree κ)
    (events : List (ι × Event sftp)) (k : κ) (node : Option Node) : Prop :=
  node = tree k ∨ ∃ client, destKey resolve (calls client) = k ∧
    (∃ e ∈ ownEvents client events, Publishes (calls client) e) ∧
    Complete (calls client) (ownEvents client events) node

theorem Whole.append {k : κ} {node : Option Node} (whole : Whole resolve calls tree events k node) :
    Whole resolve calls tree (events ++ back) k node := by
  rcases whole with hsame | ⟨client, hdest, ⟨e, he, hpublishes⟩, hcomplete⟩
  · exact Or.inl hsame
  · refine Or.inr ⟨client, hdest, ⟨e, ?_, hpublishes⟩, ?_⟩
    · rw [ownEvents_append]
      exact List.mem_append_left _ he
    · rw [ownEvents_append]
      exact hcomplete.append

/-- What no upload uses as a temporary file is whole after every step of any of them. -/
theorem UploadStep.whole {first second : Tree κ} {k : κ}
    (step : UploadStep resolve (calls client) (ownEvents client events) first event second)
    (notTemp : tempKey resolve (calls client) ≠ some k)
    (whole : Whole resolve calls tree events k (first k)) :
    Whole resolve calls tree (events ++ [(client, event)]) k (second k) := by
  by_cases hdest : k = destKey resolve (calls client)
  · by_cases hpublishes : Publishes (calls client) event
    · refine Or.inr ⟨client, hdest.symm, ⟨event, ?_, hpublishes⟩, ?_⟩
      · rw [ownEvents_append, ownEvents_self]
        exact List.mem_append_right _ (List.mem_singleton_self event)
      · rw [ownEvents_append, hdest]
        exact (step.published hpublishes).1.append
    · rw [hdest, step.unpublished hpublishes, ← hdest]
      exact whole.append
  · rw [step.elsewhere k notTemp hdest]
    exact whole.append

variable [DecidableEq κ]

omit [DecidableEq ι] in
theorem keeps_uploads (apart : Apart resolve calls) (client : ι) :
    ((uploads tree calls).threads client).Keeps (sftpServer resolve)
      (uploadDiscipline resolve (calls client)) (Finished resolve (calls client)) []
      (uploads tree calls).store :=
  keeps_upload (apart.temp_ne_dest client)

/-- What any step of a run of uploads may do. -/
theorem uploadStep_of_run (apart : Apart resolve calls)
    (run : World.Steps (sftpServer resolve) (uploads tree calls) events before)
    (step : World.Step (sftpServer resolve) before client event after) :
    UploadStep resolve (calls client) (ownEvents client events) before.store event after.store :=
  Steps.guaranteed (fun client => uploadDiscipline resolve (calls client))
    (fun client => Finished resolve (calls client)) (UploadStep.rely apart) (keeps_uploads apart)
    run step

theorem finished_of_returned (apart : Apart resolve calls)
    (run : World.Steps (sftpServer resolve) (uploads tree calls) events world)
    {failed : Option String} (returned : world.threads client = .ret failed) :
    Finished resolve (calls client) failed (ownEvents client events) world.store :=
  Steps.postcondition (fun client => uploadDiscipline resolve (calls client))
    (fun client => Finished resolve (calls client)) (UploadStep.rely apart) (keeps_uploads apart)
    run returned

theorem whole_of_run (apart : Apart resolve calls)
    (run : World.Steps (sftpServer resolve) (uploads tree calls) events world) {k : κ}
    (notTemp : ∀ client, tempKey resolve (calls client) ≠ some k) :
    Whole resolve calls tree events k (world.store k) := by
  refine run.invariant (fun client => uploadDiscipline resolve (calls client))
    (fun client => Finished resolve (calls client)) (UploadStep.rely apart) (keeps_uploads apart)
    (fun events tree' => Whole resolve calls tree events k (tree' k)) (Or.inl rfl) ?_
  intro client events first event second whole step
  exact UploadStep.whole step (notTemp client) whole

/-- A temporary file that its upload has made holds nothing before it is private. -/
theorem secured_of_run (apart : Apart resolve calls)
    (run : World.Steps (sftpServer resolve) (uploads tree calls) events world) {k : κ}
    (htemp : tempKey resolve (calls client) = some k)
    (opened : ∃ e ∈ ownEvents client events, Opens (calls client) e) {file : File}
    (holds : world.store k = some (.regular file)) (nonempty : file.content ≠ []) :
    ∃ e ∈ ownEvents client events, Secures (calls client) e := by
  have hinvariant : (∃ e ∈ ownEvents client events, Opens (calls client) e) → ∀ file,
      world.store k = some (.regular file) → file.content ≠ [] →
        ∃ e ∈ ownEvents client events, Secures (calls client) e := by
    refine run.invariant (fun client => uploadDiscipline resolve (calls client))
      (fun client => Finished resolve (calls client)) (UploadStep.rely apart) (keeps_uploads apart)
      (fun events tree' => (∃ e ∈ ownEvents client events, Opens (calls client) e) → ∀ file,
        tree' k = some (.regular file) → file.content ≠ [] →
          ∃ e ∈ ownEvents client events, Secures (calls client) e) ?_ ?_
    · rintro ⟨e, he, -⟩
      cases he
    · intro active events first event second kept step opened file holds nonempty
      rw [ownEvents_append] at opened ⊢
      by_cases hactive : active = client
      · subst hactive
        rw [ownEvents_self] at opened ⊢
        exact step.secured k htemp opened file holds nonempty
      · rw [ownEvents_other hactive, List.append_nil] at opened ⊢
        have hsame : second k = first k := UploadStep.rely apart hactive step k htemp
        rw [hsame] at holds
        exact kept opened file holds nonempty
  exact hinvariant opened file holds nonempty

/-- An upload that has returned an error has left its destination alone. -/
theorem unchanged_of_failed (apart : Apart resolve calls)
    (run : World.Steps (sftpServer resolve) (uploads tree calls) events world) {err : String}
    (returned : world.threads client = .ret (some err))
    {front : List (ι × Event sftp)} (place : events = front ++ (client, event) :: back)
    (first : World.Steps (sftpServer resolve) (uploads tree calls) front before)
    (step : World.Step (sftpServer resolve) before client event after) :
    after.store (destKey resolve (calls client)) = before.store (destKey resolve (calls client)) := by
  refine (uploadStep_of_run apart first step).unpublished ?_
  refine (finished_of_returned apart run returned).1 event ?_
  rw [mem_ownEvents_iff, place]
  exact List.mem_append_right _ List.mem_cons_self

/-- An upload that has returned `nil` has, in one step, put its whole source at its
destination. -/
theorem published_of_succeeded (apart : Apart resolve calls)
    (run : World.Steps (sftpServer resolve) (uploads tree calls) events world)
    (returned : world.threads client = .ret none) :
    ∃ front event back before after, events = front ++ (client, event) :: back ∧
      World.Steps (sftpServer resolve) (uploads tree calls) front before ∧
      World.Step (sftpServer resolve) before client event after ∧
      World.Steps (sftpServer resolve) after back world ∧ Publishes (calls client) event ∧
      Complete (calls client) (ownEvents client front)
        (after.store (destKey resolve (calls client))) := by
  obtain ⟨⟨event, hmem, hpublishes⟩, -⟩ := finished_of_returned apart run returned
  obtain ⟨front, back, place⟩ := List.append_of_mem (mem_ownEvents_iff.mp hmem)
  obtain ⟨before, after, hfirst, hstep, hrest⟩ := run.split place
  have hpublished := (uploadStep_of_run apart hfirst hstep).published hpublishes
  exact ⟨front, event, back, before, after, place, hfirst, hstep, hrest, hpublishes, hpublished.1⟩

/-- Without the extension no step of an upload replaces an entry, its own temporary file
apart. -/
theorem kept_of_plain (apart : Apart resolve calls) (plain : (calls client).posixRename = false)
    (run : World.Steps (sftpServer resolve) (uploads tree calls) events before)
    (step : World.Step (sftpServer resolve) before client event after) {k : κ}
    (notTemp : tempKey resolve (calls client) ≠ some k) (existing : before.store k ≠ none) :
    after.store k = before.store k := by
  have hstep := uploadStep_of_run apart run step
  by_cases hdest : k = destKey resolve (calls client)
  · subst hdest
    refine hstep.unpublished fun hpublishes => existing ?_
    exact (hstep.published hpublishes).2 plain
  · exact hstep.elsewhere k notTemp hdest

/--
Uploads are atomic, in any interleaving of their requests and with any of them
failing.  What is no temporary file is at every moment as it was or the whole source
of an upload that has published to it; an upload that fails has never changed its
destination and leaves a temporary file only when its removal failed; one that
succeeds has published its whole source and its temporary file is gone; a temporary
file is private before it holds anything; and without the extension no existing entry
is replaced.
-/
theorem uploads_atomic (apart : Apart resolve calls)
    (run : World.Steps (sftpServer resolve) (uploads tree calls) events world) :
    (∀ k, (∀ client, tempKey resolve (calls client) ≠ some k) →
      Whole resolve calls tree events k (world.store k)) ∧
    (∀ client err, world.threads client = .ret (some err) →
      (∀ front event back before after, events = front ++ (client, event) :: back →
        World.Steps (sftpServer resolve) (uploads tree calls) front before →
        World.Step (sftpServer resolve) before client event after →
          after.store (destKey resolve (calls client)) =
            before.store (destKey resolve (calls client))) ∧
      ∀ k, tempKey resolve (calls client) = some k →
        (∃ e ∈ ownEvents client events, Opens (calls client) e) →
          world.store k = none ∨ ∃ e ∈ ownEvents client events, RemoveFails (calls client) e) ∧
    (∀ client, world.threads client = .ret none →
      (∃ front event back before after, events = front ++ (client, event) :: back ∧
        World.Steps (sftpServer resolve) (uploads tree calls) front before ∧
        World.Step (sftpServer resolve) before client event after ∧
        World.Steps (sftpServer resolve) after back world ∧ Publishes (calls client) event ∧
        Complete (calls client) (ownEvents client front)
          (after.store (destKey resolve (calls client)))) ∧
      ∀ k, tempKey resolve (calls client) = some k → world.store k = none) ∧
    (∀ client k file, tempKey resolve (calls client) = some k →
      (∃ e ∈ ownEvents client events, Opens (calls client) e) →
        world.store k = some (.regular file) → file.content ≠ [] →
          ∃ e ∈ ownEvents client events, Secures (calls client) e) ∧
    (∀ client event after k, (calls client).posixRename = false →
      World.Step (sftpServer resolve) world client event after →
        tempKey resolve (calls client) ≠ some k → world.store k ≠ none →
          after.store k = world.store k) := by
  refine ⟨?_, ?_, ?_, ?_, ?_⟩
  · intro k notTemp
    exact whole_of_run apart run notTemp
  · intro client err returned
    refine ⟨?_, (finished_of_returned apart run returned).2⟩
    intro front event back before after place first step
    exact unchanged_of_failed apart run returned place first step
  · intro client returned
    exact ⟨published_of_succeeded apart run returned, (finished_of_returned apart run returned).2⟩
  · intro client k file htemp opened holds nonempty
    exact secured_of_run apart run htemp opened holds nonempty
  · intro client event after k plain step notTemp existing
    exact kept_of_plain apart plain run step notTemp existing

end Together

/-! ## A server that does what it can -/

section Obliging

variable {κ : Type} [DecidableEq κ]

def refused : StatusError := ⟨true, "no such file"⟩

def changeAt (change : File → File) (k : κ) (tree : Tree κ) : Except StatusError Unit × Tree κ :=
  match tree k with
  | some (.regular file) => (.ok (), Function.update tree k (some (.regular (change file))))
  | _ => (.error refused, tree)

def moveTo (k target : κ) (tree : Tree κ) : Except StatusError Unit × Tree κ :=
  match tree k with
  | some node => (.ok (), Function.update (Function.update tree k none) target (some node))
  | none => (.error refused, tree)

def obligingServer (resolve : String → κ) (tree : Tree κ) :
    (command : SftpCommand) → command.Reply × Tree κ
  | .lstat path =>
      match tree (resolve path) with
      | some node => (.ok node.info, tree)
      | none => (.error refused, tree)
  | .openFile path =>
      match tree (resolve path) with
      | some _ => (.error refused, tree)
      | none => (.ok (), Function.update tree (resolve path) (some (.regular ⟨[], 0o644, ⟨0, 0⟩⟩)))
  | .chmod file mode => changeAt (fun stored => { stored with perm := mode }) (resolve file) tree
  | .write file data =>
      changeAt (fun stored => { stored with content := stored.content ++ data }) (resolve file) tree
  | .chown file owner => changeAt (fun stored => { stored with owner := owner }) (resolve file) tree
  | .close _ => (.ok (), tree)
  | .remove path =>
      match tree (resolve path) with
      | some _ => (.ok (), Function.update tree (resolve path) none)
      | none => (.error refused, tree)
  | .posixRename source target => moveTo (resolve source) (resolve target) tree
  | .rename source target =>
      match tree (resolve target) with
      | some _ => (.error refused, tree)
      | none => moveTo (resolve source) (resolve target) tree

theorem changes_changeAt (change : File → File) (k : κ) (tree : Tree κ) :
    Changes change k tree (changeAt change k tree).1 (changeAt change k tree).2 := by
  unfold changeAt
  split
  · next file hfile => exact Or.inl ⟨file, hfile, rfl, rfl⟩
  · exact Or.inr ⟨⟨refused, rfl⟩, rfl⟩

theorem moves_moveTo (k target : κ) (tree : Tree κ) :
    Moves k target tree (moveTo k target tree).1 (moveTo k target tree).2 := by
  unfold moveTo
  split
  · next node hnode => exact Or.inl ⟨node, hnode, rfl, rfl⟩
  · exact Or.inr ⟨⟨refused, rfl⟩, rfl⟩

/-- Its answers are among those that a server may give. -/
theorem obligingServer_answers (resolve : String → κ) (tree : Tree κ) (command : SftpCommand) :
    sftpServer resolve tree command (obligingServer resolve tree command).1
      (obligingServer resolve tree command).2 := by
  cases command with
  | lstat path =>
      dsimp only [obligingServer]
      split
      · next node hnode => exact ⟨rfl, Or.inl ⟨node, hnode, rfl⟩⟩
      · exact ⟨rfl, Or.inr ⟨refused, rfl⟩⟩
  | openFile path =>
      dsimp only [obligingServer]
      split
      · exact Or.inr ⟨⟨refused, rfl⟩, rfl⟩
      · next habsent => exact Or.inl ⟨habsent, rfl, 0o644, ⟨0, 0⟩, rfl⟩
  | chmod file mode => exact changes_changeAt _ _ _
  | write file data => exact Or.inl (changes_changeAt _ _ _)
  | chown file owner => exact changes_changeAt _ _ _
  | close file => exact rfl
  | remove path =>
      dsimp only [obligingServer]
      split
      · next node hnode => exact Or.inl ⟨hnode ▸ nofun, rfl, rfl⟩
      · exact Or.inr ⟨⟨refused, rfl⟩, rfl⟩
  | posixRename source target => exact moves_moveTo _ _ _
  | rename source target =>
      dsimp only [obligingServer]
      split
      · exact Or.inr ⟨⟨refused, rfl⟩, rfl⟩
      · next habsent => exact Or.inl ⟨habsent, moves_moveTo _ _ _⟩

end Obliging

/-- Two uploads to one file, on a server with the extension; one source breaks off. -/
def testUploads (client : Bool) : UploadCall where
  remotePath := "/srv/a"
  source := if client then ⟨[[1], [2]], none⟩ else ⟨[[3]], some "unexpected EOF"⟩
  rand := some ⟨List.replicate 16 (if client then 1 else 0), List.length_replicate⟩
  posixRename := true

def testTree : Tree String := fun path =>
  if path = "/srv/a" then some (.regular ⟨[7], 0o640, ⟨10, 20⟩⟩) else none

theorem testUploads_apart : Apart (id : String → String) testUploads where
  distinct := by
    intro client other k hclient hother
    have hinjective : ∀ client other, tempKey id (testUploads client) =
        tempKey id (testUploads other) → client = other := by decide +kernel
    exact hinjective client other (hclient.trans hother.symm)
  fresh := by
    rintro client other k hclient rfl
    have hfresh : ∀ client other, tempKey id (testUploads client) ≠
        some (destKey id (testUploads other)) := by decide +kernel
    exact hfresh client other hclient

/-- The uploads take turns. -/
def testUploadRun : List (Bool × Event sftp) × World sftp (Tree String) Bool (Option String) :=
  (uploads testTree testUploads).interleave (obligingServer id)
    [true, false, true, false, true, false, true, false, true, false, true, false, true, true, true]

theorem uploads_atomic_two :
    World.Steps (sftpServer id) (uploads testTree testUploads) testUploadRun.1 testUploadRun.2 ∧
      testUploadRun.2.threads true = .ret none ∧
      testUploadRun.2.threads false = .ret (some "upload: unexpected EOF") ∧
      testUploadRun.2.store "/srv/a" = some (.regular ⟨[1, 2], 0o640, ⟨10, 20⟩⟩) ∧
      Whole id testUploads testTree testUploadRun.1 "/srv/a" (testUploadRun.2.store "/srv/a") ∧
      ∀ k, tempKey id (testUploads true) = some k → testUploadRun.2.store k = none := by
  have run : World.Steps (sftpServer id) (uploads testTree testUploads) testUploadRun.1
      testUploadRun.2 := World.Steps.interleave (obligingServer_answers id) _ _
  have hdone : testUploadRun.2.threads true = .ret none :=
    World.threads_of_returned (by decide +kernel)
  have hfailed : testUploadRun.2.threads false = .ret (some "upload: unexpected EOF") :=
    World.threads_of_returned (by decide +kernel)
  have atomic := uploads_atomic testUploads_apart run
  refine ⟨run, hdone, hfailed, by decide +kernel, atomic.1 "/srv/a" ?_,
    (atomic.2.2.1 true hdone).2⟩
  intro client
  have hfresh : ∀ client, tempKey id (testUploads client) ≠ some "/srv/a" := by decide +kernel
  exact hfresh client

end OpsUp.SftpClient
