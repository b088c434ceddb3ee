import OpsUp.Configuration.Load

/-!
# Runs on the secrets file

What `loadOrCreateSecrets` does to the disk at each of its calls, and what it leaves
behind, whichever of them fails.
-/

namespace OpsUp.Configuration

open OpsUp.Go OpsUp.Interaction OpsUp.Posix Program

/-- The secrets that are made of two random values. -/
def freshSecrets (jwt key : Bytes) : Secrets :=
  ⟨bytesOf (hexEncodeToString jwt), bytesOf (hexEncodeToString key)⟩

def secretsData (stored : Secrets) : Bytes := marshalSecrets stored ++ [0x0a]

theorem length_bytesOf_hex (bytes : Bytes) :
    (bytesOf (hexEncodeToString bytes)).length = 2 * bytes.length := by
  rw [bytesOf_ascii (hexEncodeToString_ascii bytes), textBytes, List.length_map,
    hexEncodeToString, String.toList_ofList, length_hexChars]

/-- Hexadecimal digits need no escape. -/
theorem plain_bytesOf_hex (bytes : Bytes) :
    ∀ b ∈ bytesOf (hexEncodeToString bytes), PlainByte b ∧ b < 0x80 := by
  intro b hb
  rw [bytesOf_ascii (hexEncodeToString_ascii bytes), textBytes, hexEncodeToString,
    String.toList_ofList] at hb
  obtain ⟨c, hc, rfl⟩ := List.mem_map.mp hb
  have hlower := isLowerHex_iff.mp (isLowerHex_of_mem_hexChars hc)
  have hbyte : (UInt8.ofNat c.toNat).toNat = c.toNat := by
    rw [UInt8.toNat_ofNat']
    omega
  simp only [PlainByte, ne_eq, ← UInt8.toNat_inj, UInt8.lt_iff_toNat_lt, hbyte, UInt8.reduceToNat]
  omega

theorem freshSecrets_plain (jwt key : Bytes) : (freshSecrets jwt key).Plain :=
  ⟨plain_bytesOf_hex jwt, plain_bytesOf_hex key⟩

variable {κ : Type} [DecidableEq κ]

/-- The ways in which `loadOrCreateSecrets` ends. -/
inductive Outcome (resolve : Bytes → κ) (faults : Prop) (path : Bytes) (before : Files κ)
    (result : Except String Secrets) (drawn : List Bytes) (wrote : List (Bytes × Nat))
    (after : Files κ) : Prop where
  /-- a fault, before there is a new file or after an old one was read -/
  | stopped (fault : faults) (failed : ∃ err, result = .error err) (same : after = before)
      (unwritten : wrote = [])
  | read {content : Bytes} (found : before (resolve path) = some content) (same : after = before)
      (undrawn : drawn = []) (value : unmarshalSecrets content = none ∧ (∃ err, result = .error err) ∨
        ∃ stored, unmarshalSecrets content = some stored ∧ result = .ok stored)
  | created {jwt key : Bytes} {stored : Nat} (absent : before (resolve path) = none)
      (sizes : jwt.length = 32 ∧ key.length = 32) (received : drawn = [jwt, key])
      (written : wrote = [(secretsData (freshSecrets jwt key), stored)])
      (holds : after (resolve path) = some ((secretsData (freshSecrets jwt key)).take stored))
      (value : faults ∧ (∃ err, result = .error err) ∨
        (secretsData (freshSecrets jwt key)).length ≤ stored ∧ result = .ok (freshSecrets jwt key))

section Runs

variable {resolve : Bytes → κ} {faults : Prop} {explain : Bytes → String} {path : Bytes}
  {before files : Files κ} {history : List (Event diskCalls)} {jwt key : Bytes}

/-- Alone on the disk, a program adds the secrets file at most. -/
def addingSecrets (resolve : Bytes → κ) (path : Bytes) (before : Files κ) :
    Discipline diskCalls (Files κ) :=
  .alone fun _ _ _ after => OnlyAdds (resolve path) before after

/-- What is promised of every end. -/
def Ends (resolve : Bytes → κ) (faults : Prop) (path : Bytes) (before : Files κ)
    (result : Except String Secrets) (events : List (Event diskCalls)) (after : Files κ) : Prop :=
  Outcome resolve faults path before result (draws events) (writes events) after

/-- Closing the file changes nothing. -/
theorem close_keeps {result : Except String Secrets}
    (adds : OnlyAdds (resolve path) before files)
    (ends : Ends resolve faults path before result history files) :
    Keeps (disk resolve faults) (addingSecrets resolve path before)
      (Ends resolve faults path before) (.call (.close path) fun _ => .ret result) history files := by
  refine keeps_alone_call ?_
  rintro reply after ⟨rfl, -⟩
  refine ⟨adds, keeps_alone_ret ?_⟩
  simpa [Ends, draws, writes] using ends

theorem writeSecrets_keeps (absent : before (resolve path) = none)
    (adds : OnlyAdds (resolve path) before files) (empty : files (resolve path) = some [])
    (sizes : jwt.length = 32 ∧ key.length = 32) (drawn : draws history = [jwt, key])
    (unwritten : writes history = []) :
    Keeps (disk resolve faults) (addingSecrets resolve path before)
      (Ends resolve faults path before)
      (writeSecrets path (freshSecrets jwt key) >>= fun result =>
        .call (.close path) fun _ => .ret result) history files := by
  refine keeps_alone_call ?_
  rintro ⟨stored, failure⟩ after ⟨rfl, -, hreply⟩
  have hadds := adds.update absent ((files (resolve path)).map fun content =>
    content ++ (secretsData (freshSecrets jwt key)).take stored)
  have hholds : Function.update files (resolve path) ((files (resolve path)).map fun content =>
      content ++ (secretsData (freshSecrets jwt key)).take stored) (resolve path) =
        some ((secretsData (freshSecrets jwt key)).take stored) := by
    rw [Function.update_self, empty]
    rfl
  refine ⟨hadds, ?_⟩
  rcases hreply with ⟨hstored, rfl⟩ | ⟨hfault, hfailure⟩
  · refine keeps_alone_call ?_
    rintro reply after ⟨rfl, hsync⟩
    refine ⟨hadds, ?_⟩
    rcases hsync with rfl | ⟨hfault, err, rfl⟩
    · refine close_keeps hadds (.created absent sizes ?_ ?_ hholds (Or.inr ⟨hstored.ge, rfl⟩))
      · simpa [draws] using drawn
      · rw [writes_append, writes_append, unwritten]
        rfl
    · refine close_keeps hadds (.created absent sizes ?_ ?_ hholds (Or.inl ⟨hfault, _, rfl⟩))
      · simpa [draws] using drawn
      · rw [writes_append, writes_append, unwritten]
        rfl
  · obtain ⟨err, rfl⟩ := Option.ne_none_iff_exists'.mp hfailure
    refine close_keeps hadds (.created absent sizes ?_ ?_ hholds (Or.inl ⟨hfault, _, rfl⟩))
    · simpa [draws] using drawn
    · rw [writes_append, unwritten]
      rfl

theorem createSecrets_keeps (absent : before (resolve path) = none)
    (sizes : jwt.length = 32 ∧ key.length = 32) (drawn : draws history = [jwt, key])
    (unwritten : writes history = []) :
    Keeps (disk resolve faults) (addingSecrets resolve path before)
      (Ends resolve faults path before) (createSecrets path (freshSecrets jwt key)) history
      before := by
  refine keeps_alone_call ?_
  rintro reply after (⟨-, rfl, rfl⟩ | ⟨hrefused, ⟨err, rfl⟩, rfl⟩)
  · have hadds := (OnlyAdds.refl (resolve path) before).update absent (some [])
    refine ⟨hadds, writeSecrets_keeps absent hadds (Function.update_self _ _ _) sizes ?_ ?_⟩
    · simpa [draws] using drawn
    · simpa [writes] using unwritten
  · refine ⟨.refl _ _, keeps_alone_ret (.stopped ?_ ⟨_, rfl⟩ rfl ?_)⟩
    · exact hrefused.resolve_left fun hpresent => hpresent absent
    · simpa [writes] using unwritten

theorem generateSecrets_keeps (absent : before (resolve path) = none)
    (undrawn : draws history = []) (unwritten : writes history = []) :
    Keeps (disk resolve faults) (addingSecrets resolve path before)
      (Ends resolve faults path before) (generateSecrets path) history before := by
  refine keeps_alone_call ?_
  rintro reply after ⟨rfl, ⟨jwt, hjwt, rfl⟩ | ⟨hfault, err, rfl⟩⟩
  · refine ⟨.refl _ _, keeps_alone_call ?_⟩
    rintro reply after ⟨rfl, ⟨key, hkey, rfl⟩ | ⟨hfault, err, rfl⟩⟩
    · refine ⟨.refl _ _, createSecrets_keeps absent ⟨hjwt, hkey⟩ ?_ ?_⟩
      · rw [draws_append, draws_append, undrawn]
        rfl
      · simpa [writes] using unwritten
    · refine ⟨.refl _ _, keeps_alone_ret (.stopped hfault ⟨_, rfl⟩ rfl ?_)⟩
      simpa [writes] using unwritten
  · refine ⟨.refl _ _, keeps_alone_ret (.stopped hfault ⟨_, rfl⟩ rfl ?_)⟩
    simpa [writes] using unwritten

theorem readSecrets_keeps {content : Bytes} (found : before (resolve path) = some content)
    (undrawn : draws history = []) (unwritten : writes history = []) :
    Keeps (disk resolve faults) (addingSecrets resolve path before)
      (Ends resolve faults path before) (readSecrets explain path content) history before := by
  unfold readSecrets
  cases hcontent : unmarshalSecrets content with
  | none => exact keeps_alone_ret (.read found rfl undrawn (Or.inl ⟨hcontent, _, rfl⟩))
  | some stored =>
      refine keeps_alone_call ?_
      rintro reply after ⟨rfl, rfl | ⟨hfault, err, rfl⟩⟩
      · refine ⟨.refl _ _, keeps_alone_ret (.read found rfl ?_ (Or.inr ⟨stored, hcontent, rfl⟩))⟩
        simpa [draws] using undrawn
      · refine ⟨.refl _ _, keeps_alone_ret (.stopped hfault ⟨_, rfl⟩ rfl ?_)⟩
        simpa [writes] using unwritten

theorem loadOrCreateSecrets_keeps :
    Keeps (disk resolve faults) (addingSecrets resolve path before)
      (Ends resolve faults path before) (loadOrCreateSecrets explain path) [] before := by
  refine keeps_alone_call ?_
  rintro reply after ⟨rfl, ⟨habsent, text, rfl⟩ | ⟨content, hfound, rfl⟩ | ⟨hfault, text, rfl⟩⟩
  · refine ⟨.refl _ _, keeps_alone_call ?_⟩
    rintro reply after ⟨rfl, rfl | ⟨hfault, err, rfl⟩⟩
    · exact ⟨.refl _ _, generateSecrets_keeps habsent rfl rfl⟩
    · exact ⟨.refl _ _, keeps_alone_ret (.stopped hfault ⟨_, rfl⟩ rfl rfl)⟩
  · exact ⟨.refl _ _, readSecrets_keeps hfound rfl rfl⟩
  · exact ⟨.refl _ _, keeps_alone_ret (.stopped hfault ⟨_, rfl⟩ rfl rfl)⟩

/-- What any complete run of `loadOrCreateSecrets` comes to. -/
theorem outcome_of_executes {events : List (Event diskCalls)} {result : Except String Secrets}
    {after : Files κ} (run : Executes (disk resolve faults) (loadOrCreateSecrets explain path)
      before events result after) :
    Outcome resolve faults path before result (draws events) (writes events) after :=
  Executes.postcondition (addingSecrets resolve path before) (Ends resolve faults path before) run
    loadOrCreateSecrets_keeps

/-- The calls up to the new file, when none of them fails. -/
def openingCalls (path jwt key : Bytes) : List (Event diskCalls) :=
  [⟨.readFile path, .error ⟨true, "no such file or directory"⟩⟩,
    ⟨.mkdirAll (textBytes (dirPath (byteText path))) 0o700, .ok ()⟩, ⟨.random 32, .ok jwt⟩,
    ⟨.random 32, .ok key⟩, ⟨.openFile path 0o600, .ok ()⟩]

/-- A run that opens the new file goes on with the write. -/
theorem executes_of_opened {events : List (Event diskCalls)} {result : Except String Secrets}
    {after : Files κ} (absent : before (resolve path) = none)
    (sizes : jwt.length = 32 ∧ key.length = 32)
    (run : Executes (disk resolve faults)
      (writeSecrets path (freshSecrets jwt key) >>= fun result =>
        .call (.close path) fun _ => .ret result)
      (Function.update before (resolve path) (some [])) events result after) :
    Executes (disk resolve faults) (loadOrCreateSecrets explain path) before
      (openingCalls path jwt key ++ events) result after := by
  have hread : disk resolve faults before (.readFile path)
      (.error ⟨true, "no such file or directory"⟩) before := ⟨rfl, Or.inl ⟨absent, _, rfl⟩⟩
  have hopen : disk resolve faults before (.openFile path 0o600) (.ok ())
      (Function.update before (resolve path) (some [])) := Or.inl ⟨absent, rfl, rfl⟩
  exact .call hread (.call ⟨rfl, Or.inl rfl⟩ (.call ⟨rfl, Or.inl ⟨jwt, sizes.1, rfl⟩⟩
    (.call ⟨rfl, Or.inl ⟨key, sizes.2, rfl⟩⟩ (.call hopen run))))

end Runs

end OpsUp.Configuration
