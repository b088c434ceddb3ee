import OpsUp.Api.RequestRuns

/-!
# The credentials a save stores

A save replaces at most the credential its authentication needs: with a submitted
value that has been encrypted, or with the private key of another server.  What it
is not given it keeps as its own row has it.
-/

namespace OpsUp.Api

open OpsUp.Crypto OpsUp.Go OpsUp.Interaction OpsUp.Models OpsUp.Database OpsUp.Storage

inductive Credential where
  | privateKey | password
  deriving DecidableEq, Repr

def Credential.ofServer (server : Server) : Credential → String
  | .privateKey => server.privateKey
  | .password => server.password

def Credential.ofPair (credentials : String × String) : Credential → String
  | .privateKey => credentials.1
  | .password => credentials.2

theorem ofServer_savedServer (req : ServerCreateReq) (id : Int) (credentials : String × String)
    (credential : Credential) :
    credential.ofServer (savedServer req id credentials) = credential.ofPair credentials := by
  cases credential <;> rfl

def Credential.ofRow (row : Row) : Credential → String
  | .privateKey => row.privateKey
  | .password => row.password.getD ""

/-- The request leaves this credential as the server's own row has it. -/
def KeepsStored (id : Int) (req : ServerCreateReq) : Credential → Prop
  | .privateKey => req.protocol ≠ "rdp" ∧ (req.authType = "password" ∨
      (req.privateKey = "" ∧ (req.copyKeyFrom ≤ 0 ∨ req.copyKeyFrom = id)))
  | .password => req.protocol ≠ "rdp" ∧ (req.authType ≠ "password" ∨ req.password = "")

/-- The private key a copy finds in the source row. -/
def sourceKey (source : Except String (Option Server)) : Except String String :=
  match source with
  | .error err => .error err
  | .ok none => .error errNoSourceKey
  | .ok (some server) =>
      if server.privateKey = "" then .error errNoSourceKey else .ok server.privateKey

/-- The value the request stores in a credential it does not keep. -/
def suppliedValue (gcm : GCM) (encKey : String) (rand : Option Nonce) (table : ServersTable)
    (req : ServerCreateReq) (credential : Credential) : Except String String :=
  if req.protocol = "rdp" then .ok ""
  else
    match credential with
    | .password => encrypt gcm rand (bytesOf req.password) encKey
    | .privateKey =>
        if req.privateKey ≠ "" then encrypt gcm rand (bytesOf req.privateKey) encKey
        else sourceKey (readServer table req.copyKeyFrom)

/-- The credential the request's authentication needs. -/
def neededCredential (req : ServerCreateReq) : Credential :=
  if req.authType = "password" then .password else .privateKey

section Stored

variable {gcm : GCM} {encKey : String} {rand : Option Nonce} {id : Int}
  {req : ServerCreateReq} {current other : Server}
  {source : Except String (Option Server)} {credentials : String × String}
  {table : ServersTable}

/-- The password a save with `auth_type` password stores. -/
def passwordValue (gcm : GCM) (encKey : String) (rand : Option Nonce) (req : ServerCreateReq)
    (stored : String) : Except String String :=
  if req.password ≠ "" then encrypt gcm rand (bytesOf req.password) encKey
  else if stored = "" then .error errPasswordRequired
  else .ok stored

/-- The private key a save with `auth_type` key stores. -/
def keyValue (gcm : GCM) (encKey : String) (rand : Option Nonce) (req : ServerCreateReq)
    (stored : String) (source : Except String (Option Server)) : Except String String :=
  if req.privateKey ≠ "" then encrypt gcm rand (bytesOf req.privateKey) encKey
  else if 0 < req.copyKeyFrom then sourceKey source
  else if stored = "" then .error errKeyRequired
  else .ok stored

theorem passwordCredentials_eq {privateKey password : String} :
    passwordCredentials gcm encKey rand req privateKey password =
      (passwordValue gcm encKey rand req password).map fun stored => (privateKey, stored) := by
  unfold passwordCredentials passwordValue encryptOrKeep
  by_cases hsubmitted : req.password = ""
  · by_cases hempty : password = ""
    · simp [hsubmitted, hempty, Except.map]
    · simp [hsubmitted, hempty, Except.map]
  · simp only [ne_eq, hsubmitted, not_false_eq_true, if_true]
    cases hencrypted : encrypt gcm rand (bytesOf req.password) encKey with
    | error err => rfl
    | ok text => simp only [if_neg (encrypt_ne_empty hencrypted), Except.map]

theorem keyCredentials_eq {privateKey password : String} :
    keyCredentials gcm encKey rand req privateKey password =
      (if req.privateKey ≠ "" then encrypt gcm rand (bytesOf req.privateKey) encKey
        else if privateKey = "" then .error errKeyRequired
        else .ok privateKey).map fun stored => (stored, password) := by
  unfold keyCredentials encryptOrKeep
  by_cases hsubmitted : req.privateKey = ""
  · by_cases hempty : privateKey = ""
    · simp [hsubmitted, hempty, Except.map]
    · simp [hsubmitted, hempty, Except.map]
  · simp only [ne_eq, hsubmitted, not_false_eq_true, if_true]
    cases hencrypted : encrypt gcm rand (bytesOf req.privateKey) encKey with
    | error err => rfl
    | ok text => simp only [if_neg (encrypt_ne_empty hencrypted), Except.map]

/-- A save replaces at most the credential its authentication needs. -/
theorem resolveWith_eq :
    resolveWith gcm encKey rand req (some current) source =
      if req.protocol = "rdp" then .ok ("", "")
      else if req.authType = "password" then
        (passwordValue gcm encKey rand req current.password).map
          fun stored => (current.privateKey, stored)
      else
        (keyValue gcm encKey rand req current.privateKey source).map
          fun stored => (stored, current.password) := by
  unfold resolveWith
  simp only [Option.map_some, Option.getD_some, passwordCredentials_eq]
  by_cases hrdp : req.protocol = "rdp"
  · simp only [if_pos hrdp]
  · simp only [if_neg hrdp]
    by_cases hauth : req.authType = "password"
    · simp only [if_pos hauth]
    · simp only [if_neg hauth, keyCredentials_eq, keyValue]
      by_cases hsubmitted : req.privateKey = ""
      · simp only [hsubmitted, ne_eq, not_true_eq_false, if_false, true_and]
        by_cases hcopy : 0 < req.copyKeyFrom
        · simp only [if_pos hcopy, sourceKey]
          rcases source with err | _ | server
          · rfl
          · rfl
          · dsimp only
            by_cases hempty : server.privateKey = ""
            · simp only [if_pos hempty, Except.map]
            · simp only [if_neg hempty, Except.map]
        · simp only [if_neg hcopy]
      · simp only [ne_eq, hsubmitted, not_false_eq_true, if_true, false_and, if_false]

/-- A save computes the same from rows that agree on what it takes from them. -/
theorem resolveWith_congr (id : Int) {source' : Except String (Option Server)}
    (password : KeepsStored id req .password → current.password = other.password)
    (key : KeepsStored id req .privateKey → req.authType = "password" ∨ req.copyKeyFrom ≤ 0 →
      current.privateKey = other.privateKey)
    (copied : req.protocol ≠ "rdp" → req.authType ≠ "password" → req.privateKey = "" →
      0 < req.copyKeyFrom → sourceKey source = sourceKey source') :
    resolveWith gcm encKey rand req (some current) source =
      resolveWith gcm encKey rand req (some other) source' := by
  rw [resolveWith_eq, resolveWith_eq]
  by_cases hrdp : req.protocol = "rdp"
  · rw [if_pos hrdp, if_pos hrdp]
  · rw [if_neg hrdp, if_neg hrdp]
    by_cases hauth : req.authType = "password"
    · have hkey := key ⟨hrdp, Or.inl hauth⟩ (Or.inl hauth)
      rw [if_pos hauth, if_pos hauth, hkey]
      unfold passwordValue
      by_cases hsubmitted : req.password = ""
      · rw [password ⟨hrdp, Or.inr hsubmitted⟩]
      · rw [if_pos hsubmitted, if_pos hsubmitted]
    · rw [if_neg hauth, if_neg hauth, password ⟨hrdp, Or.inl hauth⟩]
      unfold keyValue
      by_cases hsubmitted : req.privateKey = ""
      · by_cases hcopy : 0 < req.copyKeyFrom
        · rw [if_pos hcopy, if_pos hcopy, copied hrdp hauth hsubmitted hcopy]
        · have hnone := Int.not_lt.mp hcopy
          have hkey := key ⟨hrdp, Or.inr ⟨hsubmitted, Or.inl hnone⟩⟩ (Or.inr hnone)
          simp only [hkey, if_neg hcopy]
      · rw [if_pos hsubmitted, if_pos hsubmitted]

theorem passwordValue_ok_iff {value : String} (ssh : req.protocol ≠ "rdp")
    (auth : req.authType = "password") :
    passwordValue gcm encKey rand req current.password = .ok value ↔
      (KeepsStored id req .password ∧ value = current.password ∧ value ≠ "") ∨
      (¬ KeepsStored id req .password ∧
        suppliedValue gcm encKey rand table req .password = .ok value) := by
  have hkeeps : KeepsStored id req .password ↔ req.password = "" := by
    simp only [KeepsStored, ssh, auth, not_false_eq_true, ne_eq, not_true_eq_false, false_or,
      true_and]
  rw [hkeeps]
  unfold passwordValue suppliedValue
  rw [if_neg ssh]
  by_cases hsubmitted : req.password = ""
  · by_cases hempty : current.password = ""
    · simp [hsubmitted, hempty]
    · simp only [hsubmitted, ne_eq, not_true_eq_false, if_false, if_neg hempty, true_and,
        false_and, or_false, Except.ok.injEq]
      constructor
      · rintro rfl
        exact ⟨rfl, hempty⟩
      · exact fun ⟨hvalue, _⟩ => hvalue.symm
  · simp [hsubmitted]

theorem keyValue_ok_iff {value : String} (ssh : req.protocol ≠ "rdp")
    (auth : req.authType ≠ "password") (read : readServer table id = .ok (some current)) :
    keyValue gcm encKey rand req current.privateKey (readServer table req.copyKeyFrom) =
        .ok value ↔
      (KeepsStored id req .privateKey ∧ value = current.privateKey ∧ value ≠ "") ∨
      (¬ KeepsStored id req .privateKey ∧
        suppliedValue gcm encKey rand table req .privateKey = .ok value) := by
  have hkeeps : KeepsStored id req .privateKey ↔
      req.privateKey = "" ∧ (req.copyKeyFrom ≤ 0 ∨ req.copyKeyFrom = id) := by
    simp only [KeepsStored, ssh, auth, not_false_eq_true, ne_eq, false_or, true_and]
  have hstored : (if current.privateKey = "" then Except.error errKeyRequired
      else .ok current.privateKey) = .ok value ↔
        value = current.privateKey ∧ value ≠ "" := by
    by_cases hempty : current.privateKey = ""
    · simp [hempty]
    · simp only [if_neg hempty, Except.ok.injEq]
      constructor
      · rintro rfl
        exact ⟨rfl, hempty⟩
      · exact fun ⟨hvalue, _⟩ => hvalue.symm
  rw [hkeeps]
  unfold keyValue suppliedValue
  rw [if_neg ssh]
  by_cases hsubmitted : req.privateKey = ""
  · by_cases hcopy : 0 < req.copyKeyFrom
    · by_cases hown : req.copyKeyFrom = id
      · rw [hown] at hcopy ⊢
        simp only [hsubmitted, ne_eq, not_true_eq_false, if_false, if_pos hcopy, read,
          or_true, and_self, true_and, false_and, or_false, sourceKey]
        by_cases hempty : current.privateKey = ""
        · simp [hempty]
        · simpa only [if_neg hempty] using hstored
      · simp [hsubmitted, hcopy, hown, Int.not_le.mpr hcopy]
    · simp only [hsubmitted, ne_eq, not_true_eq_false, if_false, if_neg hcopy,
        Int.not_lt.mp hcopy, true_or, and_self, true_and, false_and, or_false]
      exact hstored
  · simp [hsubmitted]

/-- The value a save gives to the credential its authentication needs. -/
def NeededValue (gcm : GCM) (encKey : String) (rand : Option Nonce) (table : ServersTable)
    (id : Int) (req : ServerCreateReq) (current : Server) (value : String) : Prop :=
  (KeepsStored id req (neededCredential req) ∧
    value = (neededCredential req).ofServer current ∧ value ≠ "") ∨
  (¬ KeepsStored id req (neededCredential req) ∧
    suppliedValue gcm encKey rand table req (neededCredential req) = .ok value)

theorem map_eq_ok_iff {α β : Type} {f : α → β} {result : Except String α} {value : β} :
    result.map f = .ok value ↔ ∃ found, result = .ok found ∧ f found = value := by
  cases result <;> simp [Except.map]

/-- An SSH save stores the credential its authentication needs and keeps the other. -/
theorem resolveWith_ok_iff (ssh : req.protocol ≠ "rdp")
    (read : readServer table id = .ok (some current)) :
    resolveWith gcm encKey rand req (some current) (readServer table req.copyKeyFrom) =
        .ok credentials ↔
      NeededValue gcm encKey rand table id req current
        ((neededCredential req).ofPair credentials) ∧
      ∀ credential, credential ≠ neededCredential req →
        credential.ofPair credentials = credential.ofServer current := by
  obtain ⟨privateKey, password⟩ := credentials
  rw [resolveWith_eq, if_neg ssh]
  by_cases hauth : req.authType = "password"
  · have hneeded : neededCredential req = .password := if_pos hauth
    have hvalue : passwordValue gcm encKey rand req current.password = .ok password ↔
        NeededValue gcm encKey rand table id req current password := by
      unfold NeededValue
      rw [hneeded]
      exact passwordValue_ok_iff ssh hauth
    rw [if_pos hauth, map_eq_ok_iff, hneeded]
    constructor
    · rintro ⟨stored, hstored, hpair⟩
      obtain ⟨rfl, rfl⟩ := Prod.mk.inj hpair
      refine ⟨hvalue.mp hstored, fun credential hother => ?_⟩
      cases credential with
      | privateKey => rfl
      | password => exact absurd rfl hother
    · rintro ⟨hneed, hkept⟩
      have hkey : privateKey = current.privateKey := hkept .privateKey (by decide)
      exact ⟨password, hvalue.mpr hneed, by rw [hkey]⟩
  · have hneeded : neededCredential req = .privateKey := if_neg hauth
    have hvalue : keyValue gcm encKey rand req current.privateKey
        (readServer table req.copyKeyFrom) = .ok privateKey ↔
        NeededValue gcm encKey rand table id req current privateKey := by
      unfold NeededValue
      rw [hneeded]
      exact keyValue_ok_iff ssh hauth read
    rw [if_neg hauth, map_eq_ok_iff, hneeded]
    constructor
    · rintro ⟨stored, hstored, hpair⟩
      obtain ⟨rfl, rfl⟩ := Prod.mk.inj hpair
      refine ⟨hvalue.mp hstored, fun credential hother => ?_⟩
      cases credential with
      | privateKey => exact absurd rfl hother
      | password => rfl
    · rintro ⟨hneed, hkept⟩
      have hpassword : password = current.password := hkept .password (by decide)
      exact ⟨privateKey, hvalue.mpr hneed, by rw [hpassword]⟩

/-- An SSH save keeps the credential its authentication does not need. -/
theorem keepsStored_of_ne (ssh : req.protocol ≠ "rdp") {credential : Credential}
    (other : credential ≠ neededCredential req) : KeepsStored id req credential := by
  unfold neededCredential at other
  by_cases hauth : req.authType = "password"
  · rw [if_pos hauth] at other
    cases credential with
    | privateKey => exact ⟨ssh, Or.inl hauth⟩
    | password => exact absurd rfl other
  · rw [if_neg hauth] at other
    cases credential with
    | privateKey => exact absurd rfl other
    | password => exact ⟨ssh, Or.inl hauth⟩

/-- What a kept and a supplied credential become. -/
theorem resolved_credential (read : readServer table id = .ok (some current))
    (ok : resolveWith gcm encKey rand req (some current) (readServer table req.copyKeyFrom) =
      .ok credentials) (credential : Credential) :
    (KeepsStored id req credential →
      credential.ofPair credentials = credential.ofServer current) ∧
    (¬ KeepsStored id req credential →
      suppliedValue gcm encKey rand table req credential =
        .ok (credential.ofPair credentials)) := by
  by_cases hrdp : req.protocol = "rdp"
  · rw [resolveWith_rdp hrdp] at ok
    cases ok
    have hempty : credential.ofPair ("", "") = "" := by cases credential <;> rfl
    refine ⟨fun hkept => ?_, fun _ => ?_⟩
    · cases credential <;> exact absurd hrdp hkept.1
    · rw [hempty]
      exact if_pos hrdp
  · obtain ⟨hneed, hothers⟩ := (resolveWith_ok_iff hrdp read).mp ok
    by_cases hneeded : credential = neededCredential req
    · subst hneeded
      rcases hneed with ⟨hkept, hvalue, -⟩ | ⟨hkept, hvalue⟩
      · exact ⟨fun _ => hvalue, fun hnot => absurd hkept hnot⟩
      · exact ⟨fun hyes => absurd hyes hkept, fun _ => hvalue⟩
    · exact ⟨fun _ => hothers credential hneeded,
        fun hnot => absurd (keepsStored_of_ne hrdp hneeded) hnot⟩

/-- A save goes through exactly when the credential it needs is there. -/
theorem exists_resolved_iff (read : readServer table id = .ok (some current)) :
    (∃ credentials, resolveWith gcm encKey rand req (some current)
        (readServer table req.copyKeyFrom) = .ok credentials) ↔
      (KeepsStored id req (neededCredential req) →
        (neededCredential req).ofServer current ≠ "") ∧
      (¬ KeepsStored id req (neededCredential req) →
        ∃ value, suppliedValue gcm encKey rand table req (neededCredential req) = .ok value) := by
  by_cases hrdp : req.protocol = "rdp"
  · have hkept : ¬ KeepsStored id req (neededCredential req) := by
      cases neededCredential req <;> exact fun hkept => hkept.1 hrdp
    exact ⟨fun _ => ⟨fun h => absurd h hkept, fun _ => ⟨"", if_pos hrdp⟩⟩,
      fun _ => ⟨("", ""), resolveWith_rdp hrdp⟩⟩
  · have build : ∀ value, NeededValue gcm encKey rand table id req current value →
        ∃ credentials, resolveWith gcm encKey rand req (some current)
          (readServer table req.copyKeyFrom) = .ok credentials := by
      intro value hneed
      cases hneeded : neededCredential req with
      | privateKey =>
          refine ⟨(value, current.password), (resolveWith_ok_iff hrdp read).mpr ⟨?_, ?_⟩⟩
          · rw [hneeded]
            exact hneed
          · intro credential hother
            cases credential with
            | privateKey => exact absurd hneeded.symm hother
            | password => rfl
      | password =>
          refine ⟨(current.privateKey, value), (resolveWith_ok_iff hrdp read).mpr ⟨?_, ?_⟩⟩
          · rw [hneeded]
            exact hneed
          · intro credential hother
            cases credential with
            | privateKey => rfl
            | password => exact absurd hneeded.symm hother
    constructor
    · rintro ⟨credentials, ok⟩
      rcases ((resolveWith_ok_iff hrdp read).mp ok).1 with ⟨hkept, hvalue, hne⟩ | ⟨hkept, hvalue⟩
      · exact ⟨fun _ => hvalue ▸ hne, fun hnot => absurd hkept hnot⟩
      · exact ⟨fun hyes => absurd hyes hkept, fun _ => ⟨_, hvalue⟩⟩
    · rintro ⟨hkept, hsupplied⟩
      by_cases hkeeps : KeepsStored id req (neededCredential req)
      · exact build _ (Or.inl ⟨hkeeps, rfl, hkept hkeeps⟩)
      · obtain ⟨value, hvalue⟩ := hsupplied hkeeps
        exact build value (Or.inr ⟨hkeeps, hvalue⟩)

/-- A supplied value does not come from the own row. -/
theorem suppliedValue_congr {other : ServersTable} {credential : Credential}
    (supplies : ¬ KeepsStored id req credential)
    (beside : ∀ key, key ≠ id → readServer table key = readServer other key) :
    suppliedValue gcm encKey rand table req credential =
      suppliedValue gcm encKey rand other req credential := by
  unfold suppliedValue
  by_cases hrdp : req.protocol = "rdp"
  · rw [if_pos hrdp, if_pos hrdp]
  · cases credential with
    | password => rfl
    | privateKey =>
        by_cases hsubmitted : req.privateKey = ""
        · have hother : req.copyKeyFrom ≠ id := fun hown =>
            supplies ⟨hrdp, Or.inr ⟨hsubmitted, Or.inr hown⟩⟩
          rw [beside _ hother]
        · simp only [ne_eq, hsubmitted, not_false_eq_true, if_true]

end Stored

end OpsUp.Api
