import OpsUp.Auth.Token
import OpsUp.Models.User

/-!
# The first administrator

`AuthSetup` counts the users, checks and hashes the password and inserts the first
user.  The early count can be overtaken by other requests; the conditional insert
decides.
-/

namespace OpsUp.Api

open OpsUp.Auth OpsUp.Go OpsUp.Interaction OpsUp.Models OpsUp.Storage

/-! ## The request -/

structure SetupRequest where
  username : String
  password : String
  deriving DecidableEq, Repr

/-- What decoding the JSON body yields. -/
abbrev SetupBody := Except String SetupRequest

def setupFieldError (field tag : String) : String :=
  "Key: 'setupRequest." ++ field ++ "' Error:Field validation for '" ++ field ++
    "' failed on the '" ++ tag ++ "' tag"

/-- The first tag of `binding:"required,min=3,max=64"` that fails. -/
def usernameTag (username : String) : Option String :=
  if username = "" then some "required"
  else if username.length < 3 then some "min"
  else if 64 < username.length then some "max"
  else none

/-- The first tag of `binding:"required,min=12"` that fails. -/
def passwordTag (password : String) : Option String :=
  if password = "" then some "required"
  else if password.length < 12 then some "min"
  else none

def setupErrors (req : SetupRequest) : List String :=
  ((usernameTag req.username).map (setupFieldError "Username")).toList ++
    ((passwordTag req.password).map (setupFieldError "Password")).toList

def bindSetup (body : SetupBody) : Except String SetupRequest :=
  match body with
  | .error err => .error err
  | .ok req =>
      if setupErrors req = [] then .ok req else .error ("\n".intercalate (setupErrors req))

def maxPasswordBytes : Nat := 72

/-! ## The response -/

inductive AuthResponseBody where
  | error (text : String)
  | session (token : String) (expiresAt : Time) (username : String)
  deriving DecidableEq, Repr

structure AuthResponse where
  status : Nat
  body : AuthResponseBody
  deriving DecidableEq, Repr

def initializationFailed : AuthResponse := ⟨500, .error "failed to read initialization status"⟩
def alreadyInitialized : AuthResponse := ⟨403, .error "already initialized"⟩
def invalidSetup (err : String) : AuthResponse := ⟨400, .error err⟩
def passwordTooLong : AuthResponse := ⟨400, .error "password must not exceed 72 UTF-8 bytes"⟩
def hashFailed : AuthResponse := ⟨500, .error "failed to hash password"⟩
def creationFailed : AuthResponse := ⟨500, .error "failed to create administrator"⟩
def sessionFailed : AuthResponse := ⟨500, .error "failed to create session"⟩

/-! ## The handler -/

inductive SetupCommand where
  /-- `bcrypt.GenerateFromPassword`, which draws a salt. -/
  | hashPassword (password : String)
  /-- `time.Now()` -/
  | now

@[reducible]
def SetupCommand.Reply : SetupCommand → Type
  | .hashPassword _ => Except String String
  | .now => Time

/-- The users table beside the password hash and the clock. -/
abbrev setupInterface : Interface := usersDB.sum ⟨SetupCommand, SetupCommand.Reply⟩

abbrev Setup := Program setupInterface

def setupService (mayFail : Prop) : Service setupInterface UsersTable
  | table, .inl statement, reply, after => users mayFail table statement reply after
  | table, .inr _, _, after => after = table

section Handler

variable (jwt : JWT) (secret : String)

def respondWithToken (user : User) : Setup AuthResponse :=
  .call (.inr .now) fun now => .call (.inr .now) fun later =>
    match generateToken jwt user.id user.username secret now later with
    | .error _ => .ret sessionFailed
    | .ok (token, expiresAt) => .ret ⟨200, .session token expiresAt user.username⟩

/-- The rest of `AuthSetup` once the password is hashed. -/
def createAdministrator (username hash : String) : Setup AuthResponse := do
  match ← (createFirstUser username hash).inl with
  | .error .alreadyInitialized => pure alreadyInitialized
  | .error (.failed _) => pure creationFailed
  | .ok user => respondWithToken jwt secret user

/-- The rest of `AuthSetup` once no user has been counted. -/
def setupRequest (body : SetupBody) : Setup AuthResponse :=
  match bindSetup body with
  | .error err => .ret (invalidSetup err)
  | .ok req =>
      if maxPasswordBytes < (bytesOf req.password).length then .ret passwordTooLong
      else
        .call (.inr (.hashPassword req.password)) fun
          | .error _ => .ret hashFailed
          | .ok hash => createAdministrator jwt secret req.username hash

def authSetup (body : SetupBody) : Setup AuthResponse := do
  match ← countUsers.inl with
  | .error _ => pure initializationFailed
  | .ok count => if 0 < count then pure alreadyInitialized else setupRequest jwt secret body

end Handler

/-! ## What a request is answered -/

/-- The conditional insert created the row with this id and name. -/
def Creates (event : Event setupInterface) (id : Int) (username : String) : Prop :=
  ∃ hash, event = ⟨.inl (.insertFirstUser username hash), .ok ⟨.ok 1, .ok id⟩⟩

def StepFails : Event setupInterface → Prop
  | ⟨.inl .countUsers, reply⟩ => ∃ err, reply = .error err
  | ⟨.inl (.insertFirstUser _ _), reply⟩ => ∃ err, reply = .error err
  | ⟨.inr (.hashPassword _), reply⟩ => ∃ err, reply = .error err
  | ⟨.inr .now, _⟩ => False

/-- The body passes the checks of `AuthSetup`. -/
def Acceptable (body : SetupBody) : Prop :=
  ∃ req, bindSetup body = .ok req ∧ (bytesOf req.password).length ≤ maxPasswordBytes

def AuthResponse.IsSession (response : AuthResponse) : Prop :=
  ∃ token expiresAt username, response = ⟨200, .session token expiresAt username⟩

/-- The answer of one request in terms of its own steps. -/
structure Answered (jwt : JWT) (secret : String) (body : SetupBody) (response : AuthResponse)
    (history : List (Event setupInterface)) : Prop where
  session : response.IsSession ↔ ∃ event ∈ history, ∃ id username, Creates event id username
  claims : ∀ token expiresAt username, response = ⟨200, .session token expiresAt username⟩ →
    ∃ event ∈ history, ∃ id, Creates event id username ∧ ∃ issuedAt,
      jwt.signedString ⟨id, username, expiresAt, issuedAt, issuer⟩ secret = .ok token
  refused : Acceptable body → (∀ event ∈ history, ¬ StepFails event) →
    (∀ event ∈ history, ∀ id username, ¬ Creates event id username) →
      response = alreadyInitialized

section Answers

open Program

variable {mayFail : Prop} {jwt : JWT} {secret : String} {body : SetupBody}
  {history : List (Event setupInterface)} {table : UsersTable}

/-- Nothing is assumed of the others. -/
def anyDiscipline : Discipline setupInterface UsersTable :=
  .shared (fun _ _ => True) (fun _ => trivial) fun _ _ => trivial

theorem error_not_session (status : Nat) (text : String) :
    ¬ (⟨status, .error text⟩ : AuthResponse).IsSession := by
  rintro ⟨token, expiresAt, username, hresponse⟩
  cases hresponse

/-- A refusal that a check or a failed step of the request explains. -/
theorem answered_refusal {status : Nat} {text : String}
    (nothing : ∀ event ∈ history, ∀ id username, ¬ Creates event id username)
    (reason : Acceptable body → (∀ event ∈ history, ¬ StepFails event) →
      (⟨status, .error text⟩ : AuthResponse) = alreadyInitialized) :
    Answered jwt secret body ⟨status, .error text⟩ history where
  session := by
    refine ⟨fun h => absurd h (error_not_session status text), ?_⟩
    rintro ⟨event, hmem, id, username, hcreates⟩
    exact absurd hcreates (nothing event hmem id username)
  claims := fun token expiresAt username h =>
    absurd ⟨token, expiresAt, username, h⟩ (error_not_session status text)
  refused := fun hbody hsteps _ => reason hbody hsteps

/-- An event that creates nothing extends a history that has created nothing. -/
theorem nothing_concat {event : Event setupInterface}
    (nothing : ∀ event ∈ history, ∀ id username, ¬ Creates event id username)
    (quiet : ∀ id username, ¬ Creates event id username) :
    ∀ other ∈ history ++ [event], ∀ id username, ¬ Creates other id username := by
  intro other hother
  rcases List.mem_append.mp hother with hold | hnew
  · exact nothing other hold
  · obtain rfl := List.mem_singleton.mp hnew
    exact quiet

/-- The request that created the row is answered with a token for it. -/
theorem keeps_respondWithToken (signs : jwt.Signs) {id : Int} {username : String}
    {event : Event setupInterface} (created : event ∈ history)
    (creates : Creates event id username) :
    (respondWithToken jwt secret ⟨id, username, "", "", ""⟩).Keeps (setupService mayFail)
      anyDiscipline (fun response history _ => Answered jwt secret body response history)
      history table := by
  intro _ _ now _ _
  refine ⟨trivial, ?_⟩
  intro _ _ issuedAt _ _
  refine ⟨trivial, ?_⟩
  obtain ⟨token, htoken⟩ := signs ⟨id, username, now + tokenLifetime, issuedAt, issuer⟩ secret
  simp only [generateToken, htoken]
  intro _ _
  have hmem : event ∈ history ++ [⟨.inr .now, now⟩] ++ [⟨.inr .now, issuedAt⟩] :=
    List.mem_append_left _ (List.mem_append_left _ created)
  refine ⟨?_, ?_, ?_⟩
  · exact ⟨fun _ => ⟨event, hmem, id, username, creates⟩, fun _ => ⟨token, _, username, rfl⟩⟩
  · intro other expiresAt name hresponse
    cases hresponse
    exact ⟨event, hmem, id, creates, issuedAt, htoken⟩
  · exact fun _ _ hnothing => absurd creates (hnothing event hmem id username)

theorem keeps_createAdministrator (signs : jwt.Signs) {username hash : String}
    (nothing : ∀ event ∈ history, ∀ id name, ¬ Creates event id name) :
    (createAdministrator jwt secret username hash).Keeps (setupService mayFail) anyDiscipline
      (fun response history _ => Answered jwt secret body response history) history table := by
  intro later _ reply after answer
  refine ⟨trivial, ?_⟩
  rcases answer with ⟨-, rfl, -⟩ | ⟨-, ⟨last, rfl⟩, -⟩ | ⟨-, ⟨err, rfl⟩, -⟩
  · refine keeps_respondWithToken signs (List.mem_append_right _ (List.mem_singleton_self _)) ?_
    exact ⟨hash, rfl⟩
  · intro _ _
    refine answered_refusal (nothing_concat nothing ?_) fun _ _ => rfl
    rintro id name ⟨other, hcreates⟩
    cases hcreates
  · intro _ _
    have hlast : (⟨.inl (.insertFirstUser username hash), .error err⟩ : Event setupInterface) ∈
        history ++ [⟨.inl (.insertFirstUser username hash), .error err⟩] :=
      List.mem_append_right _ (List.mem_singleton_self _)
    refine answered_refusal (nothing_concat nothing ?_) fun _ hsteps =>
      absurd ⟨err, rfl⟩ (hsteps _ hlast)
    rintro id name ⟨other, hcreates⟩
    cases hcreates

theorem keeps_setupRequest (signs : jwt.Signs)
    (nothing : ∀ event ∈ history, ∀ id name, ¬ Creates event id name) :
    (setupRequest jwt secret body).Keeps (setupService mayFail) anyDiscipline
      (fun response history _ => Answered jwt secret body response history) history table := by
  unfold setupRequest
  split
  · next err hbind =>
      intro _ _
      refine answered_refusal nothing ?_
      rintro ⟨req, hreq, -⟩
      rw [hbind] at hreq
      cases hreq
  · next req hbind =>
      split
      · next hlong =>
          intro _ _
          refine answered_refusal nothing ?_
          rintro ⟨other, hother, hlength⟩
          rw [hbind] at hother
          cases hother
          exact absurd hlong (Nat.not_lt.mpr hlength)
      · intro _ _ hashed _ _
        refine ⟨trivial, ?_⟩
        have hquiet : ∀ event ∈ history ++ [⟨.inr (.hashPassword req.password), hashed⟩],
            ∀ id name, ¬ Creates event id name := by
          refine nothing_concat nothing ?_
          rintro id name ⟨other, hcreates⟩
          cases hcreates
        cases hashed with
        | error err =>
            intro _ _
            refine answered_refusal hquiet fun _ hsteps => ?_
            have hlast := List.mem_append_right history (List.mem_singleton_self
              (⟨.inr (.hashPassword req.password), .error err⟩ : Event setupInterface))
            exact absurd ⟨err, rfl⟩ (hsteps _ hlast)
        | ok hash => exact keeps_createAdministrator signs hquiet

theorem keeps_authSetup (signs : jwt.Signs) :
    (authSetup jwt secret body).Keeps (setupService mayFail) anyDiscipline
      (fun response history _ => Answered jwt secret body response history) [] table := by
  intro later _ counted after _
  refine ⟨trivial, ?_⟩
  have hquiet : ∀ event ∈ ([] ++ [⟨.inl .countUsers, counted⟩] : List (Event setupInterface)),
      ∀ id name, ¬ Creates event id name := by
    intro event hevent id name
    obtain rfl := List.mem_singleton.mp hevent
    rintro ⟨other, hcreates⟩
    cases hcreates
  cases counted with
  | error err =>
      intro _ _
      refine answered_refusal hquiet fun _ hsteps => ?_
      exact absurd ⟨err, rfl⟩ (hsteps _ (List.mem_singleton_self _))
  | ok count =>
      change (if 0 < count then pure alreadyInitialized else setupRequest jwt secret body).Keeps
        _ _ _ _ _
      split
      · intro _ _
        exact answered_refusal hquiet fun _ _ => rfl
      · exact keeps_setupRequest signs hquiet

end Answers

/-! ## All requests together -/

/--
Either nothing has been created and the table is as it was, or it was empty, one
event of one request has created its only row, and no event before or after it
creates another.
-/
def Exclusive {ι : Type} (start : UsersTable) (events : List (ι × Event setupInterface))
    (store : UsersTable) : Prop :=
  (store = start ∧ ∀ entry ∈ events, ∀ id username, ¬ Creates entry.2 id username) ∨
    (start.rows = [] ∧ ∃ before owner event after row,
      events = before ++ (owner, event) :: after ∧ Creates event row.id row.username ∧
        (∀ entry ∈ before ++ after, ∀ id username, ¬ Creates entry.2 id username) ∧
          store.rows = [row])

section Together

variable {mayFail : Prop} {jwt : JWT} {secret : String} {ι : Type} {start : UsersTable}

/-- A step that is no creating insert leaves the table as it is. -/
theorem setupService_cases {before after : UsersTable} {command : setupInterface.Command}
    {reply : setupInterface.Reply command}
    (answer : setupService mayFail before command reply after) :
    (after = before ∧ ∀ id username, ¬ Creates ⟨command, reply⟩ id username) ∨
      (before.rows = [] ∧ ∃ row : User, Creates ⟨command, reply⟩ row.id row.username ∧
        after.rows = [row]) := by
  rcases command with (_ | ⟨username, hash⟩) | command
  · refine Or.inl ⟨answer.1, ?_⟩
    rintro id username ⟨hash, hcreates⟩
    cases hcreates
  · rcases answer with ⟨hempty, rfl, now, rfl⟩ | ⟨-, ⟨last, rfl⟩, rfl⟩ | ⟨-, ⟨err, rfl⟩, rfl⟩
    · refine Or.inr ⟨hempty, { User.created username hash now with id := before.sequence + 1 }, ?_⟩
      refine ⟨⟨hash, rfl⟩, ?_⟩
      simp only [Table.insert, hempty, List.nil_append]
      rfl
    · refine Or.inl ⟨rfl, ?_⟩
      rintro id name ⟨other, hcreates⟩
      cases hcreates
    · refine Or.inl ⟨rfl, ?_⟩
      rintro id name ⟨other, hcreates⟩
      cases hcreates
  · refine Or.inl ⟨answer, ?_⟩
    rintro id username ⟨hash, hcreates⟩
    cases hcreates

theorem Exclusive.extend {events : List (ι × Event setupInterface)} {before after : UsersTable}
    {client : ι} {command : setupInterface.Command} {reply : setupInterface.Reply command}
    (exclusive : Exclusive start events before)
    (answer : setupService mayFail before command reply after) :
    Exclusive start (events ++ [(client, ⟨command, reply⟩)]) after := by
  rcases setupService_cases answer with ⟨rfl, hquiet⟩ | ⟨hempty, row, hcreates, hrows⟩
  · rcases exclusive with ⟨rfl, hnothing⟩ | ⟨hstart, front, owner, event, back, row, rfl, hrest⟩
    · refine Or.inl ⟨rfl, fun entry hentry => ?_⟩
      rcases List.mem_append.mp hentry with hold | hnew
      · exact hnothing entry hold
      · obtain rfl := List.mem_singleton.mp hnew
        exact hquiet
    · obtain ⟨hcreates, hnothing, hrows⟩ := hrest
      refine Or.inr ⟨hstart, front, owner, event, back ++ [(client, ⟨command, reply⟩)], row,
        by simp, hcreates, fun entry hentry => ?_, hrows⟩
      rw [← List.append_assoc] at hentry
      rcases List.mem_append.mp hentry with hold | hnew
      · exact hnothing entry hold
      · obtain rfl := List.mem_singleton.mp hnew
        exact hquiet
  · rcases exclusive with ⟨rfl, hnothing⟩ | ⟨-, front, owner, event, back, other, -, -, -, hrows'⟩
    · exact Or.inr ⟨hempty, events, client, ⟨command, reply⟩, [], row, rfl, hcreates,
        by simpa using hnothing, hrows⟩
    · rw [hempty] at hrows'
      cases hrows'

/-- In an exclusive run a created row is the only one of the table. -/
theorem Exclusive.rows {events : List (ι × Event setupInterface)} {store : UsersTable}
    {entry : ι × Event setupInterface} {id : Int} {username : String}
    (exclusive : Exclusive start events store) (member : entry ∈ events)
    (creates : Creates entry.2 id username) :
    start.rows = [] ∧ ∃ row : User, store.rows = [row] ∧ row.id = id ∧ row.username = username := by
  rcases exclusive with ⟨-, hnothing⟩ | ⟨hstart, front, owner, event, back, row, rfl, hrest⟩
  · exact absurd creates (hnothing entry member id username)
  · obtain ⟨⟨hash, rfl⟩, hnothing, hrows⟩ := hrest
    refine ⟨hstart, row, hrows, ?_⟩
    rcases List.mem_append.mp member with hfront | hback
    · exact absurd creates (hnothing entry (List.mem_append_left _ hfront) id username)
    · rcases List.mem_cons.mp hback with rfl | hback
      · obtain ⟨other, hevent⟩ := creates
        cases hevent
        exact ⟨rfl, rfl⟩
      · exact absurd creates (hnothing entry (List.mem_append_right _ hback) id username)

/-- Setup requests that run together. -/
def settingUp (jwt : JWT) (secret : String) (bodies : ι → SetupBody) (start : UsersTable) :
    World setupInterface UsersTable ι AuthResponse where
  store := start
  threads := fun client => authSetup jwt secret (bodies client)

/--
Whatever the order of the steps of any number of setup requests: at most one row is
ever created, and only in an empty table.  A request is answered with a token if
and only if its own insert created the row, and the token is for that row.  Every
other request whose body passes the checks, and none of whose steps failed, is
answered that there is an administrator already.
-/
theorem setup_exclusive [DecidableEq ι] {bodies : ι → SetupBody}
    {events : List (ι × Event setupInterface)}
    {final : World setupInterface UsersTable ι AuthResponse} (signs : jwt.Signs)
    (run : World.Steps (setupService mayFail) (settingUp jwt secret bodies start) events final) :
    Exclusive start events final.store ∧
      ∀ client response, final.threads client = .ret response →
        (response.IsSession ↔
          ∃ event id username, (client, event) ∈ events ∧ Creates event id username) ∧
        (∀ token expiresAt username, response = ⟨200, .session token expiresAt username⟩ →
          ∃ row : User, final.store.rows = [row] ∧ row.username = username ∧
            (∃ event, (client, event) ∈ events ∧ Creates event row.id username) ∧
            ∃ issuedAt, jwt.signedString ⟨row.id, username, expiresAt, issuedAt, issuer⟩ secret =
              .ok token) ∧
        (Acceptable (bodies client) →
          (∀ event, (client, event) ∈ events → ¬ StepFails event) →
          (∀ event, (client, event) ∈ events → ∀ id username, ¬ Creates event id username) →
            response = alreadyInitialized) := by
  have hexclusive : Exclusive start events final.store :=
    run.service_invariant (Exclusive start) (Or.inl ⟨rfl, nofun⟩)
      fun exclusive answer => exclusive.extend answer
  refine ⟨hexclusive, fun client response hreturned => ?_⟩
  have hanswered : Answered jwt secret (bodies client) response (ownEvents client events) :=
    run.postcondition (fun _ => anyDiscipline)
      (fun client response history _ => Answered jwt secret (bodies client) response history)
      (by intros; trivial) (fun client => keeps_authSetup signs) hreturned
  refine ⟨?_, ?_, ?_⟩
  · rw [hanswered.session]
    simp only [mem_ownEvents_iff]
    constructor
    · rintro ⟨event, hmem, id, username, hcreates⟩
      exact ⟨event, id, username, hmem, hcreates⟩
    · rintro ⟨event, id, username, hmem, hcreates⟩
      exact ⟨event, hmem, id, username, hcreates⟩
  · intro token expiresAt username hresponse
    obtain ⟨event, hevent, id, hcreates, issuedAt, htoken⟩ :=
      hanswered.claims token expiresAt username hresponse
    have hmem := mem_ownEvents_iff.mp hevent
    obtain ⟨-, row, hrows, rfl, hname⟩ := hexclusive.rows hmem hcreates
    exact ⟨row, hrows, hname, ⟨event, hmem, hcreates⟩, issuedAt, htoken⟩
  · intro hbody hsteps hnothing
    exact hanswered.refused hbody
      (fun event hevent => hsteps event (mem_ownEvents_iff.mp hevent))
      fun event hevent => hnothing event (mem_ownEvents_iff.mp hevent)

/-- A database without failures. -/
def answerSetup (table : UsersTable) :
    (command : setupInterface.Command) → setupInterface.Reply command × UsersTable
  | .inl .countUsers => (.ok table.rows.length, table)
  | .inl (.insertFirstUser username hash) =>
      if table.rows = [] then
        (.ok ⟨.ok 1, .ok (table.sequence + 1)⟩, table.insert (User.created username hash ""))
      else (.ok ⟨.ok 0, .ok 0⟩, table)
  | .inr (.hashPassword _) => (.ok "hash", table)
  | .inr .now => ((0 : Int), table)

theorem answerSetup_answers (table : UsersTable) (command : setupInterface.Command) :
    setupService False table command (answerSetup table command).1 (answerSetup table command).2 := by
  rcases command with (_ | ⟨username, hash⟩) | _ | _
  · exact ⟨rfl, Or.inl rfl⟩
  · by_cases hempty : table.rows = []
    · simp only [answerSetup, if_pos hempty]
      exact Or.inl ⟨hempty, rfl, "", rfl⟩
    · simp only [answerSetup, if_neg hempty]
      exact Or.inr (Or.inl ⟨hempty, ⟨0, rfl⟩, rfl⟩)
  · rfl
  · rfl

/-- The token is the name. -/
def nameJWT : JWT := ⟨fun claims _ => .ok claims.username⟩

def administratorBody (client : Bool) : SetupBody :=
  .ok ⟨if client then "first" else "second", "correct horse"⟩

/-- Both requests count no users and hash their passwords before one of them is first. -/
theorem setup_exclusive_two :
    ∃ events final, World.Steps (setupService False)
        (settingUp nameJWT "" administratorBody (Table.empty 0)) events final ∧
      Exclusive (Table.empty 0) events final.store ∧
      final.store.rows.map User.username = ["first"] ∧
      final.threads true = .ret ⟨200, .session "first" tokenLifetime "first"⟩ ∧
      final.threads false = .ret alreadyInitialized := by
  have run := World.Steps.interleave answerSetup_answers
    (settingUp nameJWT "" administratorBody (Table.empty 0))
    [true, false, true, false, true, false, true, true]
  obtain ⟨hexclusive, -⟩ := setup_exclusive (fun _ _ => ⟨_, rfl⟩) run
  exact ⟨_, _, run, hexclusive, rfl, rfl, rfl⟩

end Together

end OpsUp.Api
