import OpsUp.Api.AuthRoutes
import OpsUp.Interaction.Earned
import Mathlib.Data.Finset.Card

/-!
# Who gets in

Requests of all kinds run together.  What each step of a request needs is said once, and
every route keeps to it; from that follow who can reach a server and how often an address
can try a password.
-/

namespace OpsUp.Api

open OpsUp.Auth OpsUp.Go OpsUp.Interaction OpsUp.Models OpsUp.Storage

/-! ## The events -/

section Events

variable {J : Interface}

def readClock (now : Time) : Event (routed J) := ⟨.inl (.inl (.inr .now)), now⟩

def hashed (password hash : String) : Event (routed J) :=
  ⟨.inl (.inl (.inr (.hashPassword password))), .ok hash⟩

def inserted (username hash : String) (id : Int) : Event (routed J) :=
  ⟨.inl (.inl (.inl (.insertFirstUser username hash))), .ok ⟨.ok 1, .ok id⟩⟩

def compared (hash password : String) (matched : Bool) : Event (routed J) :=
  ⟨.inl (.inr (.compareHashAndPassword hash password)), matched⟩

def validated (tokenString : String) (now : Time) (claims : Claims) : Event (routed J) :=
  ⟨.inl (.inr (.validateToken tokenString)), (now, .ok claims)⟩

def entered (now : Time) (ip : String) (verdict : Limits.Verdict Time) : Event (routed J) :=
  ⟨.inl (.inr (.enter now ip)), verdict⟩

def answered (token : String) (expiresAt : Time) (username : String) : Event (routed J) :=
  ⟨.inl (.inr (.write (.json ⟨200, .session token expiresAt username⟩))), ()⟩

/-- A hash of bcrypt is computed, to be stored or to be compared. -/
def Bcrypt : Event (routed J) → Prop
  | ⟨.inl (.inl (.inr (.hashPassword _))), _⟩ => True
  | ⟨.inl (.inr (.compareHashAndPassword _ _)), _⟩ => True
  | _ => False

/-- The address for which a request counts. -/
def Request.ip : Request J → Option String
  | .setup ip _ => some ip
  | .login ip _ => some ip
  | _ => none

/-! ## What a step needs -/

/-- The request has shown that it speaks for the user. -/
inductive Proves (request : Request J) (history : List (Event (routed J))) (user : User) : Prop
  /-- Its password is the one of the user. -/
  | login (ip password : String) (asked : request = .login ip (.ok ⟨user.username, password⟩))
      (matched : compared user.password password true ∈ history)
  /-- It has created the user. -/
  | setup (ip password : String) (asked : request = .setup ip (.ok ⟨user.username, password⟩))
      (hash : hashed password user.password ∈ history)
      (created : inserted user.username user.password user.id ∈ history)

/-- The session is for a user for whom the request speaks, and its token is signed for them. -/
structure Vouched (packages : AuthPackages) (secret : String) (request : Request J)
    (history : List (Event (routed J))) (users : UsersTable) (token : String) (expiresAt : Time)
    (username : String) (user : User) : Prop where
  stored : user ∈ users.rows
  named : username = user.username
  proves : Proves request history user
  signed : ∃ now issuedAt, readClock now ∈ history ∧ expiresAt = now + tokenLifetime ∧
    packages.jwt.signedString ⟨user.id, user.username, expiresAt, issuedAt, issuer⟩ secret =
      .ok token

/-- The limiter has let the request in. -/
def LetIn (request : Request J) (history : List (Event (routed J))) : Prop :=
  ∃ now ip verdict, request.ip = some ip ∧ verdict.blocked = false ∧
    entered now ip verdict ∈ history

variable {τ : Type}

def Needs (packages : AuthPackages) (secret : String) (request : Request J)
    (history : List (Event (routed J))) (state : AuthState × τ) : Event (routed J) → Prop
  | ⟨.inr _, _⟩ => ∃ text now claims, validated text now claims ∈ history
  | ⟨.inl (.inr (.write response)), _⟩ => ∀ token expiresAt username,
      response = .json ⟨200, .session token expiresAt username⟩ →
        ∃ user, Vouched packages secret request history state.1.1 token expiresAt username user
  | ⟨.inl (.inl (.inr (.hashPassword _))), _⟩ =>
      LetIn request history ∧ ∀ event ∈ history, ¬ Bcrypt event
  | ⟨.inl (.inr (.compareHashAndPassword _ _)), _⟩ =>
      LetIn request history ∧ ∀ event ∈ history, ¬ Bcrypt event
  | ⟨.inl (.inr (.enter _ _)), _⟩ =>
      ∀ now ip verdict, entered now ip verdict ∉ history
  | _ => True

/-- Users are only added. -/
def UsersKept (before after : AuthState × τ) : Prop :=
  ∀ user ∈ before.1.1.rows, user ∈ after.1.1.rows

instance : IsPreorder (AuthState × τ) UsersKept where
  refl := fun _ _ member => member
  trans := fun _ _ _ first second user member => second user (first user member)

end Events

/-! ## Every route keeps to it -/

section Routes

variable {J : Interface} {τ : Type} {packages : AuthPackages} {secret : String}
  {mayFail : Prop} {others : Service J τ} {request : Request J}
  {history : List (Event (routed J))} {state : AuthState × τ}

theorem users_kept {before after : AuthState × τ} {command : (routed J).Command}
    {reply : (routed J).Reply command}
    (answer : Service.sum (routes packages secret mayFail) others before command reply after) :
    UsersKept before after := by
  intro user member
  match command, reply, answer with
  | .inl (.inl command), reply, ⟨⟨answer, _⟩, _⟩ =>
      match command, reply, answer with
      | .inl .countUsers, reply, answer =>
          rw [answer.1]
          exact member
      | .inl (.insertFirstUser username hash), reply, answer =>
          rcases answer with ⟨-, -, now, hafter⟩ | ⟨-, -, hafter⟩ | ⟨-, -, hafter⟩
          · rw [hafter]
            exact List.mem_append_left _ member
          · rw [hafter]
            exact member
          · rw [hafter]
            exact member
      | .inr command, reply, answer =>
          rw [show after.1.1 = before.1.1 from answer]
          exact member
  | .inl (.inr command), reply, ⟨answer, _⟩ =>
      cases command with
      | enter now ip =>
          rw [answer.2]
          exact member
      | write response =>
          rw [show after.1 = before.1 from answer]
          exact member
      | getUserByUsername username =>
          rw [answer.1]
          exact member
      | compareHashAndPassword hash password =>
          rw [answer.1]
          exact member
      | validateToken tokenString =>
          rw [answer.1]
          exact member
  | .inr command, reply, answer =>
      rw [answer.2]
      exact member

/-- What holds of a program that may do as it does. -/
abbrev Serves (packages : AuthPackages) (secret : String) (mayFail : Prop) (others : Service J τ)
    (request : Request J) (program : Program (routed J) Unit)
    (history : List (Event (routed J))) (state : AuthState × τ) : Prop :=
  program.Keeps (Service.sum (routes packages secret mayFail) others)
    (.earning UsersKept (Needs packages secret request)) (fun _ _ _ => True) history state

theorem serves_call {command : (routed J).Command}
    {next : (routed J).Reply command → Program (routed J) Unit}
    (step : ∀ later reply after, UsersKept state later →
      Service.sum (routes packages secret mayFail) others later command reply after →
        Needs packages secret request history later ⟨command, reply⟩ ∧
          Serves packages secret mayFail others request (next reply)
            (history ++ [⟨command, reply⟩]) after) :
    Serves packages secret mayFail others request (.call command next) history state :=
  Program.keeps_earning_call users_kept step

theorem serves_ret : Serves packages secret mayFail others request (.ret ()) history state :=
  fun _ _ => trivial

/-- An answer that is no session. -/
theorem serves_write {response : RouteResponse}
    (plain : ∀ token expiresAt username,
      response ≠ .json ⟨200, .session token expiresAt username⟩) :
    Serves packages secret mayFail others request (write response).inl history state :=
  serves_call fun _ _ _ _ _ =>
    ⟨fun token expiresAt username same => absurd same (plain token expiresAt username), serves_ret⟩

theorem serves_abort {status : Nat} {text : String} :
    Serves packages secret mayFail others request (abortWith status text) history state :=
  serves_write nofun

/-- Behind a valid token a handler does what it likes. -/
theorem serves_handler {handler : Program J Unit} {text : String} {now : Time} {claims : Claims}
    (token : validated text now claims ∈ history) :
    Serves packages secret mayFail others request handler.inr history state := by
  induction handler generalizing history state with
  | ret value => exact serves_ret
  | call command next ih =>
      exact serves_call fun later reply after _ _ =>
        ⟨⟨text, now, claims, token⟩, ih reply (List.mem_append_left _ token)⟩

theorem Proves.mono {user : User} {longer : List (Event (routed J))}
    (proves : Proves request history user) (sub : history ⊆ longer) :
    Proves request longer user := by
  cases proves with
  | login ip password asked matched => exact .login ip password asked (sub matched)
  | setup ip password asked hash created =>
      exact .setup ip password asked (sub hash) (sub created)

theorem Proves.extend {user : User} {event : Event (routed J)}
    (proves : Proves request history user) : Proves request (history ++ [event]) user :=
  proves.mono (List.subset_append_left _ _)

theorem LetIn.extend {event : Event (routed J)} (letIn : LetIn request history) :
    LetIn request (history ++ [event]) := by
  obtain ⟨now, ip, verdict, hip, hfree, hentered⟩ := letIn
  exact ⟨now, ip, verdict, hip, hfree, List.mem_append_left _ hentered⟩

/-- A session for a user for whom the request speaks. -/
theorem serves_session {user named : User} (stored : user ∈ state.1.1.rows)
    (proves : Proves request history user) (id : named.id = user.id)
    (username : named.username = user.username) :
    Serves packages secret mayFail others request
      ((respondWithToken packages.jwt secret named).inl >>= fun response =>
        write (.json response)).inl history state := by
  refine serves_call fun first (now : Time) _ hfirst answer => ⟨trivial, ?_⟩
  have hnow := users_kept answer user (hfirst user stored)
  refine serves_call fun second (issuedAt : Time) _ hsecond answer => ⟨trivial, ?_⟩
  have hlater := users_kept answer user (hsecond user hnow)
  cases htoken : packages.jwt.signedString
      ⟨user.id, user.username, now + tokenLifetime, issuedAt, issuer⟩ secret with
  | error err =>
      simp only [generateToken, id, username, htoken]
      refine serves_write fun _ _ _ same => ?_
      cases same
  | ok token =>
      simp only [generateToken, id, username, htoken]
      refine serves_call fun third _ _ hthird _ => ⟨?_, serves_ret⟩
      intro other expiresAt name same
      cases same
      refine ⟨user, hthird user hlater, rfl, proves.extend.extend, now, issuedAt, ?_, rfl, htoken⟩
      simp [readClock]

/-- An event that is no hash extends a history without one. -/
theorem fresh_concat {event : Event (routed J)} (fresh : ∀ old ∈ history, ¬ Bcrypt old)
    (plain : ¬ Bcrypt event) : ∀ old ∈ history ++ [event], ¬ Bcrypt old := by
  intro old hold
  rcases List.mem_append.mp hold with hbefore | hlast
  · exact fresh old hbefore
  · rwa [List.mem_singleton.mp hlast]

theorem serves_limited {ip : String} {next : Routes Unit} (own : request.ip = some ip)
    (continues : ∀ history (state : AuthState × τ), LetIn request history →
      (∀ event ∈ history, ¬ Bcrypt event) →
        Serves packages secret mayFail others request next.inl history state) :
    Serves packages secret mayFail others request (limitedTo ip next).inl [] state := by
  refine serves_call fun _ (now : Time) _ _ _ => ⟨trivial, ?_⟩
  refine serves_call fun _ (verdict : Limits.Verdict Time) _ _ _ => ⟨?_, ?_⟩
  · intro other address judged member
    cases List.mem_singleton.mp member
  dsimp only
  by_cases hblocked : verdict.blocked = true
  · rw [if_pos hblocked]
    exact serves_call fun _ _ _ _ _ => ⟨trivial, serves_write nofun⟩
  · rw [if_neg hblocked]
    apply continues
    · exact ⟨now, ip, verdict, own, Bool.eq_false_of_not_eq_true hblocked, by simp [entered]⟩
    · exact fresh_concat (fresh_concat nofun id) id

theorem bindLogin_eq_ok_iff {body : LoginBody} {req : LoginRequest} :
    bindLogin body = .ok req ↔ body = .ok req ∧ loginErrors req = [] := by
  cases body with
  | error err => simp [bindLogin]
  | ok asked =>
      simp only [bindLogin]
      split
      · next hnone =>
          constructor
          · intro h
            cases h
            exact ⟨rfl, hnone⟩
          · exact fun h => h.1
      · next hsome =>
          constructor
          · exact nofun
          · rintro ⟨h, hnone⟩
            cases h
            exact absurd hnone hsome

theorem serves_authLogin {ip : String} {body : LoginBody} (asked : request = .login ip body)
    (letIn : LetIn request history) (fresh : ∀ event ∈ history, ¬ Bcrypt event) :
    Serves packages secret mayFail others request
      (authLogin packages.jwt secret body >>= fun response => write (.json response)).inl
      history state := by
  cases hbind : bindLogin body with
  | error err =>
      simp only [authLogin, hbind]
      exact serves_write nofun
  | ok req =>
      obtain ⟨rfl, -⟩ := bindLogin_eq_ok_iff.mp hbind
      simp only [authLogin, hbind]
      refine serves_call fun before found after _ answer => ⟨trivial, ?_⟩
      obtain ⟨⟨hsame, hfound⟩, -⟩ := answer
      match found, hfound with
      | .error err, _ => exact serves_write nofun
      | .ok none, _ => exact serves_write nofun
      | .ok (some user), hfound =>
          have hsome : before.1.1.rows.find? (fun user => user.username = req.username) =
              some user := by
            rcases hfound with hfound | ⟨-, err, herr⟩
            · exact (Except.ok.inj hfound).symm
            · cases herr
          have hname : user.username = req.username := by simpa using List.find?_some hsome
          have hstored : user ∈ after.1.1.rows := by
            rw [show after.1 = before.1 from hsame]
            exact List.mem_of_find?_eq_some hsome
          refine serves_call fun _ (matched : Bool) _ hkept answer => ⟨⟨?_, ?_⟩, ?_⟩
          · exact letIn.extend
          · exact fresh_concat fresh id
          · dsimp only
            by_cases hmatched : matched = true
            · rw [if_pos hmatched]
              refine serves_session (users_kept answer user (hkept user hstored)) ?_ rfl rfl
              refine .login ip req.password (by rw [asked, hname]) ?_
              simp [compared, hmatched]
            · rw [if_neg hmatched]
              exact serves_write nofun

/-- The row that the conditional insert has added. -/
theorem stored_of_inserted {before after : AuthState × τ} {username hash : String} {id : Int}
    (answer : Service.sum (routes packages secret mayFail) others before
      (.inl (.inl (.inl (.insertFirstUser username hash)))) (.ok ⟨.ok 1, .ok id⟩) after) :
    ∃ user ∈ after.1.1.rows, user.id = id ∧ user.username = username ∧ user.password = hash := by
  obtain ⟨⟨answer, -⟩, -⟩ := answer
  rcases answer with ⟨-, hreply, now, hafter⟩ | ⟨-, ⟨last, hreply⟩, -⟩ | ⟨-, ⟨err, hreply⟩, -⟩
  · cases hreply
    refine ⟨{ User.created username hash now with id := before.1.1.sequence + 1 }, ?_, rfl, rfl,
      rfl⟩
    rw [hafter]
    exact List.mem_append_right _ (List.mem_singleton_self _)
  · cases hreply
  · cases hreply

theorem bindSetup_ok {body : SetupBody} {req : SetupRequest} (bound : bindSetup body = .ok req) :
    body = .ok req := by
  cases body with
  | error err => cases bound
  | ok asked =>
      simp only [bindSetup] at bound
      split at bound
      · exact bound
      · cases bound

theorem serves_createAdministrator {ip password hash username : String}
    (asked : request = .setup ip (.ok ⟨username, password⟩))
    (computed : hashed password hash ∈ history) :
    Serves packages secret mayFail others request
      ((createAdministrator packages.jwt secret username hash).inl >>= fun response =>
        write (.json response)).inl history state := by
  refine serves_call fun before created after _ answer => ⟨trivial, ?_⟩
  have hwhole := answer
  obtain ⟨⟨answer, -⟩, -⟩ := answer
  rcases answer with ⟨-, rfl, -⟩ | ⟨-, ⟨last, rfl⟩, -⟩ | ⟨-, ⟨err, rfl⟩, -⟩
  · obtain ⟨user, hstored, hid, rfl, rfl⟩ := stored_of_inserted hwhole
    refine serves_session hstored ?_ hid.symm rfl
    refine .setup ip password asked (List.mem_append_left _ computed) ?_
    rw [inserted, hid]
    exact List.mem_append_right _ (List.mem_singleton_self _)
  · exact serves_write nofun
  · exact serves_write nofun

theorem serves_authSetup {ip : String} {body : SetupBody} (asked : request = .setup ip body)
    (letIn : LetIn request history) (fresh : ∀ event ∈ history, ¬ Bcrypt event) :
    Serves packages secret mayFail others request
      ((authSetup packages.jwt secret body).inl >>= fun response =>
        write (.json response)).inl history state := by
  refine serves_call fun _ counted _ _ _ => ⟨trivial, ?_⟩
  match counted with
  | .error err => exact serves_write nofun
  | .ok count =>
      change Serves packages secret mayFail others request
        ((if 0 < count then pure alreadyInitialized else setupRequest packages.jwt secret body).inl
          >>= fun response => write (.json response)).inl _ _
      by_cases hcount : 0 < count
      · rw [if_pos hcount]
        exact serves_write nofun
      · rw [if_neg hcount]
        cases hbind : bindSetup body with
        | error err =>
            simp only [setupRequest, hbind]
            exact serves_write nofun
        | ok req =>
            obtain rfl := bindSetup_ok hbind
            simp only [setupRequest, hbind]
            by_cases hlong : maxPasswordBytes < (bytesOf req.password).length
            · rw [if_pos hlong]
              exact serves_write nofun
            · rw [if_neg hlong]
              refine serves_call fun _ result _ _ _ => ⟨⟨letIn.extend, ?_⟩, ?_⟩
              · exact fresh_concat fresh id
              · match result with
                | .error err => exact serves_write nofun
                | .ok hash =>
                    refine serves_createAdministrator asked ?_
                    exact List.mem_append_right _ (List.mem_singleton_self _)

theorem serves_serve (request : Request J) :
    Serves packages secret mayFail others request (serve packages.jwt secret request) [] state := by
  cases request with
  | status =>
      refine serves_call fun _ counted _ _ _ => ⟨trivial, ?_⟩
      match counted with
      | .error err => exact serves_write nofun
      | .ok count => exact serves_write nofun
  | setup ip body =>
      exact serves_limited rfl fun _ _ letIn fresh => serves_authSetup rfl letIn fresh
  | login ip body =>
      exact serves_limited rfl fun _ _ letIn fresh => serves_authLogin rfl letIn fresh
  | servers authHeader handler =>
      simp only [serve, jwtAuthMiddleware]
      split
      · exact serves_abort
      · split
        · split
          · exact serves_abort
          · refine serves_call fun _ result _ _ _ => ⟨trivial, ?_⟩
            match result with
            | (_, .error _) => exact serves_abort
            | (now, .ok claims) =>
                exact serves_handler (List.mem_append_right _ (List.mem_singleton_self _))
        · exact serves_abort
  | terminal param token handler =>
      simp only [serve, terminalHandler]
      split
      · exact serves_abort
      · split
        · exact serves_abort
        · refine serves_call fun _ result _ _ _ => ⟨trivial, ?_⟩
          match result with
          | (_, .error _) => exact serves_abort
          | (now, .ok claims) =>
              exact serves_handler (List.mem_append_right _ (List.mem_singleton_self _))

end Routes

/-! ## Who reaches a server -/

section Runs

variable {J : Interface} {τ ι : Type} [DecidableEq ι] {packages : AuthPackages} {secret : String}
  {mayFail : Prop} {others : Service J τ} {requests : ι → Request J} {start : AuthState × τ}
  {events front back : List (ι × Event (routed J))}
  {final : World (routed J) (AuthState × τ) ι Unit}

/-- Requests that are served together. -/
def requesting (packages : AuthPackages) (secret : String) (requests : ι → Request J)
    (start : AuthState × τ) : World (routed J) (AuthState × τ) ι Unit where
  store := start
  threads := fun client => serve packages.jwt secret (requests client)

theorem requesting_earned {client : ι} {event : Event (routed J)}
    (run : World.Steps (Service.sum (routes packages secret mayFail) others)
      (requesting packages secret requests start) events final)
    (place : events = front ++ (client, event) :: back) :
    ∃ state, Needs packages secret (requests client) (ownEvents client front) state event ∧
      UsersKept state final.store :=
  World.Steps.earned (fun client => serves_serve (requests client)) run place

end Runs

/-! ### One administrator -/

section Administrator

def administratorClaims : Claims := ⟨1, "admin", tokenLifetime, 0, issuer⟩

/-- The only token is the one of the administrator. -/
def administratorPackages : AuthPackages where
  jwt := ⟨fun claims key =>
    if claims = administratorClaims ∧ key = "key" then .ok "token" else .error "key is invalid"⟩
  parseWithClaims := fun text keyFunc _ now =>
    match keyFunc ⟨"HS256", true⟩ with
    | .error err => .error err
    | .ok key =>
        if text = "token" ∧ key = "key" ∧ now < tokenLifetime then
          .ok ⟨some administratorClaims, true⟩
        else .error "token is invalid"
  compareHashAndPassword := fun hash password => hash = password

/-- A handler that makes one call. -/
abbrev oneCall : Interface := ⟨Unit, fun _ => Unit⟩

def answerRoutes (state : AuthState × Unit) :
    (command : (routed oneCall).Command) → (routed oneCall).Reply command × (AuthState × Unit)
  | .inl (.inl command) =>
      let answered := answerSetup state.1.1 command
      (answered.1, ((answered.2, state.1.2), ()))
  | .inl (.inr (.getUserByUsername username)) =>
      (.ok (state.1.1.rows.find? fun user => user.username = username), state)
  | .inl (.inr (.compareHashAndPassword hash password)) => (decide (hash = password), state)
  | .inl (.inr (.validateToken text)) =>
      (((0 : Int), validateToken administratorPackages.parseWithClaims text "key" 0), state)
  | .inl (.inr (.enter now ip)) =>
      let entered := enter authLimit minute state.1.2 now ip
      (entered.1, ((state.1.1, entered.2), ()))
  | .inl (.inr (.write _)) => ((), state)
  | .inr _ => ((), state)

theorem answerRoutes_answers (state : AuthState × Unit) (command : (routed oneCall).Command) :
    Service.sum (routes administratorPackages "key" False) (fun _ _ _ _ => True) state command
      (answerRoutes state command).1 (answerRoutes state command).2 := by
  match command with
  | .inl (.inl command) => exact ⟨⟨answerSetup_answers state.1.1 command, rfl⟩, rfl⟩
  | .inl (.inr (.getUserByUsername username)) => exact ⟨⟨rfl, Or.inl rfl⟩, rfl⟩
  | .inl (.inr (.compareHashAndPassword hash password)) => exact ⟨⟨rfl, rfl⟩, rfl⟩
  | .inl (.inr (.validateToken text)) => exact ⟨⟨rfl, rfl⟩, rfl⟩
  | .inl (.inr (.enter now ip)) => exact ⟨⟨rfl, rfl⟩, rfl⟩
  | .inl (.inr (.write _)) => exact ⟨rfl, rfl⟩
  | .inr _ => exact ⟨trivial, rfl⟩

end Administrator

/-! ## How often a password can be tried -/

theorem clientsAfter_concat (limit : Nat) (window : Time) (clients : Clients)
    (attempts : List Arrival) (last : Arrival) :
    clientsAfter limit window clients (attempts ++ [last]) =
      (enter limit window (clientsAfter limit window clients attempts) last.now last.ip).2 := by
  induction attempts generalizing clients with
  | nil => rfl
  | cons attempt rest ih => exact ih _

theorem history_concat (limit : Nat) (window : Time) (clients : Clients)
    (attempts : List Arrival) (last : Arrival) :
    history limit window clients (attempts ++ [last]) = history limit window clients attempts ++
      [(last, (enter limit window (clientsAfter limit window clients attempts) last.now
        last.ip).1)] := by
  induction attempts generalizing clients with
  | nil => rfl
  | cons attempt rest ih => exact congrArg (_ :: ·) (ih _)

section Guesses

variable {J : Interface} {τ ι : Type} [DecidableEq ι] {packages : AuthPackages} {secret : String}
  {mayFail : Prop} {others : Service J τ} {requests : ι → Request J} {start : AuthState × τ}
  {events : List (ι × Event (routed J))} {final : World (routed J) (AuthState × τ) ι Unit}

/-- One decision of the limiter; when a refusal is written makes no difference to it. -/
def verdictOf : ι × Event (routed J) → Option (ι × Arrival × Limits.Verdict Time)
  | (client, ⟨.inl (.inr (.enter now ip)), verdict⟩) => some (client, ⟨now, ip, now⟩, verdict)
  | _ => none

/-- The verdicts of the limiter in their order. -/
def verdicts (events : List (ι × Event (routed J))) :
    List (ι × Arrival × Limits.Verdict Time) :=
  events.filterMap verdictOf

def arrivals (events : List (ι × Event (routed J))) : List Arrival :=
  (verdicts events).map fun decided => decided.2.1

omit [DecidableEq ι] in
/-- Only a decision of the limiter touches its windows. -/
theorem limiter_step (client : ι) {before after : AuthState × τ}
    {command : (routed J).Command} {reply : (routed J).Reply command}
    (answer : Service.sum (routes packages secret mayFail) others before command reply after) :
    (∃ arrival verdict, verdictOf (client, ⟨command, reply⟩) = some (client, arrival, verdict) ∧
        (verdict, after.1.2) = enter authLimit minute before.1.2 arrival.now arrival.ip) ∨
      (verdictOf (client, ⟨command, reply⟩) = none ∧ after.1.2 = before.1.2) := by
  match command, reply, answer with
  | .inl (.inl command), reply, ⟨⟨_, hsame⟩, _⟩ => exact Or.inr ⟨rfl, hsame⟩
  | .inl (.inr (.enter now ip)), verdict, ⟨⟨hentered, _⟩, _⟩ =>
      exact Or.inl ⟨⟨now, ip, now⟩, verdict, rfl, hentered⟩
  | .inl (.inr (.write response)), reply, ⟨hsame, _⟩ =>
      exact Or.inr ⟨rfl, congrArg Prod.snd hsame⟩
  | .inl (.inr (.getUserByUsername username)), reply, ⟨⟨hsame, _⟩, _⟩ =>
      exact Or.inr ⟨rfl, congrArg Prod.snd hsame⟩
  | .inl (.inr (.compareHashAndPassword hash password)), reply, ⟨⟨hsame, _⟩, _⟩ =>
      exact Or.inr ⟨rfl, congrArg Prod.snd hsame⟩
  | .inl (.inr (.validateToken text)), reply, ⟨⟨hsame, _⟩, _⟩ =>
      exact Or.inr ⟨rfl, congrArg Prod.snd hsame⟩
  | .inr command, reply, ⟨_, hsame⟩ => exact Or.inr ⟨rfl, congrArg Prod.snd hsame⟩

/-- The limiter of a run is the one that meets its requests one after the other. -/
theorem limiter_of_run (empty : start.1.2 = ∅)
    (run : World.Steps (Service.sum (routes packages secret mayFail) others)
      (requesting packages secret requests start) events final) :
    (verdicts events).map Prod.snd = history authLimit minute ∅ (arrivals events) ∧
      final.store.1.2 = clientsAfter authLimit minute ∅ (arrivals events) := by
  refine run.service_invariant (fun events state =>
    (verdicts events).map Prod.snd = history authLimit minute ∅ (arrivals events) ∧
      state.1.2 = clientsAfter authLimit minute ∅ (arrivals events)) ⟨rfl, empty⟩ ?_
  intro events client before command reply after sofar answer
  obtain ⟨hhistory, hclients⟩ := sofar
  unfold arrivals verdicts at *
  rw [List.filterMap_append]
  rcases limiter_step client answer with ⟨arrival, verdict, hdecided, hentered⟩ |
    ⟨hundecided, hsame⟩
  · rw [List.filterMap_cons_some hdecided, List.filterMap_nil, List.map_append, List.map_append,
      hhistory]
    simp only [List.map_cons, List.map_nil]
    rw [history_concat, clientsAfter_concat, ← hclients, ← hentered]
    exact ⟨rfl, rfl⟩
  · rw [List.filterMap_cons_none hundecided, List.filterMap_nil, List.append_nil, hsame]
    exact ⟨hhistory, hclients⟩

/-- A request meets the limiter once. -/
theorem entered_once {client : ι} {now other : Time} {ip address : String}
    {verdict judged : Limits.Verdict Time}
    (run : World.Steps (Service.sum (routes packages secret mayFail) others)
      (requesting packages secret requests start) events final)
    (first : (client, entered now ip verdict) ∈ events)
    (second : (client, entered other address judged) ∈ events) :
    now = other ∧ ip = address ∧ verdict = judged := by
  obtain ⟨front, back, rfl⟩ := List.append_of_mem first
  rcases List.mem_append.mp second with hfront | hback
  · obtain ⟨_, hneeds, -⟩ := requesting_earned run rfl
    exact absurd (mem_ownEvents_iff.mpr hfront) (hneeds other address judged)
  · rcases List.mem_cons.mp hback with hsame | hlater
    · unfold entered at hsame
      cases hsame
      exact ⟨rfl, rfl, rfl⟩
    · obtain ⟨middle, rest, rfl⟩ := List.append_of_mem hlater
      have hplace : front ++ (client, entered now ip verdict) ::
          (middle ++ (client, entered other address judged) :: rest) =
          (front ++ (client, entered now ip verdict) :: middle) ++
            (client, entered other address judged) :: rest := by simp
      obtain ⟨_, hneeds, -⟩ := requesting_earned run hplace
      refine absurd (mem_ownEvents_iff.mpr ?_) (hneeds now ip verdict)
      exact List.mem_append_right _ List.mem_cons_self

/-- A hash is only computed for a request that the limiter has let in, and once. -/
theorem bcrypt_earned {front back : List (ι × Event (routed J))} {client : ι}
    {event : Event (routed J)}
    (run : World.Steps (Service.sum (routes packages secret mayFail) others)
      (requesting packages secret requests start) events final)
    (place : events = front ++ (client, event) :: back) (hash : Bcrypt event) :
    (∃ now ip verdict, (requests client).ip = some ip ∧ verdict.blocked = false ∧
      (client, entered now ip verdict) ∈ front) ∧
        ∀ earlier, (client, earlier) ∈ front → ¬ Bcrypt earlier := by
  obtain ⟨state, hneeds, -⟩ := requesting_earned run place
  have hboth : LetIn (requests client) (ownEvents client front) ∧
      ∀ earlier ∈ ownEvents client front, ¬ Bcrypt earlier := by
    match event, hash, hneeds with
    | ⟨.inl (.inl (.inr (.hashPassword _))), _⟩, _, hneeds => exact hneeds
    | ⟨.inl (.inr (.compareHashAndPassword _ _)), _⟩, _, hneeds => exact hneeds
  obtain ⟨⟨now, ip, verdict, hip, hfree, hentered⟩, hfresh⟩ := hboth
  refine ⟨⟨now, ip, verdict, hip, hfree, mem_ownEvents_iff.mp hentered⟩, fun earlier hearlier => ?_⟩
  exact hfresh earlier (mem_ownEvents_iff.mpr hearlier)

/-- The address is let in at most twice as often as the limit in any minute. -/
theorem countP_verdicts_le {ip : String} {since : Time} (empty : start.1.2 = ∅)
    (run : World.Steps (Service.sum (routes packages secret mayFail) others)
      (requesting packages secret requests start) events final)
    (ordered : ((arrivals events).map Arrival.now).Pairwise (· ≤ ·)) :
    (verdicts events).countP (fun decided =>
      admittedWithin ip since (since + minute) decided.2) ≤ 2 * authLimit := by
  obtain ⟨clock, slot, hsound⟩ := admissions_sound authLimit (by decide : 0 < minute) ip ordered
  have hinterval := hsound.interval_le since
  rw [countP_admissions ip fun now _ => since ≤ now ∧ now < since + minute,
    ← (limiter_of_run empty run).1, List.countP_map] at hinterval
  exact hinterval

/--
In any run, a request computes a hash of a password only after the limiter has let it in
under its address, and at most one.  When the requests enter the limiter in the order in
which they have read the clock, at most twice ten requests of one address do so that the
limiter has let in within the same minute.
-/
theorem guesses_bounded (empty : start.1.2 = ∅)
    (run : World.Steps (Service.sum (routes packages secret mayFail) others)
      (requesting packages secret requests start) events final) :
    (∀ front client event back, events = front ++ (client, event) :: back → Bcrypt event →
      (∃ now ip verdict, (requests client).ip = some ip ∧ verdict.blocked = false ∧
        (client, entered now ip verdict) ∈ front) ∧
      ∀ earlier, (client, earlier) ∈ front → ¬ Bcrypt earlier) ∧
    (((arrivals events).map Arrival.now).Pairwise (· ≤ ·) →
      ∀ (ip : String) (since : Time) (clients : Finset ι),
        (∀ client ∈ clients, ∃ event now verdict, (client, event) ∈ events ∧ Bcrypt event ∧
          (client, entered now ip verdict) ∈ events ∧ since ≤ now ∧ now < since + minute) →
        clients.card ≤ 20) := by
  refine ⟨fun front client event back place hash => bcrypt_earned run place hash, ?_⟩
  intro ordered ip since clients guess
  have hsub : clients ⊆ (((verdicts events).filter fun decided =>
      admittedWithin ip since (since + minute) decided.2).map Prod.fst).toFinset := by
    intro client hclient
    obtain ⟨event, now, verdict, hevent, hbcrypt, hentered, hsince, huntil⟩ :=
      guess client hclient
    obtain ⟨front, back, rfl⟩ := List.append_of_mem hevent
    obtain ⟨⟨other, address, judged, -, hfree, hfront⟩, -⟩ := bcrypt_earned run rfl hbcrypt
    obtain ⟨rfl, rfl, rfl⟩ :=
      entered_once run hentered (List.mem_append_left _ hfront)
    rw [List.mem_toFinset, List.mem_map]
    refine ⟨(client, ⟨now, ip, now⟩, verdict), List.mem_filter.mpr ⟨?_, ?_⟩, rfl⟩
    · exact List.mem_filterMap.mpr ⟨_, hentered, rfl⟩
    · simp [admittedWithin, hfree, hsince, huntil]
  calc clients.card
      ≤ _ := Finset.card_le_card hsub
    _ ≤ _ := List.toFinset_card_le _
    _ = (verdicts events).countP (fun decided =>
          admittedWithin ip since (since + minute) decided.2) := by
        rw [List.length_map, List.countP_eq_length_filter]
    _ ≤ 2 * authLimit := countP_verdicts_le empty run ordered

/-- Two logins from one address, only one with the right password. -/
def twoLogins (client : Bool) : Request oneCall :=
  .login "198.51.100.7" (.ok ⟨"admin", if client then "correct horse" else "guess"⟩)

/-- The logins begin at a table with the administrator. -/
def loggingIn : World (routed oneCall) (AuthState × Unit) Bool Unit :=
  requesting administratorPackages "key" twoLogins
    (((Table.empty 0).insert (User.created "admin" "correct horse" ""), ∅), ())

/-- The logins take turns. -/
def loginRun : List (Bool × Event (routed oneCall)) ×
    World (routed oneCall) (AuthState × Unit) Bool Unit :=
  loggingIn.interleave answerRoutes
    [true, false, true, false, true, false, true, false, true, false, true, true]

/-- Both logins are let in before either password is compared. -/
theorem guesses_bounded_logins :
    World.Steps (Service.sum (routes administratorPackages "key" False) (fun _ _ _ _ => True))
      loggingIn loginRun.1 loginRun.2 ∧
    (∀ client, ∃ password, (client, compared "correct horse" password client) ∈ loginRun.1) ∧
    (∀ front client event back, loginRun.1 = front ++ (client, event) :: back → Bcrypt event →
      ∃ now verdict, verdict.blocked = false ∧
        (client, entered now "198.51.100.7" verdict) ∈ front) ∧
    (Finset.univ : Finset Bool).card ≤ 20 := by
  have run : World.Steps _ loggingIn loginRun.1 loginRun.2 :=
    World.Steps.interleave answerRoutes_answers loggingIn _
  have hentered : ∀ client, ∃ verdict,
      (client, entered 0 "198.51.100.7" verdict) ∈ loginRun.1 := by
    intro client
    cases client with
    | false => exact ⟨_, List.mem_of_getElem? (i := 3) rfl⟩
    | true => exact ⟨_, List.mem_of_getElem? (i := 2) rfl⟩
  have hcompared : ∀ client, ∃ password,
      (client, compared "correct horse" password client) ∈ loginRun.1 := by
    intro client
    cases client with
    | false => exact ⟨"guess", List.mem_of_getElem? (i := 7) rfl⟩
    | true => exact ⟨"correct horse", List.mem_of_getElem? (i := 6) rfl⟩
  obtain ⟨hearned, hbounded⟩ := guesses_bounded rfl run
  refine ⟨run, hcompared, ?_, ?_⟩
  · intro front client event back place hash
    obtain ⟨⟨now, ip, verdict, hip, hfree, hlet⟩, -⟩ := hearned front client event back place hash
    cases hip
    exact ⟨now, verdict, hfree, hlet⟩
  · refine hbounded (by decide +kernel) "198.51.100.7" 0 _ fun client _ => ?_
    obtain ⟨verdict, hverdict⟩ := hentered client
    obtain ⟨password, hpassword⟩ := hcompared client
    exact ⟨_, 0, verdict, hpassword, trivial, hverdict, le_refl 0, by decide⟩

end Guesses

end OpsUp.Api
