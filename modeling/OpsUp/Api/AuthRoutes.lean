import OpsUp.Api.AuthHandler
import OpsUp.Api.RateLimit

/-!
# The routes and who may use them

What `SetupRouter` puts before its handlers: the rate limit before `AuthSetup` and
`AuthLogin`, and the check of a token before everything that concerns a server.  The
handlers behind the check are any programs at all.
-/

namespace OpsUp.Api

open OpsUp.Auth OpsUp.Go OpsUp.Interaction OpsUp.Models OpsUp.Storage

/-! ## The calls of the routes -/

structure LoginRequest where
  username : String
  password : String
  deriving DecidableEq, Repr

/-- What decoding the JSON body yields. -/
abbrev LoginBody := Except String LoginRequest

inductive RouteResponse where
  | json (response : AuthResponse)
  | initialized (initialized : Bool)
  /-- with the seconds of its `Retry-After` -/
  | limited (status : Nat) (retryAfter : Int) (error : String)
  deriving DecidableEq, Repr

inductive RouteCommand where
  /-- `SELECT … FROM users WHERE username = ?` -/
  | getUserByUsername (username : String)
  /-- `bcrypt.CompareHashAndPassword` -/
  | compareHashAndPassword (hash password : String)
  /-- The clock is read within. -/
  | validateToken (tokenString : String)
  /-- What `authRateLimit` does between `mu.Lock()` and `mu.Unlock()`. -/
  | enter (now : Time) (ip : String)
  | write (response : RouteResponse)

@[reducible]
def RouteCommand.Reply : RouteCommand → Type
  | .getUserByUsername _ => Except String (Option User)
  | .compareHashAndPassword _ _ => Bool
  | .validateToken _ => Time × Except String Claims
  | .enter _ _ => Limits.Verdict Time
  | .write _ => Unit

/-- The calls of `AuthSetup` and those of the other routes. -/
abbrev routeCalls : Interface := setupInterface.sum ⟨RouteCommand, RouteCommand.Reply⟩

abbrev Routes := Program routeCalls

/-! ## The handlers -/

def loginFieldError (field : String) : String :=
  "Key: 'loginRequest." ++ field ++ "' Error:Field validation for '" ++ field ++
    "' failed on the 'required' tag"

/-- The fields that `binding:"required"` finds empty. -/
def loginErrors (req : LoginRequest) : List String :=
  (if req.username = "" then [loginFieldError "Username"] else []) ++
    if req.password = "" then [loginFieldError "Password"] else []

def bindLogin (body : LoginBody) : Except String LoginRequest :=
  match body with
  | .error err => .error err
  | .ok req =>
      if loginErrors req = [] then .ok req else .error ("\n".intercalate (loginErrors req))

def invalidLogin (err : String) : AuthResponse := ⟨400, .error err⟩
def authenticationFailed : AuthResponse := ⟨500, .error "failed to authenticate"⟩
def invalidCredentials : AuthResponse := ⟨401, .error "invalid credentials"⟩

section Handlers

variable (jwt : JWT) (secret : String)

def authStatus : Routes RouteResponse := do
  match ← countUsers.inl.inl with
  | .error _ => pure (.json initializationFailed)
  | .ok count => pure (.initialized (0 < count))

def authLogin (body : LoginBody) : Routes AuthResponse :=
  match bindLogin body with
  | .error err => .ret (invalidLogin err)
  | .ok req =>
      .call (.inr (.getUserByUsername req.username)) fun
        | .error _ => .ret authenticationFailed
        | .ok none => .ret invalidCredentials
        | .ok (some user) =>
            .call (.inr (.compareHashAndPassword user.password req.password)) fun matched =>
              if matched then (respondWithToken jwt secret user).inl else .ret invalidCredentials

def write (response : RouteResponse) : Routes Unit :=
  .call (.inr (.write response)) fun _ => .ret ()

/-- `authRateLimit` before the handlers that follow it. -/
def limitedTo (ip : String) (next : Routes Unit) : Routes Unit :=
  .call (.inl (.inr .now)) fun now =>
    .call (.inr (.enter now ip)) fun verdict =>
      if verdict.blocked then
        .call (.inl (.inr .now)) fun headerAt =>
          write (.limited tooManyRequests (retryAfter verdict.value.untilTime headerAt)
            errTooManyAttempts)
      else next

end Handlers

/-! ## Behind a token -/

section Guarded

variable {J : Interface}

/-- The routes beside what the handlers behind the token do. -/
abbrev routed (J : Interface) : Interface := routeCalls.sum J

def abortWith (status : Nat) (text : String) : Program (routed J) Unit :=
  (write (.json ⟨status, .error text⟩)).inl

/-- No handler reads the `userID` and the `username` that are set for it. -/
def jwtAuthMiddleware (authHeader : String) (next : Program J Unit) :
    Program (routed J) Unit :=
  if authHeader = "" then abortWith 401 "missing authorization header"
  else
    match splitTwo authHeader ' ' with
    | [scheme, tokenString] =>
        if scheme ≠ "Bearer" then abortWith 401 "invalid authorization format"
        else
          .call (.inl (.inr (.validateToken tokenString))) fun
            | (_, .error _) => abortWith 401 "invalid token"
            | (_, .ok _) => next.inr
    | _ => abortWith 401 "invalid authorization format"

/-- `TerminalHandler`, with what it does from loading the server on. -/
def terminalHandler (param token : String) (next : Int → Program J Unit) :
    Program (routed J) Unit :=
  match parseInt param with
  | none => abortWith 400 "invalid server id"
  | some id =>
      if id ≤ 0 then abortWith 400 "invalid server id"
      else
        .call (.inl (.inr (.validateToken token))) fun
          | (_, .error _) => abortWith 401 "invalid token"
          | (_, .ok _) => (next id).inr

/-- A request by the route that it matches, with what the route reads of it. -/
inductive Request (J : Interface) where
  /-- `GET /api/auth/status` -/
  | status
  /-- `POST /api/auth/setup` -/
  | setup (ip : String) (body : SetupBody)
  /-- `POST /api/auth/login` -/
  | login (ip : String) (body : LoginBody)
  /-- below `/api/servers`, with the handler of its route -/
  | servers (authHeader : String) (handler : Program J Unit)
  /-- `GET /api/terminal/:serverId` -/
  | terminal (param token : String) (handler : Int → Program J Unit)

def serve (jwt : JWT) (secret : String) : Request J → Program (routed J) Unit
  | .status => (authStatus >>= write).inl
  | .setup ip body =>
      (limitedTo ip ((authSetup jwt secret body).inl >>= fun response =>
        write (.json response))).inl
  | .login ip body =>
      (limitedTo ip (authLogin jwt secret body >>= fun response => write (.json response))).inl
  | .servers authHeader handler => jwtAuthMiddleware authHeader handler
  | .terminal param token handler => terminalHandler param token handler

end Guarded

/-! ## What the calls do -/

/-- `authRateLimit(10, time.Minute)` -/
def authLimit : Nat := 10

/-- The packages that are called. -/
structure AuthPackages where
  jwt : JWT
  parseWithClaims : ParseWithClaims
  /-- whether the hash is one of the password -/
  compareHashAndPassword : String → String → Bool

/-- The users and the windows of the rate limit. -/
abbrev AuthState := UsersTable × Clients

def routes (packages : AuthPackages) (secret : String) (mayFail : Prop) :
    Service routeCalls AuthState
  | state, .inl command, reply, after =>
      setupService mayFail state.1 command reply after.1 ∧ after.2 = state.2
  | state, .inr (.getUserByUsername username), reply, after => after = state ∧
      (reply = .ok (state.1.rows.find? fun user => user.username = username) ∨
        (mayFail ∧ ∃ err, reply = .error err))
  | state, .inr (.compareHashAndPassword hash password), reply, after =>
      after = state ∧ reply = packages.compareHashAndPassword hash password
  | state, .inr (.validateToken tokenString), reply, after =>
      after = state ∧
        reply.2 = validateToken packages.parseWithClaims tokenString secret reply.1
  | state, .inr (.enter now ip), reply, after =>
      (reply, after.2) = enter authLimit minute state.2 now ip ∧ after.1 = state.1
  | state, .inr (.write _), _, after => after = state

end OpsUp.Api
