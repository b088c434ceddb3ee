import OpsUp.Go.Strings

/-!
# Session tokens

A token is a signed set of claims.  The signature is a parameter: `signedString`
is HS256 over the claims, and `parse` what the library makes of a presented text.
-/

namespace OpsUp.Auth

open OpsUp.Go

/-- Nanoseconds since the epoch. -/
abbrev Time := Int

structure Claims where
  userId : Int
  username : String
  expiresAt : Time
  issuedAt : Time
  issuer : String
  deriving DecidableEq, Repr

/-- What is used of the JWT library. -/
structure JWT where
  signedString : Claims → String → Except String String

/-- HS256 with a secret of bytes signs whatever it is given. -/
def JWT.Signs (jwt : JWT) : Prop := ∀ claims secret, ∃ token, jwt.signedString claims secret = .ok token

def issuer : String := "opsup"

/-- `24 * time.Hour` -/
def tokenLifetime : Time := 86400000000000

/-- The clock is read once for the expiry and once for the issue. -/
def generateToken (jwt : JWT) (userId : Int) (username secret : String) (now later : Time) :
    Except String (String × Time) :=
  let expiresAt := now + tokenLifetime
  match jwt.signedString ⟨userId, username, expiresAt, later, issuer⟩ secret with
  | .error err => .error ("sign token: " ++ err)
  | .ok token => .ok (token, expiresAt)

/-! ## Validation -/

/-- The header of a presented token: its `alg`, and whether that is one of the HMAC methods. -/
structure TokenHeader where
  alg : String
  hmac : Bool
  deriving DecidableEq, Repr

/-- What parsing is to insist on. -/
structure ParserOptions where
  validMethods : List String
  issuer : String
  expirationRequired : Bool
  deriving DecidableEq, Repr

/-- A parsed token; `claims` is `none` when they are not of the type asked for. -/
structure ParsedToken where
  claims : Option Claims
  valid : Bool
  deriving DecidableEq, Repr

/-- `jwt.ParseWithClaims` at a time; the function gives the secret for a header. -/
abbrev ParseWithClaims : Type :=
  String → (TokenHeader → Except String String) → ParserOptions → Time → Except String ParsedToken

def tokenOptions : ParserOptions where
  validMethods := ["HS256"]
  issuer := issuer
  expirationRequired := true

def validateToken (parse : ParseWithClaims) (tokenString secret : String) (now : Time) :
    Except String Claims :=
  let keyFunc := fun header : TokenHeader =>
    if header.hmac = false then .error ("unexpected signing method: " ++ header.alg) else .ok secret
  match parse tokenString keyFunc tokenOptions now with
  | .error err => .error err
  | .ok token =>
      match token.claims, token.valid with
      | some claims, true => .ok claims
      | _, _ => .error "invalid token"

end OpsUp.Auth
