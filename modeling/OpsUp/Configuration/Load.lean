import OpsUp.Configuration.SecretsFile
import OpsUp.Crypto.Encryption
import OpsUp.Go.Path
import OpsUp.Posix.Disk

/-!
# Configuration

`Load` takes each secret from the environment, or else from the secrets file, which it
creates when there is none.  A Go string is its bytes; a path is worked on as the text
of its bytes.
-/

namespace OpsUp.Configuration

open OpsUp.Go OpsUp.Interaction OpsUp.Posix
open OpsUp.Crypto (legacyEncryptionKey)

structure Config where
  dbPath : Bytes
  jwtSecret : Bytes
  encryptionKey : Bytes
  listen : Bytes
  secretsPath : Bytes
  deriving DecidableEq, Repr

/-- The variables of the process, empty where unset, and what `os.Executable` answers. -/
structure Environment where
  getenv : String → Bytes
  executable : Option Bytes

def getEnv (env : Environment) (key : String) (fallback : Bytes) : Bytes :=
  if env.getenv key ≠ [] then env.getenv key else fallback

def databasePath (env : Environment) : Bytes :=
  let dbPath := getEnv env "OPSUP_DB_PATH" []
  if dbPath = [] then
    match env.executable with
    | none => bytesOf "./opsup.db"
    | some exe => textBytes (joinPath [dirPath (byteText exe), "opsup.db"])
  else dbPath

/-- The configuration before the secrets file is read. -/
def environmentConfig (env : Environment) : Config where
  dbPath := databasePath env
  jwtSecret := env.getenv "OPSUP_JWT_SECRET"
  encryptionKey := env.getenv "OPSUP_ENCRYPTION_KEY"
  listen := getEnv env "OPSUP_LISTEN" (bytesOf ":8080")
  secretsPath := getEnv env "OPSUP_SECRETS_PATH" (databasePath env ++ bytesOf ".secrets.json")

def Config.fill (cfg : Config) (stored : Secrets) : Config :=
  { cfg with
    jwtSecret := if cfg.jwtSecret = [] then stored.jwtSecret else cfg.jwtSecret
    encryptionKey := if cfg.encryptionKey = [] then stored.encryptionKey else cfg.encryptionKey }

def defaultJWTSecret : Bytes := bytesOf "opsup-default-jwt-secret-change-me-in-prod"

def errJWTSecret : String :=
  "OPSUP_JWT_SECRET must be a non-default secret of at least 32 bytes"

def errEncryptionKey : String := "OPSUP_ENCRYPTION_KEY must be 64 hex characters (32 bytes)"

def errLegacyKey : String :=
  "the old default encryption key is unsafe; unset OPSUP_ENCRYPTION_KEY to generate a " ++
    "persistent key and migrate legacy credentials"

/-- The checks that come last; the key is spelled anew. -/
def Config.check (cfg : Config) : Except String Config :=
  if cfg.jwtSecret.length < 32 ∨ cfg.jwtSecret = defaultJWTSecret then .error errJWTSecret
  else
    match hexDecodeString (byteText cfg.encryptionKey) with
    | .error _ => .error errEncryptionKey
    | .ok key =>
        if key.length ≠ 32 then .error errEncryptionKey
        else if hexEncodeToString key = legacyEncryptionKey then .error errLegacyKey
        else .ok { cfg with encryptionKey := bytesOf (hexEncodeToString key) }

/-! ## The secrets file -/

def randomSecret : OnDisk (Except String Bytes) :=
  .call (.random 32) fun
    | .error err => .ret (.error ("generate secret: " ++ err.text))
    | .ok value => .ret (.ok (bytesOf (hexEncodeToString value)))

def writeSecrets (path : Bytes) (stored : Secrets) : OnDisk (Except String Secrets) :=
  .call (.write path (marshalSecrets stored ++ [0x0a])) fun
    | (_, some err) => .ret (.error ("write secrets file: " ++ err.text))
    | (_, none) =>
        .call (.sync path) fun
          | .error err => .ret (.error ("sync secrets file: " ++ err.text))
          | .ok () => .ret (.ok stored)

/-- Exclusive creation; the deferred `Close` comes after everything else. -/
def createSecrets (path : Bytes) (stored : Secrets) : OnDisk (Except String Secrets) :=
  .call (.openFile path 0o600) fun
    | .error err => .ret (.error ("create secrets file: " ++ err.text))
    | .ok () => writeSecrets path stored >>= fun result => .call (.close path) fun _ => .ret result

def generateSecrets (path : Bytes) : OnDisk (Except String Secrets) := do
  match ← randomSecret with
  | .error err => pure (.error err)
  | .ok jwt =>
      match ← randomSecret with
      | .error err => pure (.error err)
      | .ok key => createSecrets path ⟨jwt, key⟩

/-- `explain` is what the decoder says of a text that it refuses. -/
def readSecrets (explain : Bytes → String) (path data : Bytes) : OnDisk (Except String Secrets) :=
  match unmarshalSecrets data with
  | none =>
      .ret (.error ("read secrets file " ++ byteText path ++ ": " ++ explain data ++
        " (restore the original file; do not regenerate it)"))
  | some stored =>
      .call (.chmod path 0o600) fun
        | .error err => .ret (.error ("secure secrets file: " ++ err.text))
        | .ok () => .ret (.ok stored)

def loadOrCreateSecrets (explain : Bytes → String) (path : Bytes) :
    OnDisk (Except String Secrets) :=
  .call (.readFile path) fun
    | .ok data => readSecrets explain path data
    | .error err =>
        if err.notExist = false then .ret (.error ("read secrets file: " ++ err.text))
        else
          .call (.mkdirAll (textBytes (dirPath (byteText path))) 0o700) fun
            | .error err => .ret (.error ("create secrets directory: " ++ err.text))
            | .ok () => generateSecrets path

/-- `Load` -/
def load (explain : Bytes → String) (env : Environment) : OnDisk (Except String Config) :=
  let cfg := environmentConfig env
  if cfg.jwtSecret = [] ∨ cfg.encryptionKey = [] then do
    match ← loadOrCreateSecrets explain cfg.secretsPath with
    | .error err => pure (.error err)
    | .ok stored => pure (cfg.fill stored).check
  else pure cfg.check

end OpsUp.Configuration
