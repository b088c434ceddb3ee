import OpsUp.Interaction.RelyGuarantee
import OpsUp.Storage.Table

/-!
# Users

The first user is inserted by one statement that also checks that there is none.
-/

namespace OpsUp.Models

open OpsUp.Interaction OpsUp.Storage

structure User where
  id : Int
  username : String
  password : String
  createdAt : String
  updatedAt : String
  deriving DecidableEq, Repr

instance : Keyed User where
  rowId := User.id
  withId := fun id user => { user with id := id }
  rowId_withId := fun _ _ => rfl
  withId_rowId := fun _ => rfl

abbrev UsersTable := Table User

inductive UserStatement where
  /-- `SELECT COUNT(*) FROM users` -/
  | countUsers
  /-- `INSERT INTO users (username, password) SELECT ?, ? WHERE NOT EXISTS (SELECT 1 FROM users)` -/
  | insertFirstUser (username passwordHash : String)

/-- What the result of an `INSERT` answers when it is asked. -/
structure Inserted where
  rowsAffected : Except String Nat
  lastInsertId : Except String Int
  deriving DecidableEq

@[reducible]
def UserStatement.Answer : UserStatement → Type
  | .countUsers => Nat
  | .insertFirstUser _ _ => Inserted

abbrev usersDB : Interface where
  Command := UserStatement
  Reply := fun statement => Except String statement.Answer

/-- The row of a new user, before it has its id. -/
def User.created (username passwordHash now : String) : User :=
  ⟨0, username, passwordHash, now, now⟩

/--
The database.  One statement is atomic, its result answers, and where statements
may fail a failed one changes nothing.
-/
def users (mayFail : Prop) : Service usersDB UsersTable
  | table, .countUsers, reply, after => after = table ∧
      (reply = .ok table.rows.length ∨ (mayFail ∧ ∃ err, reply = .error err))
  | table, .insertFirstUser username passwordHash, reply, after =>
      (table.rows = [] ∧ reply = .ok ⟨.ok 1, .ok (table.sequence + 1)⟩ ∧
        ∃ now, after = table.insert (User.created username passwordHash now)) ∨
      (table.rows ≠ [] ∧ (∃ last, reply = .ok ⟨.ok 0, .ok last⟩) ∧ after = table) ∨
      (mayFail ∧ (∃ err, reply = .error err) ∧ after = table)

def countUsers : Program usersDB (Except String Nat) := .call .countUsers .ret

inductive CreateUserError where
  | alreadyInitialized
  | failed (text : String)
  deriving DecidableEq, Repr

/-- What `CreateFirstUser` makes of the result of its statement. -/
def createdUser (username : String) : Except String Inserted → Except CreateUserError User
  | .error err => .error (.failed ("create first user: " ++ err))
  | .ok inserted =>
      match inserted.rowsAffected with
      | .error err => .error (.failed err)
      | .ok n =>
          if n = 0 then .error .alreadyInitialized
          else
            match inserted.lastInsertId with
            | .error err => .error (.failed err)
            | .ok id => .ok ⟨id, username, "", "", ""⟩

def createFirstUser (username passwordHash : String) :
    Program usersDB (Except CreateUserError User) :=
  .call (.insertFirstUser username passwordHash) fun reply => .ret (createdUser username reply)

end OpsUp.Models
