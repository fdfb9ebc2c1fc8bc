import Gallery.Model.Schema
import Gallery.Semantics.Action

/-!
# What a request can change

A request reads and writes the database, triggers Pusher events, has channel
subscriptions signed and sends mail. It ends with a response or with an
exception, and what it wrote before an exception stays written: each statement
commits on its own.
-/

namespace Gallery

open Store Semantics

/-- The exceptions the modelled code can end with. -/
inductive Failure
  /-- Warden answers in place of the action: the request is not signed in. -/
  | Unauthenticated
  | RecordNotFound
  | RecordInvalid
  /-- PostgreSQL rejects a statement. -/
  | StatementInvalid
  | NameError
  /-- A method called on `nil`. -/
  | NoMethodError
  | TypeError
  /-- Delivering a mail that has no recipient. -/
  | NoRecipient
deriving DecidableEq, Repr

/-- An exception, and whether it was raised while an audit event was written. -/
structure Raised where
  error : Failure
  logging : Bool
deriving DecidableEq, Repr

/-- A user as `to_json` renders it: every column except those Devise blacklists. -/
structure UserJson where
  id : Id
  email : String
  provider : Option String
  uid : Option String
  name : Option String
  oauth_token : Option String
  oauth_expires_at : Option Time
  last_request_at : Option Time
  created_at : Time
  updated_at : Time
deriving DecidableEq, Repr

/-- The payload of a push. A chat text is carried before its JSON encoding,
which is a function of the text alone. -/
inductive PushData
  | comment (comment : Row Comment) (sender_email : String) (picture : Id)
  | message (message : String) (user : UserJson) (receiver_id : Option String)
deriving DecidableEq, Repr

/-- An event triggered on a channel. -/
structure Push where
  channel : String
  event : String
  data : PushData
deriving DecidableEq, Repr

/-- A mail: its recipients and the category names its subject lists. -/
structure Mail where
  recipients : List String
  subject : List String
deriving DecidableEq, Repr

/-- Everything outside the request: the database, the channel subscriptions
signed so far (user and channel), the events triggered and the mail sent. -/
structure World where
  db : Database
  signed : List (Id × String)
  pushes : List Push
  mails : List Mail

/-- A database nobody has used yet, with no subscription, push or mail. -/
def World.ofDatabase (db : Database) : World := ⟨db, [], [], []⟩

/-- Code of the application. -/
abbrev App := Action Raised World

namespace App

variable {α : Type} {w : World}

def raise (e : Failure) : App α := throw ⟨e, false⟩

/-- Marks the exceptions of `m` as raised while the audit log is written. -/
def logging (m : App α) : App α := tryCatch m fun e => throw { e with logging := true }

def database : App Database := return (← get).db

def write (f : Database → Database) : App Unit := modify fun w => { w with db := f w.db }

def trigger (p : Push) : App Unit := modify fun w => { w with pushes := w.pushes ++ [p] }

@[simp] theorem exec_raise (e : Failure) :
    Action.exec (raise e : App α) w = (.error ⟨e, false⟩, w) := rfl

@[simp] theorem exec_database : Action.exec database w = (.ok w.db, w) := rfl

@[simp] theorem exec_write (f : Database → Database) :
    Action.exec (write f) w = (.ok (), { w with db := f w.db }) := rfl

@[simp] theorem exec_trigger (p : Push) :
    Action.exec (trigger p) w = (.ok (), { w with pushes := w.pushes ++ [p] }) := rfl

theorem exec_logging (m : App α) : Action.exec (logging m) w = match Action.exec m w with
    | (.ok a, w') => (.ok a, w')
    | (.error e, w') => (.error { e with logging := true }, w') := by
  unfold logging Action.exec
  simp only [tryCatch, tryCatchThe, MonadExceptOf.tryCatch, ExceptT.tryCatch, ExceptT.run,
    ExceptT.mk, StateT.run, bind, StateT.bind]
  rcases m w with ⟨_ | _, _⟩ <;> rfl

end App

end Gallery
