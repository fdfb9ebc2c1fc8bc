import Gallery.Controllers.TwoRuns
import Gallery.Semantics.Commit
import Gallery.Store.Toggle

/-!
# Accounts, statement by statement

The requests that store accounts, as programs over single SQL statements of which any number
run at once: OmniAuth callbacks and sign-ups. A look-up sees what has been committed. An
`INSERT` is followed by its `COMMIT`, and the unique index on the e-mail column is checked then;
one that is refused has used up a key. A callback that has found its user ends with the `UPDATE`
of Devise's `trackable`.

Statements on other tables are left out, as are the validations of a callback's new record,
which refuse it whatever they see, and the columns that are no part of a `User` here (Devise's
counters). A request has one time, so the `UPDATE` that follows a sign-up's own `INSERT` writes
what is there.

## Main definitions

* `Job`, `Phase` — the requests, and the statement each is about to issue
* `Phase.at_once` — the server's own action
* `program` — both together
-/

namespace Gallery.SignIns

open Store Rails App Semantics

/-- A request that stores an account. -/
inductive Job
  | facebook (auth : Auth) (tracked : Bool) (digest : String) (pick : Id)
  /-- `validatable` is what Devise says of all but the uniqueness of the e-mail. -/
  | sign_up (params : AccountParams) (captcha validatable : Bool) (digest : String)
deriving DecidableEq, Repr

/-- The statement a request is about to issue. -/
inductive Phase
  | idle
  /-- `SELECT` by uid, or of the uniqueness validation -/
  | look_up (job : Job) (now : Time)
  /-- `INSERT`, and `COMMIT` -/
  | insert (job : Job) (now : Time)
  /-- `UPDATE` of the row that a callback has found -/
  | track (auth : Auth) (digest : String) (pick : Id) (now : Time) (id : Id)
  /-- The row is signed in; its uid is what the request has asked for. -/
  | signed_in (uid : Option String) (id : Id)
  | done
  /-- The `INSERT` has raised. -/
  | refused
deriving DecidableEq, Repr

namespace Job

/-- The record a request builds. -/
def account : Job → Account
  | facebook auth _ digest _ => auth.fill fun _ => digest
  | sign_up params _ _ digest => Account.new.assign (fun _ => digest) params

/-- The row it inserts. -/
def row (job : Job) (now : Time) : User := job.account.toUser now

/-- `NOT NULL` of the e-mail, its unique index, and the columns' length limit. -/
def fits (users : Table User) (job : Job) (now : Time) : Bool :=
  job.account.email.isSome && User.storable users (job.row now)

end Job

/-- `SELECT` of the uniqueness validation -/
def unique (users : Table User) (account : Account) : Bool :=
  !users.rows.any fun u => u.val.email = Account.email_key (account.email.getD "")

/-- The request goes on to its `INSERT`, once it has not found the user it has looked for. For a
callback there has to be an expiry, and Devise's bookkeeping saves what the validations have
refused. -/
def Job.goes_on (users : Table User) : Job → Bool
  | facebook auth tracked digest _ =>
    !auth.expires_at.isNone && ((auth.fill fun _ => digest).valid? true || tracked)
  | sign_up params captcha validatable digest =>
    let resource := Account.new.assign (fun _ => digest) params
    captcha && resource.valid? (validatable && unique users resource)

/-- `UPDATE` of `update_tracked_fields!` -/
def track (users : Table User) (id : Id) (now : Time) : Table User :=
  users.update fun r => if r.id = id then { r.val with updated_at := now } else r.val

namespace Phase

/-- One statement: the users table, and the next statement of the request. -/
def issue (users : Table User) : Phase → Table User × Phase
  | look_up (.facebook auth tracked digest pick) now =>
    match User.find_by_uid users auth.uid pick with
    | some u =>
      (users, if tracked then .track auth digest pick now u.id else .signed_in auth.uid u.id)
    | none =>
      let job := Job.facebook auth tracked digest pick
      (users, if job.goes_on users then .insert job now else .done)
  | look_up (.sign_up params captcha validatable digest) now =>
    let job := Job.sign_up params captcha validatable digest
    (users, if job.goes_on users then .insert job now else .done)
  | insert job now =>
    if job.fits users now then
      (users.insert (job.row now), .signed_in (job.row now).uid users.next)
    else (users.refuse, .refused)
  | track auth _ _ now id => (SignIns.track users id now, .signed_in auth.uid id)
  | phase => (users, phase)

/-- The request has nothing more to do. -/
def finished : Phase → Bool
  | look_up _ _ => false
  | insert _ _ => false
  | track _ _ _ _ _ => false
  | _ => true

/-- The request has failed with the database's exception. -/
def failed : Phase → Bool
  | refused => true
  | _ => false

end Phase

/-- The request, with what the uniqueness validation says. -/
def Job.route (users : Table User) : Job → Route
  | facebook auth tracked digest pick => .sessions_facebook auth tracked digest pick
  | sign_up params captcha validatable digest =>
    .registrations_create params captcha
      (validatable && unique users (Account.new.assign (fun _ => digest) params)) digest

/-- The users table after the whole action, in a world that is otherwise `rest`. -/
def acted (rest : World) (users : Table User) (job : Job) (now : Time) : Table User :=
  (Action.exec ((job.route users).run none now)
    { rest with db := { rest.db with users := users } }).2.db.users

/-- The action of a request, at once. -/
def Phase.at_once (rest : World) (users : Table User) : Phase → Table User
  | look_up job now | insert job now => acted rest users job now
  | track auth digest pick now _ => acted rest users (.facebook auth true digest pick) now
  | _ => users

/-- The statements of a request, and its action. -/
def program (rest : World) : Program (Table User) Phase where
  idle := .idle
  issue := Phase.issue
  finished := Phase.finished
  failed := Phase.failed
  at_once := Phase.at_once rest

end Gallery.SignIns
