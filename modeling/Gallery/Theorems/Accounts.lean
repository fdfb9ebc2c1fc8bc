import Gallery.Controllers.Server

/-!
# Storing an account

The paths that write an account: the sign-up form, the password-reset form, the
edit form, the first Facebook callback of a uid, and the admin form for admin
users. Each loads or builds a record, assigns the fields its view or its code
supplies, and saves with the model's validations. Both models require
`remember_me` to be present on every save; it is a virtual attribute, no path
assigns it, and so no path stores anything.

## Main definitions

* `Submission` — what each path submits
* `Submission.record`, `Submission.store` — the record about to be saved, and the save
* `Submission.WellFormed` — the submissions that ought to be stored

## Main results

* `record_remember_me` — no path assigns `remember_me`
* `submission_never_stored` — no submission is stored
* `exec_registration_form`, `exec_first_callback` — the same of the two controller actions
-/

namespace Gallery

open Store Rails App Semantics

/-- The columns of `admin_users`. -/
structure AdminUser where
  email : String
  encrypted_password : String
deriving DecidableEq, Repr

/-- The two tables of accounts. -/
structure Accounts where
  users : Table User
  admin_users : Table AdminUser

/-- Devise's part: what its `validatable` module says of a record, the password
digest, and the comparison of a stored digest with a password. -/
structure Devise where
  validatable : Account → Bool
  digest : String → String
  valid_password : String → String → Bool

/-- A submission of one of the forms, or a Facebook callback. The row a reset
token or a session belongs to is known by its id. -/
inductive Submission
  | sign_up (email password password_confirmation : String) (captcha : Bool)
  | reset (user : Id) (password password_confirmation : String)
  | edit (user : Id) (email password password_confirmation current_password : String)
  | facebook (auth : Auth)
  | admin_create (email password password_confirmation : String)
  | admin_update (admin : Id) (email password password_confirmation : String)
deriving DecidableEq, Repr

/-- An admin user loaded from its row. -/
def AdminUser.load (a : AdminUser) : Account :=
  { Account.new with email := some a.email, encrypted_password := a.encrypted_password }

/-- `update_with_password` drops a blank password, and a blank confirmation with it. -/
def Account.editParams (email password password_confirmation : String) : AccountParams where
  email := some email
  password := if blank? password then none else some password
  password_confirmation :=
    if blank? password && blank? password_confirmation then none else some password_confirmation
  remember_me := none

namespace Submission

variable (d : Devise) (t : Accounts) (now : Time)

/-- The record a path is about to save: built or loaded, with the fields of the
path assigned. `none` when the path does not get that far. -/
def record : Submission → Option Account
  | sign_up email password password_confirmation captcha =>
    if captcha then
      some (Account.new.assign d.digest
        ⟨some email, some password, some password_confirmation, none⟩)
    else none
  | reset user password password_confirmation =>
    (t.users.find? user).map fun u =>
      (Account.load u.val).assign d.digest
        ⟨none, some password, some password_confirmation, none⟩
  | edit user email password password_confirmation current_password =>
    (t.users.find? user).bind fun u =>
      -- `update_with_password` asks for the current password first
      if d.valid_password u.val.encrypted_password current_password then
        some ((Account.load u.val).assign d.digest
          (Account.editParams email password password_confirmation))
      else none
  | facebook auth =>
    -- a known uid is only signed in, and `Time.at(nil)` raises
    if t.users.rows.any (fun u => u.val.uid = auth.uid) || auth.expires_at.isNone then none
    else some (auth.fill d.digest)
  | admin_create email password password_confirmation =>
    some (Account.new.assign d.digest
      ⟨some email, some password, some password_confirmation, none⟩)
  | admin_update admin email password password_confirmation =>
    (t.admin_users.find? admin).map fun a =>
      a.val.load.assign d.digest
        ⟨some email, some password, some password_confirmation, none⟩

/-- The tables with the record written. -/
def write (a : Account) : Submission → Accounts
  | sign_up .. | facebook _ => { t with users := t.users.insert (a.toUser now) }
  | reset i .. | edit i .. =>
    { t with
      users := t.users.update fun u =>
        if u.id = i then
          { u.val with
            email := Account.email_key (a.email.getD "")
            encrypted_password := a.encrypted_password
            updated_at := now }
        else u.val }
  | admin_create .. =>
    { t with
      admin_users := t.admin_users.insert
        ⟨Account.email_key (a.email.getD ""), a.encrypted_password⟩ }
  | admin_update i .. =>
    { t with
      admin_users := t.admin_users.update fun r =>
        if r.id = i then ⟨Account.email_key (a.email.getD ""), a.encrypted_password⟩
        else r.val }

/-- `save`, with all the model's validations: the tables afterwards, or `none`
when nothing is stored. -/
def store (s : Submission) : Option Accounts :=
  (s.record d t).bind fun a =>
    if a.valid? (d.validatable a) then some (s.write t now a) else none

/-- A password of 4 to 128 characters, confirmed. -/
def goodPassword (password password_confirmation : String) : Prop :=
  4 ≤ password.length ∧ password.length ≤ 128 ∧ password_confirmation = password

/-- The submission gets as far as the save, Devise has no objection to the
record, and the password is as the forms ask for it. The edit form may leave
the password blank. -/
def WellFormed (s : Submission) : Prop :=
  (∃ a, s.record d t = some a ∧ d.validatable a = true) ∧
    match s with
    | sign_up _ password confirmation _ => goodPassword password confirmation
    | reset _ password confirmation => goodPassword password confirmation
    | edit _ _ password confirmation _ =>
      goodPassword password confirmation ∨ password = "" ∧ confirmation = ""
    | facebook _ => True
    | admin_create _ password confirmation => goodPassword password confirmation
    | admin_update _ _ password confirmation => goodPassword password confirmation

end Submission

section Paths

variable {d : Devise} {t : Accounts} {now : Time} {s : Submission} {a : Account}

/-- No path assigns `remember_me`, and neither a new record nor a loaded one has it. -/
theorem record_remember_me (h : s.record d t = some a) : a.remember_me = none := by
  cases s with
  | sign_up email password confirmation captcha =>
    obtain ⟨-, ha⟩ := Option.ite_none_right_eq_some.mp h
    rw [← Option.some.inj ha, Account.assign_remember_me]
    rfl
  | reset i password confirmation =>
    obtain ⟨u, -, rfl⟩ := Option.map_eq_some_iff.mp h
    rw [Account.assign_remember_me]
    rfl
  | edit i email password confirmation current_password =>
    obtain ⟨u, -, ha⟩ := Option.bind_eq_some_iff.mp h
    obtain ⟨-, ha⟩ := Option.ite_none_right_eq_some.mp ha
    rw [← Option.some.inj ha, Account.assign_remember_me]
    rfl
  | facebook auth =>
    obtain ⟨-, ha⟩ := Option.ite_none_left_eq_some.mp h
    rw [← Option.some.inj ha]
    rfl
  | admin_create email password confirmation =>
    rw [← Option.some.inj h, Account.assign_remember_me]
    rfl
  | admin_update i email password confirmation =>
    obtain ⟨r, -, rfl⟩ := Option.map_eq_some_iff.mp h
    rw [Account.assign_remember_me]
    rfl

/-- Whatever the tables, whatever Devise says and whatever is submitted, no path
stores its submission. -/
theorem submission_never_stored (d : Devise) (t : Accounts) (now : Time) (s : Submission) :
    s.store d t now = none := by
  rw [Submission.store, Option.bind_eq_none_iff]
  intro a ha
  rw [Account.not_valid?_of_remember_me (record_remember_me ha)]
  rfl

end Paths

/-! ### The two controller actions among the paths -/

/-- The sign-up form shows its page again and changes nothing. -/
theorem exec_registration_form (email password password_confirmation : String)
    (captcha validatable : Bool) (digest : String) (now : Time) (w : World) :
    Action.exec (RegistrationsController.create
      ⟨some email, some password, some password_confirmation, none⟩ captcha validatable digest now)
      w = (.ok .page, w) := by
  have hinvalid := Account.not_valid?_of_remember_me (a := Account.new.assign (fun _ => digest)
    ⟨some email, some password, some password_confirmation, none⟩)
    (by rw [Account.assign_remember_me]; rfl) validatable
  simp [RegistrationsController.create, hinvalid]

/-- The validated save of the first Facebook callback of a uid stores nothing. -/
theorem exec_first_callback (auth : Auth) (digest : String) (pick : Id) (now : Time) (w : World)
    (hnew : ∀ u ∈ w.db.users.rows, u.val.uid ≠ auth.uid) :
    (Action.exec
      (SessionsController.find_or_create_by_uid auth false digest pick now) w).2 = w := by
  have hnone : User.find_by_uid w.db.users auth.uid pick = none := find_by_uid_eq_none_iff.mpr hnew
  have hinvalid := Account.not_valid?_of_remember_me (a := auth.fill fun _ => digest) rfl true
  simp only [SessionsController.find_or_create_by_uid, Action.exec_bind, exec_database, hnone,
    Action.exec_ite, exec_raise, hinvalid, Action.exec_pure, Bool.or_self, Bool.false_eq_true,
    ite_false]
  split_ifs <;> rfl

/-! ### A submission that ought to be stored -/

/-- Nobody has an account yet, and Devise accepts every record. -/
def Accounts.none : Accounts := ⟨.empty, .empty⟩

def Devise.lenient : Devise := ⟨fun _ => true, id, fun stored given => stored = given⟩

/-- A well-formed sign-up is refused. -/
theorem sign_up_refused :
    ∃ d t s, Submission.WellFormed d t s ∧ ∀ now, s.store d t now = none := by
  refine ⟨.lenient, .none, .sign_up "ada@example.com" "secret" "secret" true, ?_, fun _ => rfl⟩
  exact ⟨⟨_, rfl, rfl⟩, by decide, by decide, rfl⟩

end Gallery
