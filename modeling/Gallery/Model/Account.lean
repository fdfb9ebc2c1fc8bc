import Gallery.Model.Schema

/-!
# Accounts in memory

`User` and `AdminUser` are Devise accounts. A record in memory carries, next to
its columns, the virtual attributes `password`, `password_confirmation` and
`remember_me`: they are `nil` on a new record and on a record loaded from its
row, until something assigns them. Both models validate their presence on every
save, besides what Devise's `validatable` module checks.

`validatable` and the password digest are Devise's code. They enter as
parameters, and nothing is assumed of them here.
-/

namespace Gallery

open Store Rails

/-- An account object: its columns, then its virtual attributes. -/
structure Account where
  email : Option String
  encrypted_password : String
  provider : Option String
  uid : Option String
  name : Option String
  oauth_token : Option String
  oauth_expires_at : Option Time
  password : Option String
  password_confirmation : Option String
  remember_me : Option String
deriving DecidableEq, Repr

/-- The fields a form submits; `none` where the form has no such field. -/
structure AccountParams where
  email : Option String
  password : Option String
  password_confirmation : Option String
  remember_me : Option String
deriving DecidableEq, Repr

namespace Account

/-- `User.new` and `AdminUser.new`: the column defaults. -/
def new : Account where
  email := some ""
  encrypted_password := ""
  provider := none
  uid := none
  name := none
  oauth_token := none
  oauth_expires_at := none
  password := none
  password_confirmation := none
  remember_me := none

/-- A record loaded from its row: no virtual attribute is set. -/
def load (u : User) : Account where
  email := some u.email
  encrypted_password := u.encrypted_password
  provider := u.provider
  uid := u.uid
  name := u.name
  oauth_token := u.oauth_token
  oauth_expires_at := u.oauth_expires_at
  password := none
  password_confirmation := none
  remember_me := none

/-- Devise's `password=`: a present password also replaces the digest. -/
def assignPassword (digest : String → String) (password : Option String) (a : Account) : Account :=
  { a with
    password := password
    encrypted_password :=
      if present? password then (password.map digest).getD "" else a.encrypted_password }

/-- `assign_attributes`: the submitted fields, each through its writer. -/
def assign (digest : String → String) (p : AccountParams) (a : Account) : Account :=
  let a := { a with
    email := p.email <|> a.email
    password_confirmation := p.password_confirmation <|> a.password_confirmation
    remember_me := p.remember_me <|> a.remember_me }
  if p.password.isSome then a.assignPassword digest p.password else a

/-- `validates_presence_of :email, :password, :password_confirmation, :remember_me`. -/
def presence (a : Account) : Bool :=
  present? a.email && present? a.password && present? a.password_confirmation &&
    present? a.remember_me

/-- `valid?`, given the verdict of Devise's `validatable`. -/
def valid? (validatable : Bool) (a : Account) : Bool := validatable && a.presence

theorem assign_remember_me (digest : String → String) (p : AccountParams) (a : Account) :
    (a.assign digest p).remember_me = (p.remember_me <|> a.remember_me) := by
  unfold assign
  split <;> rfl

/-- Without `remember_me` no account is valid, whatever Devise says of the rest. -/
theorem not_valid?_of_remember_me {a : Account} (h : a.remember_me = none) (validatable : Bool) :
    a.valid? validatable = false := by
  simp [valid?, presence, h, present?]

/-- `downcase_keys` and `strip_whitespace`, which Devise runs before every validation: the
keys of both are the e-mail. -/
def email_key (email : String) : String := strip (downcase email)

/-- The row an account is stored as, which is validated before, whatever becomes of that. -/
def toUser (a : Account) (now : Time) : User where
  email := email_key (a.email.getD "")
  encrypted_password := a.encrypted_password
  provider := a.provider
  uid := a.uid
  name := a.name
  oauth_token := a.oauth_token
  oauth_expires_at := a.oauth_expires_at
  last_request_at := none
  created_at := now
  updated_at := now

end Account

/-- The unique index on `users.email`, and the columns' length limit. -/
def User.storable (users : Table User) (u : User) : Bool :=
  !users.rows.any (fun r => r.val.email = u.email) &&
    fitsString u.email && u.provider.all fitsString && u.uid.all fitsString &&
    u.name.all fitsString && u.oauth_token.all fitsString

end Gallery
