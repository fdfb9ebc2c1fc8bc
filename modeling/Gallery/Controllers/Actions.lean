import Gallery.Controllers.Notifications

/-!
# The controllers' actions

What each action does once the filters have let the request through. What an
action gets from outside the repository is an argument: the clock, and the
verdicts of Devise, of the captcha and of OmniAuth.
-/

namespace Gallery

open Store Rails App

/-- How a request that completes answers. -/
inductive Response
  | page
  | redirect
  | script
  /-- `{:like => .., :all_likes => ..}` -/
  | like (like : ℚ) (all_likes : ℕ)
  /-- `{res: 1}` or `{}` -/
  | subscribe (res : Option ℕ)
  | json
  /-- A signed subscription. -/
  | auth
  | forbidden
deriving DecidableEq, Repr

/-- The payload of an OmniAuth callback. The developer provider takes the uid from
a request parameter, which may be missing. -/
structure Auth where
  provider : String
  uid : Option String
  email : Option String
  name : Option String
  token : Option String
  expires_at : Option Time
deriving DecidableEq, Repr

/-- What the admin form of a picture submits under `params[:picture]`. -/
structure PictureParams where
  title : Option String
  filename : Option String
  category_ids : List Id
deriving DecidableEq, Repr

/-- The record the session names, if its row still exists. -/
def current_user (db : Database) (session : Option Id) : Option (Row User) :=
  session.bind db.users.find?

/-- `current_user.update_attribute(:last_request_at, Time.now)` -/
def PicturesController.set_last_request_at (id : Id) (now : Time) : App Unit :=
  write fun db =>
    { db with
      users := db.users.update fun u =>
        if u.id = id then { u.val with last_request_at := some now, updated_at := now }
        else u.val }

/-- `authenticate_user!` -/
def authenticate (user : Option (Row User)) : App (Row User) :=
  match user with
  | some u => pure u
  | none => raise .Unauthenticated

/-- `current_user.likes.where(picture_id: params[:pic_id])` is not empty. -/
def PicturesController.status (db : Database) (u : Row User) (pic_id : Option String) : Bool :=
  db.likes.rows.any fun l => l.val.user_id = u.id && whereInteger pic_id = some l.val.picture_id

/-- The branch of `like` that stores the like. -/
def PicturesController.set_like (u : Row User) (pic_id : Option String) (now : Time) : App ℚ := do
  let like ← Like.create (some u.id) (assignInteger pic_id)
  tracking true .pictures_like
    (pure [(.sym "like", .record "Like" like), (.sym "user_id", .id (some u.id))]) now
  return 1

/-- The branch of `like` that removes the like. The parameter is quoted into the
SQL text, and PostgreSQL parses it. -/
def PicturesController.unset_like (u : Row User) (pic_id : Option String) : App ℚ :=
  match pic_id.map parseInteger with
  | some (some p) => do
    write fun db => db.destroyLikes fun l => l.val.user_id = u.id && l.val.picture_id = p
    return 3 / 10
  | some none => raise .StatementInvalid
  | none => return 3 / 10

/-- `PicturesController#like`: `1` answers "liked" and `0.3` "not liked". -/
def PicturesController.like (u : Row User) (pic_id check : Option String) (now : Time) :
    App Response := do
  let status := PicturesController.status (← database) u pic_id
  let json ←
    if check.isSome then pure (if status then 1 else 3 / 10)
    else if status then PicturesController.unset_like u pic_id
    else PicturesController.set_like u pic_id now
  let db ← database
  return .like json
    (db.likes.rows.countP fun l => whereInteger pic_id = some l.val.picture_id)

/-- `current_user.user_categories.where(category_id: params[:cat_id])` is not empty. -/
def CategoriesController.current_sub (db : Database) (u : Row User) (cat_id : Option String) :
    Bool :=
  db.user_categories.rows.any fun s =>
    s.val.user_id = u.id && whereInteger cat_id = some s.val.category_id

/-- `CategoriesController#subscribe` -/
def CategoriesController.subscribe (u : Row User) (cat_id : Option String) : App Response := do
  if CategoriesController.current_sub (← database) u cat_id then
    write fun db =>
      { db with
        user_categories := db.user_categories.delete fun s =>
          s.val.user_id = u.id && whereInteger cat_id = some s.val.category_id }
    return .subscribe none
  else
    let _ ← UserCategory.create (some u.id) (assignInteger cat_id)
    return .subscribe (some 1)

/-- The part of `CommentsController#create` that runs when the comment was saved. -/
def CommentsController.announce (u : Row User) (comment : Row Comment) (now : Time) : App Unit := do
  tracking true .comments_create
    (pure [(.sym "comment", .record "Comment" (some comment.id)),
      (.sym "user_id", .id (some u.id))]) now
  trigger ⟨"test-channel", "test-event", .comment comment u.val.email comment.val.picture_id⟩

/-- `CommentsController#create` -/
def CommentsController.create (u : Row User) (picture_id : String) (body : Option String)
    (now : Time) : App Response := do
  match (← database).pictures.find? (to_i picture_id) with
  | none => raise .RecordNotFound
  | some picture =>
    match ← Comment.create u.id picture.id body now with
    | none => return .script
    | some comment =>
      CommentsController.announce u comment now
      return .script

/-- `user.to_json` -/
def User.toJson (u : Row User) : UserJson where
  id := u.id
  email := u.val.email
  provider := u.val.provider
  uid := u.val.uid
  name := u.val.name
  oauth_token := u.val.oauth_token
  oauth_expires_at := u.val.oauth_expires_at
  last_request_at := u.val.last_request_at
  created_at := u.val.created_at
  updated_at := u.val.updated_at

/-- `MessagesController#create`, which has no `authenticate_user!`: a stored
message is pushed on the one channel all chats share. -/
def MessagesController.create (user : Option (Row User))
    (receiver_id text event_name : Option String) : App Response := do
  match user with
  | none => raise .NoMethodError
  | some u =>
    if ← Message.create (some u.id) (assignInteger receiver_id) text then
      trigger ⟨"private-channel", event_name.getD "",
        .message (text.getD "") (User.toJson u) receiver_id⟩
    return .json

/-- `PusherController#auth`: any channel is signed for whoever is signed in. -/
def PusherController.auth (user : Option (Row User)) (channel_name : String) : App Response :=
  match user with
  | some u => do
    modify fun w => { w with signed := w.signed ++ [(u.id, channel_name)] }
    return .auth
  | none => return .forbidden

/-- `INSERT INTO users` -/
def insertUser (u : User) : App Id := do
  let db ← database
  if User.storable db.users u then
    write fun db => { db with users := db.users.insert u }
    return db.users.next
  else raise .StatementInvalid

/-- `RegistrationsController#create`. The sign-in at its end saves the new row again, at the
same time. -/
def RegistrationsController.create (params : AccountParams) (captcha validatable : Bool)
    (digest : String) (now : Time) : App Response := do
  let resource := Account.new.assign (fun _ => digest) params
  if captcha && resource.valid? validatable then
    let id ← insertUser (resource.toUser now)
    tracking true .sessions_create (pure [(.sym "user_id", .id (some id))]) now
    return .redirect
  else return .page

/-- `update_tracked_fields!` of `trackable`, which saves the record that is signed in: of the
columns that are modelled it changes `updated_at` alone. -/
def Database.update_tracked_fields (db : Database) (u : Id) (now : Time) : Database :=
  { db with
    users := db.users.update fun r => if r.id = u then { r.val with updated_at := now } else r.val }

/-- `User.where(:uid => uid).first`. The query has no order, so any row that matches may be
the answer: the one `pick` names, if there is one, or else the first. -/
def User.find_by_uid (users : Table User) (uid : Option String) (pick : Id) : Option (Row User) :=
  (users.rows.find? fun u => u.id = pick && u.val.uid = uid).or
    (users.rows.find? fun u => u.val.uid = uid)

/-- `SessionsController#create` after Devise has authenticated somebody or nobody. -/
def SessionsController.create (authenticated : Option Id) (now : Time) : App Response := do
  match current_user (← database) authenticated with
  | none => raise .Unauthenticated
  | some u =>
    write (·.update_tracked_fields u.id now)
    tracking true .sessions_create (pure [(.sym "user_id", .id (some u.id))]) now
    return .redirect

/-- `SessionsController#destroy`: after `super` nobody is signed in, and
`current_user.id` is asked of `nil`. -/
def SessionsController.destroy (now : Time) : App Response := do
  tracking false .sessions_destroy (raise .NoMethodError) now
  return .redirect

/-- The block that fills a new record in `SessionsController#facebook`. -/
def Auth.fill (auth : Auth) (digest : String → String) : Account :=
  { Account.new with
    provider := some auth.provider
    uid := auth.uid
    email := auth.email
    name := auth.name
    oauth_token := auth.token
    oauth_expires_at := auth.expires_at }.assignPassword digest (some "friendly_token")

/-- The record `SessionsController#facebook` signs in: one with this uid, or a
new one. A new record has no password confirmation and no `remember_me`, so its
own save is refused; `tracked` says whether Devise's bookkeeping at sign-in saves
the record, without validation. -/
def SessionsController.find_or_create_by_uid (auth : Auth) (tracked : Bool)
    (digest : String) (pick : Id) (now : Time) : App (Option Id) := do
  match User.find_by_uid (← database).users auth.uid pick with
  | some u =>
    if tracked then write (·.update_tracked_fields u.id now)
    return some u.id
  | none =>
    let account := auth.fill fun _ => digest
    -- `Time.at(nil)`
    if auth.expires_at.isNone then raise .TypeError
    else if account.valid? true || tracked then
      if account.email.isSome then
        let id ← insertUser (account.toUser now)
        return some id
      else raise .StatementInvalid
    else return none

/-- `SessionsController#facebook` -/
def SessionsController.facebook (auth : Auth) (tracked : Bool) (digest : String) (pick : Id)
    (now : Time) : App Response := do
  let id ← SessionsController.find_or_create_by_uid auth tracked digest pick now
  tracking true .sessions_create (pure [(.sym "user_id", .id id)]) now
  return .redirect

/-- `Model.find(id).destroy` from the admin pages. -/
def Admin.destroy (present : Database → Bool) (destroy : Database → Database) :
    App Response := do
  if present (← database) then
    write destroy
    return .redirect
  else raise .RecordNotFound

/-- `UserMailer#category_email` and its delivery. -/
def UserMailer.category_email (recipients categories : List String) : App Unit := do
  if recipients.isEmpty then raise .NoRecipient
  else modify fun w => { w with mails := w.mails ++ [⟨recipients, categories⟩] }

/-- `Model.find(ids)`: the rows with these ids, each once; raises if one is missing. -/
def findAll {α : Type} (t : Table α) (ids : List Id) : App (List (Row α)) :=
  if ids.all fun i => t.Has i then pure (t.rows.filter fun r => r.id ∈ ids)
  else raise .RecordNotFound

/-- The mailing of the admin `create` action for the ids found under `params[:show]`. -/
def Admin.mail_subscribers (cat_id : List Id) : App Unit := do
  let db ← database
  let user_id := db.user_categories.rows.filter fun s => s.val.category_id ∈ cat_id
  let c_id := user_id.map (·.val.category_id)
  let u_id := user_id.map (·.val.user_id)
  let categories ← findAll db.categories c_id
  let recipients ← findAll db.users u_id
  UserMailer.category_email (recipients.map (·.val.email)) (categories.map (·.val.name))

/-- The admin `create` action of a picture. -/
def Admin.create_picture (p : PictureParams) (show_ids : Option (List Id)) (now : Time) :
    App Response := do
  let _ ← findAll (← database).categories p.category_ids
  match ← Picture.create p.title p.filename p.category_ids now with
  | none => return .page
  | some _ =>
    match show_ids with
    | none => raise .NoMethodError
    | some cat_id =>
      Admin.mail_subscribers cat_id
      return .redirect

/-- `create_picture` of the parser page: `Picture.create!`, then its categories by name. -/
def Parser.create_picture (file_addr : String) (filename : Option String)
    (categories : List String) (now : Time) : App Response := do
  let db ← database
  let ids := (db.categories.rows.filter fun c => c.val.name ∈ categories).map (·.id)
  match ← Picture.create (some file_addr) filename ids now with
  | none => raise .RecordInvalid
  | some _ => return .json

/-- The admin `create` action of a category. -/
def Admin.create_category (name : Option String) : App Response := do
  match ← Category.create name with
  | none => return .page
  | some _ => return .redirect

end Gallery
