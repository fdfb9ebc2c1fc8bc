import Gallery.Model.Account
import Gallery.Model.World

/-!
# Creating and destroying records

`create` of each model: the validations of the model file, then the `INSERT`
against the column limits of the schema. A record the validations refuse is
returned without an id and nothing is written. `destroy` runs exactly the
declared `dependent` options.
-/

namespace Gallery

open Store Rails App Semantics

/-! ### Creation -/

/-- `validates :body, presence, length 3..200`. -/
def Comment.validBody (body : Option String) : Bool :=
  present? body && body.any fun b => 3 ≤ b.length && b.length ≤ 200

/-- `validates :title, presence, length 3..255` and `validates :filename, presence`. -/
def Picture.valid (title filename : Option String) : Bool :=
  present? title && title.any (fun t => 3 ≤ t.length && t.length ≤ 255) && present? filename

/-- `validates_presence_of :sender_id, :receiver_id, :text`. -/
def Message.valid (sender_id receiver_id : Option Id) (text : Option String) : Bool :=
  sender_id.isSome && receiver_id.isSome && present? text

/-- `belongs_to :picture, :touch => true` of the comments that come or go. -/
def Database.touch (db : Database) (ids : List Id) (now : Time) : Database :=
  { db with
    pictures := db.pictures.update fun p =>
      if p.id ∈ ids then { p.val with updated_at := now } else p.val }

/-- `current_user.comments.new(..)` for a picture that was found, and its `save`. -/
def Comment.create (user_id picture_id : Id) (body : Option String) (now : Time) :
    App (Option (Row Comment)) := do
  let db ← database
  match body with
  | some b =>
    if Comment.validBody (some b) then
      let comment : Comment := ⟨user_id, picture_id, b, now⟩
      write fun db => { db.touch [picture_id] now with comments := db.comments.insert comment }
      return some ⟨db.comments.next, comment⟩
    else return none
  | none => return none

/-- `Like.create`: one like per user and picture, both ids present. -/
def Like.create (user_id picture_id : Option Id) : App (Option Id) := do
  let db ← database
  match user_id, picture_id with
  | some u, some p =>
    if db.likes.rows.any fun l => l.val.user_id = u && l.val.picture_id = p then return none
    else if fitsInteger p then
      write fun db => { db with likes := db.likes.insert ⟨u, p⟩ }
      return some db.likes.next
    else raise .StatementInvalid
  | _, _ => return none

/-- `UserCategory.create`: one subscription per user and category, both ids present. -/
def UserCategory.create (user_id category_id : Option Id) : App (Option Id) := do
  let db ← database
  match user_id, category_id with
  | some u, some c =>
    if db.user_categories.rows.any fun s => s.val.user_id = u && s.val.category_id = c then
      return none
    else if fitsInteger c then
      write fun db => { db with user_categories := db.user_categories.insert ⟨u, c⟩ }
      return some db.user_categories.next
    else raise .StatementInvalid
  | _, _ => return none

/-- `Message.create`, and whether the record was saved. -/
def Message.create (sender_id receiver_id : Option Id) (text : Option String) : App Bool := do
  match sender_id, receiver_id, text with
  | some s, some r, some t =>
    if Message.valid (some s) (some r) (some t) then
      if fitsInteger r && fitsString t then
        write fun db => { db with messages := db.messages.insert ⟨s, r, t⟩ }
        return true
      else raise .StatementInvalid
    else return false
  | _, _, _ => return false

/-- `Category.create`. -/
def Category.create (name : Option String) : App (Option Id) := do
  let db ← database
  match name with
  | some n =>
    if blank? n then return none
    else if fitsString n then
      write fun db => { db with categories := db.categories.insert ⟨n⟩ }
      return some db.categories.next
    else raise .StatementInvalid
  | none => return none

/-- Saving a new picture together with its rows in `picture_categories`. -/
def Picture.create (title filename : Option String) (category_ids : List Id) (now : Time) :
    App (Option Id) := do
  let db ← database
  match title, filename with
  | some t, some f =>
    if Picture.valid (some t) (some f) then
      if fitsString f then
        write fun db =>
          { db with
            pictures := db.pictures.insert ⟨t, f, now, now⟩
            picture_categories :=
              category_ids.foldl (fun t c => t.insert ⟨db.pictures.next, c⟩)
                db.picture_categories }
        return some db.pictures.next
      else raise .StatementInvalid
    else return none
  | _, _ => return none

/-- `Url.where(url: url).first` -/
def Database.url? (db : Database) (url : String) : Option (Row Url) :=
  db.urls.rows.find? fun r => r.val.url = url

/-- `Url.find_or_create_by_url`. -/
def Url.find_or_create_by_url (url : String) : App Id := do
  let db ← database
  match db.url? url with
  | some r => return r.id
  | none =>
    if fitsString url then
      write fun db => { db with urls := db.urls.insert ⟨url⟩ }
      return db.urls.next
    else raise .StatementInvalid

/-- The class an event points at, for an object given to `Event.create`. -/
structure Eventable where
  cls : String
  id : Option Id
deriving DecidableEq, Repr

/-- The object a stored reference names: `nil` without a type, a `NameError` for
a type that is no class. -/
def Database.eventable (db : Database) (type : Option String) (id : Option Id) :
    Except Failure (Option Eventable) :=
  match type, id with
  | none, _ => .ok none
  | some "Comment", some i => .ok (if db.comments.Has i then some ⟨"Comment", some i⟩ else none)
  | some "Like", some i => .ok (if db.likes.Has i then some ⟨"Like", some i⟩ else none)
  | some "Url", some i => .ok (if db.urls.Has i then some ⟨"Url", some i⟩ else none)
  | some "User", some i => .ok (if db.users.Has i then some ⟨"User", some i⟩ else none)
  | some "Comment", none | some "Like", none | some "Url", none | some "User", none => .ok none
  | some _, _ => .error .NameError

/-- Stores an event whose `eventable` has been looked up already:
`validates_presence_of :eventable_type, :eventable_id, :user_id, :eventable`. -/
def Event.save (eventable : Option Eventable) (user_id : Option Id) (now : Time) : App Unit := do
  match eventable, user_id with
  | some ⟨cls, some i⟩, some u =>
    write fun db => { db with events := db.events.insert ⟨i, cls, u, now⟩ }
  | _, _ => return ()

/-- `Event.create(:eventable_id => .., :eventable_type => .., :user_id => ..)`. -/
def Event.create (eventable_id : Option Id) (eventable_type : Option String)
    (user_id : Option Id) (now : Time) : App Unit := do
  match (← database).eventable eventable_type eventable_id with
  | .ok eventable => Event.save eventable user_id now
  | .error e => raise e

/-! ### What the log writes -/

/-- The database once an event about `eventable` has been offered to the log. -/
def Database.logged (db : Database) (eventable : Option Eventable) (user_id : Option Id)
    (now : Time) : Database :=
  match eventable, user_id with
  | some ⟨cls, some i⟩, some u => { db with events := db.events.insert ⟨i, cls, u, now⟩ }
  | _, _ => db

@[simp] theorem Database.logged_some (db : Database) (cls : String) (i u : Id) (now : Time) :
    db.logged (some ⟨cls, some i⟩) (some u) now =
      { db with events := db.events.insert ⟨i, cls, u, now⟩ } := rfl

@[simp] theorem Database.logged_unsaved (db : Database) (cls : String) (u : Option Id)
    (now : Time) : db.logged (some ⟨cls, none⟩) u now = db := rfl

@[simp] theorem exec_save (eventable : Option Eventable) (user_id : Option Id) (now : Time)
    (w : World) :
    Action.exec (Event.save eventable user_id now) w =
      (.ok (), { w with db := w.db.logged eventable user_id now }) := by
  rcases eventable with _ | ⟨cls, _ | i⟩ <;> rcases user_id with _ | u <;> rfl

/-- An event without a type is never valid. -/
@[simp] theorem exec_create_none (eventable_id user_id : Option Id) (now : Time) (w : World) :
    Action.exec (Event.create eventable_id none user_id now) w = (.ok (), w) := by
  rcases eventable_id with _ | i <;> rcases user_id with _ | u <;> rfl

/-- The row of a URL can be found or stored. -/
def Database.canTrack (db : Database) (url : String) : Bool :=
  (db.url? url).isSome || fitsString url

/-- The database once a request for `url` by `u` has been tracked. -/
def Database.track (db : Database) (url : String) (u : Id) (now : Time) : Database :=
  match db.url? url with
  | some r => db.logged (some ⟨"Url", some r.id⟩) (some u) now
  | none =>
    { db with urls := db.urls.insert ⟨url⟩ }.logged (some ⟨"Url", some db.urls.next⟩) (some u) now

/-! ### Destruction -/

namespace Database

/-- Destroys the comments that satisfy `p`; their events stay. -/
def destroyComments (db : Database) (p : Row Comment → Bool) (now : Time) : Database :=
  { db.touch ((db.comments.rows.filter p).map (·.val.picture_id)) now with
    comments := db.comments.delete p }

/-- Destroys the likes that satisfy `p`, each with its events. -/
def destroyLikes (db : Database) (p : Row Like → Bool) : Database :=
  { db with
    events := db.events.delete fun e =>
      e.val.eventable_type = "Like" &&
        (db.likes.rows.filter p).any fun l => l.id = e.val.eventable_id
    likes := db.likes.delete p }

/-- `User#destroy`: comments, likes and the events about the user. -/
def destroyUser (db : Database) (id : Id) (now : Time) : Database :=
  let db := db.destroyComments (fun c => c.val.user_id = id) now
  let db := db.destroyLikes fun l => l.val.user_id = id
  { db with
    events := db.events.delete fun e =>
      e.val.eventable_type = "User" && e.val.eventable_id = id
    users := db.users.delete fun u => u.id = id }

/-- `Picture#destroy`: comments and likes. -/
def destroyPicture (db : Database) (id : Id) (now : Time) : Database :=
  let db := db.destroyComments (fun c => c.val.picture_id = id) now
  let db := db.destroyLikes fun l => l.val.picture_id = id
  { db with pictures := db.pictures.delete fun p => p.id = id }

/-- `Category#destroy`: nothing depends on it. -/
def destroyCategory (db : Database) (id : Id) : Database :=
  { db with categories := db.categories.delete fun c => c.id = id }

end Database

end Gallery
