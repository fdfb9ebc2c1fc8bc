import Gallery.Controllers.Actions

/-!
# Requests

The routed actions with the filters in front of them, one request at a time.
What the environment decides is part of the request: the user its session
names, the clock, and the verdicts the action asks for.
-/

namespace Gallery

open Store Rails App

/-- The routed actions with their parameters. -/
inductive Route
  /-- `index`, `show`, `select`, `chat_messages`, `user` and `select_language`. -/
  | pictures_view
  | pictures_like (pic_id check : Option String)
  | categories_subscribe (cat_id : Option String)
  | categories_check_subscribe
  | comments_create (picture_id : String) (body : Option String)
  | messages_create (receiver_id text event_name : Option String)
  | pusher_auth (channel_name : String)
  /-- Devise's and ActiveAdmin's own pages. -/
  | devise_view
  /-- Sign-up, with the verdicts of the captcha and of Devise's `validatable`, and
  the digest of the submitted password. -/
  | registrations_create (params : AccountParams) (captcha validatable : Bool) (digest : String)
  /-- Account cancellation. -/
  | registrations_destroy
  /-- The sign-in form, with the user Devise authenticates. -/
  | sessions_create (authenticated : Option Id)
  | sessions_destroy
  /-- The OmniAuth callback. `tracked` says whether Devise's sign-in bookkeeping saves the
  record, which the validations may have refused, and `pick` which of the records with the
  uid of the payload the database finds. -/
  | sessions_facebook (auth : Auth) (tracked : Bool) (digest : String) (pick : Id)
  | admin_users_destroy (id : Id)
  | admin_pictures_destroy (id : Id)
  | admin_categories_destroy (id : Id)
  /-- The admin form, and `params[:show][:category_ids]` if the request has `params[:show]`. -/
  | admin_pictures_create (picture : PictureParams) (show_ids : Option (List Id))
  | admin_parser_create_picture (file_addr : String) (filename : Option String)
      (categories : List String)
  | admin_categories_create (name : Option String)
deriving DecidableEq, Repr

structure Request where
  /-- The user the session names while the before filters run. -/
  session : Option Id
  url : String
  now : Time
  route : Route
deriving DecidableEq, Repr

/-- The actions in front of which the tracking filter stands. -/
def Route.tracked : Route → Bool
  | .categories_check_subscribe => false
  | .pusher_auth _ => false
  | _ => true

/-- The actions of `PicturesController`, which also stores the time of the request. -/
def Route.pictures : Route → Bool
  | .pictures_view => true
  | .pictures_like _ _ => true
  | _ => false

/-- The action itself, after the filters. -/
def Route.run (route : Route) (user : Option (Row User)) (now : Time) : App Response :=
  match route with
  | .pictures_view | .devise_view => pure .page
  | .categories_check_subscribe => do
    let _ ← authenticate user
    return .json
  | .pictures_like pic_id check => do PicturesController.like (← authenticate user) pic_id check now
  | .categories_subscribe cat_id => do CategoriesController.subscribe (← authenticate user) cat_id
  | .comments_create picture_id body => do
    CommentsController.create (← authenticate user) picture_id body now
  | .messages_create receiver_id text event_name =>
    MessagesController.create user receiver_id text event_name
  | .pusher_auth channel_name => PusherController.auth user channel_name
  | .registrations_create params captcha validatable digest =>
    RegistrationsController.create params captcha validatable digest now
  | .registrations_destroy => do
    let u ← authenticate user
    write fun db => db.destroyUser u.id now
    return .redirect
  | .sessions_create authenticated => SessionsController.create authenticated now
  | .sessions_destroy => SessionsController.destroy now
  | .sessions_facebook auth tracked digest pick =>
    SessionsController.facebook auth tracked digest pick now
  | .admin_users_destroy id => Admin.destroy (fun db => db.users.Has id) (·.destroyUser id now)
  | .admin_pictures_destroy id =>
    Admin.destroy (fun db => db.pictures.Has id) (·.destroyPicture id now)
  | .admin_categories_destroy id =>
    Admin.destroy (fun db => db.categories.Has id) (·.destroyCategory id)
  | .admin_pictures_create p show_ids => Admin.create_picture p show_ids now
  | .admin_parser_create_picture file_addr filename categories =>
    Parser.create_picture file_addr filename categories now
  | .admin_categories_create name => Admin.create_category name

/-- The `tracking` filter with its default arguments. -/
def track_request (r : Request) (user : Option (Row User)) : App Unit :=
  if r.route.tracked && user.isSome then
    tracking true .track_url
      (pure [(.sym "url", .text r.url), (.sym "user_id", .record "User" (user.map (·.id)))]) r.now
  else pure ()

/-- The filter that `PicturesController` adds. -/
def stamp_request (r : Request) (user : Option (Row User)) : App Unit :=
  match r.route.pictures, user with
  | true, some u => PicturesController.set_last_request_at u.id r.now
  | _, _ => pure ()

/-- A whole request: the filters, then the action. -/
def Request.run (r : Request) : App Response := do
  let user := current_user (← database) r.session
  track_request r user
  stamp_request r user
  r.route.run user r.now

end Gallery
