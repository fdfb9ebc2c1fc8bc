import Gallery.Model.Records

/-!
# The audit log

`ApplicationController#tracking` and the subscribers of
`config/initializers/notifications.rb`. A notification carries a Ruby hash, and
a symbol is never equal to a string, so the keys keep the distinction: the two
session subscribers read `payload["Sign_in"]` and `payload["Sign_out"]` out of
a hash whose only key is `:user_id`.
-/

namespace Gallery

open Store Rails App Semantics

/-- The notification names. -/
inductive Notification
  | pictures_like
  | comments_create
  | track_url
  | sessions_destroy
  | sessions_create
deriving DecidableEq, Repr

/-- A hash key: a symbol or a string. -/
inductive Key
  | sym (name : String)
  | str (name : String)
deriving DecidableEq, Repr

/-- A value in a payload: an id, a text, or a record known by class and id. -/
inductive Value
  | id (id : Option Id)
  | text (text : String)
  | record (cls : String) (id : Option Id)
deriving DecidableEq, Repr

abbrev Payload := List (Key × Value)

namespace Payload

/-- `payload[key]` read as an id. -/
def id? (p : Payload) (key : Key) : Option Id :=
  match p.lookup key with
  | some (.id i) => i
  | _ => none

/-- `payload[key]` read as a text. -/
def text? (p : Payload) (key : Key) : Option String :=
  match p.lookup key with
  | some (.text t) => some t
  | _ => none

/-- `payload[key]` read as a record. -/
def record? (p : Payload) (key : Key) : Option Eventable :=
  match p.lookup key with
  | some (.record cls i) => some ⟨cls, i⟩
  | _ => none

end Payload

/-- `'pictures.like'`:
`Event.create(:eventable => payload[:like], :user_id => payload[:user_id])`. -/
def on_pictures_like (payload : Payload) (now : Time) : App Unit :=
  Event.save (payload.record? (.sym "like")) (payload.id? (.sym "user_id")) now

/-- `'comments.create'`. -/
def on_comments_create (payload : Payload) (now : Time) : App Unit :=
  Event.save (payload.record? (.sym "comment")) (payload.id? (.sym "user_id")) now

/-- `'track_url'`: the URL's row, and an event of the user record in the payload. -/
def on_track_url (payload : Payload) (now : Time) : App Unit := do
  let url ← Url.find_or_create_by_url ((payload.text? (.sym "url")).getD "")
  Event.save (some ⟨"Url", some url⟩) ((payload.record? (.sym "user_id")).bind (·.id)) now

/-- `'sessions.destroy'`. -/
def on_sessions_destroy (payload : Payload) (now : Time) : App Unit :=
  Event.create (payload.id? (.sym "user_id")) (payload.text? (.str "Sign_out"))
    (payload.id? (.sym "user_id")) now

/-- `'sessions.create'`. -/
def on_sessions_create (payload : Payload) (now : Time) : App Unit :=
  Event.create (payload.id? (.sym "user_id")) (payload.text? (.str "Sign_in"))
    (payload.id? (.sym "user_id")) now

/-- `ActiveSupport::Notifications.instrument`: each name has one subscriber. -/
def instrument (type : Notification) (payload : Payload) (now : Time) : App Unit :=
  match type with
  | .pictures_like => on_pictures_like payload now
  | .comments_create => on_comments_create payload now
  | .track_url => on_track_url payload now
  | .sessions_destroy => on_sessions_destroy payload now
  | .sessions_create => on_sessions_create payload now

/-- `ApplicationController#tracking`. The payload is built before the call, so
an exception in building it also belongs to the audit log. `signed_in` is
`!current_user.nil?` at that moment. -/
def tracking (signed_in : Bool) (type : Notification) (data : App Payload) (now : Time) :
    App Unit :=
  logging do
    let payload ← data
    if signed_in then instrument type payload now

/-! ### What a notification writes -/

theorem exec_find_or_create (url : String) (w : World) :
    Action.exec (Url.find_or_create_by_url url) w =
      match w.db.url? url with
      | some r => (.ok r.id, w)
      | none =>
        if fitsString url then
          (.ok w.db.urls.next, { w with db := { w.db with urls := w.db.urls.insert ⟨url⟩ } })
        else (.error ⟨.StatementInvalid, false⟩, w) := by
  simp only [Url.find_or_create_by_url, Action.exec_bind, exec_database]
  cases w.db.url? url with
  | none => by_cases h : fitsString url <;> simp [h]
  | some r => rfl

/-- A like that was saved is logged, one the validations refused is not. -/
theorem exec_tracking_like (like : Option Id) (u : Id) (now : Time) (w : World) :
    Action.exec (tracking true .pictures_like
        (pure [(.sym "like", .record "Like" like), (.sym "user_id", .id (some u))]) now) w =
      (.ok (), { w with db := w.db.logged (some ⟨"Like", like⟩) (some u) now }) := by
  have h : Action.exec (on_pictures_like
      [(.sym "like", .record "Like" like), (.sym "user_id", .id (some u))] now) w = _ :=
    exec_save (some ⟨"Like", like⟩) (some u) now w
  simp [tracking, exec_logging, instrument, h]

theorem exec_tracking_comment (comment u : Id) (now : Time) (w : World) :
    Action.exec (tracking true .comments_create
        (pure [(.sym "comment", .record "Comment" (some comment)),
          (.sym "user_id", .id (some u))]) now) w =
      (.ok (), { w with db := w.db.logged (some ⟨"Comment", some comment⟩) (some u) now }) := by
  have h : Action.exec (on_comments_create
      [(.sym "comment", .record "Comment" (some comment)), (.sym "user_id", .id (some u))] now) w =
        _ := exec_save (some ⟨"Comment", some comment⟩) (some u) now w
  simp [tracking, exec_logging, instrument, h]

/-- The sign-in subscriber finds no type in its payload, so no event is valid. -/
theorem exec_tracking_sessions_create (signed_in : Bool) (u : Option Id) (now : Time) (w : World) :
    Action.exec (tracking signed_in .sessions_create (pure [(.sym "user_id", .id u)]) now) w =
      (.ok (), w) := by
  have h : Action.exec (on_sessions_create [(.sym "user_id", .id u)] now) w = (.ok (), w) :=
    exec_create_none u u now w
  cases signed_in <;> simp [tracking, exec_logging, instrument, h]

/-- At sign-out the payload itself raises. -/
theorem exec_tracking_sessions_destroy (signed_in : Bool) (now : Time) (w : World) :
    Action.exec (tracking signed_in .sessions_destroy (raise .NoMethodError) now) w =
      (.error ⟨.NoMethodError, true⟩, w) := by
  simp [tracking, exec_logging]

/-- The URL's row is found, created, or too long to store; only the last raises. -/
theorem exec_tracking_url (url : String) (u : Id) (now : Time) (w : World) :
    Action.exec (tracking true .track_url
        (pure [(.sym "url", .text url), (.sym "user_id", .record "User" (some u))]) now) w =
      if w.db.canTrack url then (.ok (), { w with db := w.db.track url u now })
      else (.error ⟨.StatementInvalid, true⟩, w) := by
  have h : on_track_url [(.sym "url", .text url), (.sym "user_id", .record "User" (some u))] now =
      (do
        let id ← Url.find_or_create_by_url url
        Event.save (some ⟨"Url", some id⟩) (some u) now) := rfl
  simp only [tracking, exec_logging, instrument, h, Action.exec_bind, Action.exec_pure,
    exec_find_or_create, Database.canTrack, Database.track, ite_true]
  rcases Option.eq_none_or_eq_some (w.db.url? url) with hurl | ⟨r, hurl⟩
  · by_cases hfits : fitsString url <;> simp [hurl, hfits]
  · simp [hurl]

end Gallery
