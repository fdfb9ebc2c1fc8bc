import Gallery.Model.Uploads
import Gallery.Pages.LastComments

/-!
# The events page of the admin

The partial `_event`, a table with one row for each event. A row names the kind of
the event and shows what it is about: the URL itself, or the thumb of the picture
that was liked or commented on.

## Main definitions

* `Event.eventable` — the record an event points at
* `EventableRecord.call` — the methods by which a record may lead to its picture
* `EventRow.render`, `render_events` — the partial
* `EventRow.Shows` — what a row is there to show
-/

namespace Gallery.Rails

/-- The view helper `truncate(text, length: .., omission: ..)`. -/
def truncate_with (s : String) (length : ℕ) (omission : String) : String :=
  if length < s.length then String.ofList (s.toList.take (length - omission.length)) ++ omission
  else s

end Gallery.Rails

namespace Gallery

open Store Rails

/-- A record an event may point at. -/
inductive EventableRecord
  | url (url : Row Url)
  | comment (comment : Row Comment)
  | like (like : Row Like)
  | user (user : Row User)
deriving DecidableEq, Repr

/-- `event.eventable`: `nil` when the row is gone, a `NameError` for a type that is no
class. -/
def Event.eventable (db : Database) (e : Event) : Except Failure (Option EventableRecord) :=
  match e.eventable_type with
  | "Url" => .ok ((db.urls.find? e.eventable_id).map .url)
  | "Comment" => .ok ((db.comments.find? e.eventable_id).map .comment)
  | "Like" => .ok ((db.likes.find? e.eventable_id).map .like)
  | "User" => .ok ((db.users.find? e.eventable_id).map .user)
  | _ => .error .NameError

namespace EventableRecord

/-- The foreign key behind a method: `Like` and `Comment` belong to a `picture`. -/
def association : EventableRecord → String → Option Id
  | like l, "picture" => some l.val.picture_id
  | comment c, "picture" => some c.val.picture_id
  | _, _ => none

/-- Calls a method that should lead to a picture, perhaps on `nil`. -/
def call (db : Database) (object : Option EventableRecord) (method : String) :
    Except Failure (Option (Row Picture)) :=
  match object.bind fun r => r.association method with
  | some picture_id => .ok (db.pictures.find? picture_id)
  | none => .error .NoMethodError

end EventableRecord

/-- The second cell: a link to a URL, or an image. -/
inductive EventObject
  | link (url : String)
  | image (src : Path)
deriving DecidableEq, Repr

structure EventRow where
  event : String
  object : EventObject
  date : String
deriving DecidableEq, Repr

/-- `truncate(event.eventable.body,length:20, omission: '...(and more)')` -/
def EventRow.excerpt (body : String) : String := truncate_with body 20 "...(and more)"

/-- `picture.filename_url(:thumb)` -/
def Picture.thumb_url (p : Row Picture) : Path := ImageUploader.path p.val.filename .thumb

/-- The first cell. What is neither a URL nor a comment counts as liked. -/
def EventRow.title : Option EventableRecord → String
  | some (.url _) => "Navigation"
  | some (.comment c) => EventRow.excerpt c.val.body
  | _ => "Liked"

/-- The second cell: `event.eventable.show.filename_url(:thumb)` unless there is a URL. -/
def EventRow.target (db : Database) : Option EventableRecord → Except Failure EventObject
  | some (.url u) => .ok (.link u.val.url)
  | eventable => do
    match ← EventableRecord.call db eventable "show" with
    | some picture => return .image (Picture.thumb_url picture)
    | none => throw .NoMethodError

/-- A row of the table. -/
def EventRow.render (db : Database) (time_ago_in_words : Time → String) (e : Row Event) :
    Except Failure EventRow := do
  let eventable ← e.val.eventable db
  let object ← EventRow.target db eventable
  return ⟨EventRow.title eventable, object, time_ago_in_words e.val.created_at ++ " ago"⟩

/-- The partial `_event`. -/
def render_events (db : Database) (time_ago_in_words : Time → String) (events : List (Row Event)) :
    Except Failure (List EventRow) :=
  events.mapM (EventRow.render db time_ago_in_words)

/-- What a row is there to show, for the three kinds of event. -/
inductive EventRow.Shows (db : Database) : Row Event → EventRow → Prop
  | navigation {e : Row Event} {row : EventRow} {u : Row Url} (htype : e.val.eventable_type = "Url")
      (hu : db.urls.find? e.val.eventable_id = some u) (hevent : row.event = "Navigation")
      (hobject : row.object = .link u.val.url) : Shows db e row
  | commented {e : Row Event} {row : EventRow} {c : Row Comment} {p : Row Picture}
      (htype : e.val.eventable_type = "Comment")
      (hc : db.comments.find? e.val.eventable_id = some c)
      (hp : db.pictures.find? c.val.picture_id = some p)
      (hevent : row.event = EventRow.excerpt c.val.body)
      (hobject : row.object = .image (Picture.thumb_url p)) : Shows db e row
  | liked {e : Row Event} {row : EventRow} {l : Row Like} {p : Row Picture}
      (htype : e.val.eventable_type = "Like") (hl : db.likes.find? e.val.eventable_id = some l)
      (hp : db.pictures.find? l.val.picture_id = some p) (hevent : row.event = "Liked")
      (hobject : row.object = .image (Picture.thumb_url p)) : Shows db e row

/-! ### One row -/

variable {db : Database} {ago : Time → String} {e : Row Event}

/-- A row about a URL that is stored. -/
theorem EventRow.render_url {u : Row Url} (htype : e.val.eventable_type = "Url")
    (hu : db.urls.find? e.val.eventable_id = some u) :
    EventRow.render db ago e =
      .ok ⟨"Navigation", .link u.val.url, ago e.val.created_at ++ " ago"⟩ := by
  have hobject : e.val.eventable db = .ok (some (.url u)) := by
    simp only [Event.eventable, htype, hu, Option.map_some]
  rw [EventRow.render, hobject]
  rfl

/-- No record has a method `show`. -/
theorem EventableRecord.call_show (object : Option EventableRecord) :
    EventableRecord.call db object "show" = .error .NoMethodError := by
  rcases object with _ | (_ | _ | _ | _) <;> rfl

/-- So the second cell exists for URLs only. -/
theorem EventRow.target_ok {eventable : Option EventableRecord} {object : EventObject}
    (h : EventRow.target db eventable = .ok object) : ∃ u, eventable = some (.url u) := by
  rcases eventable with _ | (u | _ | _ | _)
  case some.url => exact ⟨u, rfl⟩
  all_goals
    rw [EventRow.target, EventableRecord.call_show] at h
    · cases h
    · nofun

/-- An event points at a URL only if its type says so. -/
theorem Event.type_of_eventable {e : Event} {u : Row Url}
    (h : e.eventable db = .ok (some (.url u))) : e.eventable_type = "Url" := by
  unfold Event.eventable at h
  split at h
  · assumption
  all_goals simp at h

/-- A row about anything else raises. -/
theorem EventRow.type_of_render {row : EventRow} (h : EventRow.render db ago e = .ok row) :
    e.val.eventable_type = "Url" := by
  cases heventable : e.val.eventable db with
  | error err =>
    rw [EventRow.render, heventable] at h
    cases h
  | ok eventable =>
    cases hobject : EventRow.target db eventable with
    | error err =>
      rw [EventRow.render, heventable] at h
      simp only [bind, Except.bind, hobject] at h
      cases h
    | ok object =>
      obtain ⟨u, rfl⟩ := EventRow.target_ok hobject
      exact Event.type_of_eventable heventable

end Gallery
