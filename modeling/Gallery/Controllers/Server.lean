import Gallery.Controllers.Outcome
import Gallery.Semantics.Transition

/-!
# The server

The server as a transition system: its state is the world, and a step handles
one whole request. A request goes through the tracking filter, which can fail,
and the filter that stores the time of the request, and then reaches its action.

## Main definitions

* `Request.trackable`, `Request.enter` — whether the filters let a request
  through, and the database its action starts from
* `server` — requests handled one at a time

## Main results

* `exec_run` — a request is its filters followed by its action
* `run_cases` — what one request can do
* `Request.enter_rule` — the rule for what the filters leave
-/

namespace Gallery

open Store Rails App Semantics

theorem exec_track_request (r : Request) (user : Option (Row User)) (w : World) :
    Action.exec (track_request r user) w = match r.route.tracked, user with
      | true, some u =>
        if w.db.canTrack r.url then (.ok (), { w with db := w.db.track r.url u.id r.now })
        else (.error ⟨.StatementInvalid, true⟩, w)
      | _, _ => (.ok (), w) := by
  cases user with
  | none => cases h : r.route.tracked <;> simp [track_request, h]
  | some u =>
    cases h : r.route.tracked
    · simp [track_request, h]
    · simpa [track_request, h] using exec_tracking_url r.url u.id r.now w

theorem exec_stamp_request (r : Request) (user : Option (Row User)) (w : World) :
    Action.exec (stamp_request r user) w = match r.route.pictures, user with
      | true, some u => (.ok (), { w with db := w.db.stamp u.id r.now })
      | _, _ => (.ok (), w) := by
  rcases user with _ | u <;> cases h : r.route.pictures <;> simp [stamp_request, h,
    PicturesController.set_last_request_at, Database.stamp]

namespace Request

/-- The user on whose behalf a request is handled. -/
def user (r : Request) (db : Database) : Option (Row User) := current_user db r.session

/-- The tracking filter succeeds. -/
def trackable (r : Request) (db : Database) : Bool :=
  match r.route.tracked, r.user db with
  | true, some _ => db.canTrack r.url
  | _, _ => true

/-- What the tracking filter leaves. -/
def tracked (r : Request) (db : Database) : Database :=
  match r.route.tracked, r.user db with
  | true, some u => db.track r.url u.id r.now
  | _, _ => db

/-- The database the action of a request starts from. -/
def enter (r : Request) (db : Database) : Database :=
  match r.route.pictures, r.user db with
  | true, some u => (r.tracked db).stamp u.id r.now
  | _, _ => r.tracked db

end Request

/-- A request is its filters followed by its action. -/
theorem exec_run (r : Request) (w : World) :
    Action.exec r.run w =
      if r.trackable w.db then
        Action.exec (r.route.run (r.user w.db) r.now) { w with db := r.enter w.db }
      else (.error ⟨.StatementInvalid, true⟩, w) := by
  simp only [Request.run, Action.exec_bind, exec_database, exec_track_request,
    exec_stamp_request, Request.trackable, Request.enter, Request.tracked, Request.user]
  rcases Option.eq_none_or_eq_some (current_user w.db r.session) with hu | ⟨u, hu⟩
  · simp [hu]
  · rcases Bool.eq_false_or_eq_true r.route.tracked with ht | ht <;>
      rcases Bool.eq_false_or_eq_true r.route.pictures with hp | hp <;>
      by_cases hurl : w.db.canTrack r.url <;> simp [hu, ht, hp, hurl]

/-- A request either stops at the tracking filter or ends in an outcome of its action. -/
theorem run_cases (r : Request) (w : World) :
    (r.trackable w.db = false ∧ Action.exec r.run w = (.error ⟨.StatementInvalid, true⟩, w)) ∨
      (r.trackable w.db = true ∧
        Outcome r.now { w with db := r.enter w.db } r.route (r.user w.db)
          (Action.exec r.run w).1 (Action.exec r.run w).2) := by
  rw [exec_run]
  by_cases h : r.trackable w.db
  · simp only [h, ite_true]
    exact .inr ⟨trivial, run_outcome _ _ _ _⟩
  · simp only [h, Bool.false_eq_true, ite_false]
    exact .inl ⟨trivial, trivial⟩

theorem Request.mem_of_user {r : Request} {db : Database} {u : Row User}
    (h : r.user db = some u) : u ∈ db.users.rows := by
  obtain ⟨i, -, hi⟩ := Option.bind_eq_some_iff.mp h
  exact (Table.find?_eq_some_iff.mp hi).1

theorem Request.session_of_user {r : Request} {db : Database} {u : Row User}
    (h : r.user db = some u) : r.session = some u.id := by
  obtain ⟨i, hsession, hi⟩ := Option.bind_eq_some_iff.mp h
  rw [hsession, (Table.find?_eq_some_iff.mp hi).2]

/-- The tracking filter writes no user. -/
theorem Request.tracked_users (r : Request) (db : Database) : (r.tracked db).users = db.users := by
  unfold Request.tracked Database.track
  split
  · split <;> rfl
  · rfl

/-- Outside the gallery's own pages no filter writes a user. -/
theorem Request.enter_users {r : Request} (h : r.route.pictures = false) (db : Database) :
    (r.enter db).users = db.users := by
  rw [Request.enter, h]
  exact r.tracked_users db

theorem mem_of_url? {db : Database} {url : String} {r : Row Url} (h : db.url? url = some r) :
    r ∈ db.urls.rows := List.mem_of_find?_eq_some h

/-- The rule for what the filters do: an event about a URL row that is there, an
event about one just stored, and the time of the request. -/
theorem Request.enter_rule {P : Database → Prop} {r : Request} {db : Database} (h : P db)
    (hknown : ∀ u, r.user db = some u → ∀ row ∈ db.urls.rows,
      P { db with events := db.events.insert ⟨row.id, "Url", u.id, r.now⟩ })
    (hnew : ∀ u, r.user db = some u →
      P { db with
        urls := db.urls.insert ⟨r.url⟩
        events := db.events.insert ⟨db.urls.next, "Url", u.id, r.now⟩ })
    (hstamp : ∀ db u, P db → P (db.stamp u r.now)) : P (r.enter db) := by
  have htracked : P (r.tracked db) := by
    unfold Request.tracked
    rcases Option.eq_none_or_eq_some (r.user db) with hu | ⟨u, hu⟩
    · simpa [hu] using h
    rcases Bool.eq_false_or_eq_true r.route.tracked with ht | ht
    · rcases Option.eq_none_or_eq_some (db.url? r.url) with hurl | ⟨row, hurl⟩
      · simpa [hu, ht, Database.track, hurl] using hnew u hu
      · simpa [hu, ht, Database.track, hurl] using hknown u hu row (mem_of_url? hurl)
    · simpa [hu, ht] using h
  unfold Request.enter
  split
  · exact hstamp _ _ htracked
  · exact htracked

/-- Requests handled one at a time. -/
def server (init : World → Prop) : System World Request where
  init := init
  step w r := some (Action.exec r.run w).2

@[simp] theorem server_step {init : World → Prop} {w w' : World} {r : Request} :
    (server init).step w r = some w' ↔ (Action.exec r.run w).2 = w' := by
  simp [server]

/-- The world after the requests have been handled in order. -/
def World.after (w : World) (requests : List Request) : World :=
  requests.foldl (fun w r => (Action.exec r.run w).2) w

theorem reachable_after {init : World → Prop} {w : World} (h : init w) (requests : List Request) :
    (server init).Reachable (w.after requests) := by
  suffices hreach : ∀ w, (server init).Reachable w →
      (server init).Reachable (w.after requests) from hreach w (.init h)
  induction requests with
  | nil => exact fun _ h => h
  | cons r requests ih => exact fun w h => ih _ (h.step (server_step.mpr rfl))

/-! ### A small gallery, for concrete runs -/

/-- A user who has only an e-mail address. -/
def User.named (email : String) : User :=
  ⟨email, "", none, none, none, none, none, none, 0, 0⟩

/-- Two users, one picture and one category. -/
def Database.sample : Database :=
  { Database.empty with
    users := (Table.empty.insert (.named "ada@example.com")).insert (.named "bob@example.com")
    pictures := Table.empty.insert ⟨"Bridge", "bridge.jpg", 0, 0⟩
    categories := Table.empty.insert ⟨"Cities"⟩ }

/-- A request in the session of user `i`. -/
def Request.by (i : Id) (route : Route) : Request := ⟨some i, "http://gallery/", 0, route⟩

end Gallery
