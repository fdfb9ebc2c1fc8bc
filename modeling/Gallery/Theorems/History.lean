import Gallery.Store.Intern
import Gallery.Theorems.Noninterference

/-!
# The history of a visitor

Tracking splits a visit in two: the URL goes to a table that has every URL once, and an
event points there. The admin's navigation page puts the halves together again. Over whole
runs nothing is lost between them: the page of a user shows the URLs of that user's tracked
requests, each as often as it was asked for, with its time and in order, whatever has
happened to the user since; and the URLs stored are those anybody has asked for.

## Main definitions

* `PageView`, `page_views` — the tracked requests of a run
* `Database.history` — the visits that the log tells

## Main results

* `history_leaves` — what one request adds to the history
* `navigation_history` — the navigation page after a run
-/

namespace Gallery

open Store Rails App Semantics

/-- A request of a signed-in user for a URL. -/
structure PageView where
  user : Id
  url : String
  time : Time
deriving DecidableEq, Repr

/-- The visit a request is: somebody is signed in, the filter stands in front of the
action, and the URL can be stored. -/
def Request.page_view? (r : Request) (db : Database) : Option PageView :=
  if r.route.tracked && r.trackable db then (r.user db).map fun u => ⟨u.id, r.url, r.now⟩ else none

/-- The visits of a run. -/
def page_views : World → List Request → List PageView
  | _, [] => []
  | w, r :: rs => (r.page_view? w.db).toList ++ page_views (r.leaves w) rs

/-- The visit that an event about a URL tells. -/
def Event.page_view? (urls : Table Url) (e : Row Event) : Option PageView :=
  (urls.find? e.val.eventable_id).map fun url => ⟨e.val.user_id, url.val.url, e.val.created_at⟩

/-- The visits that the log tells. -/
def Database.history (db : Database) : List PageView :=
  (db.events.share fun e => e.eventable_type = "Url").filterMap (Event.page_view? db.urls)

/-- The URLs that are stored. -/
def Database.addresses (db : Database) : List String := db.urls.names Url.url

/-- The row of a visit on the navigation page. -/
def EventRow.navigation (time_ago_in_words : Time → String) (v : PageView) : EventRow :=
  ⟨"Navigation", .link v.url, time_ago_in_words v.time ++ " ago"⟩

/-! ### What one request adds -/

section Requests

variable {db db' : Database} {w w' : World} {now : Time}

/-- The history is read off the URLs and the events about them. -/
theorem history_congr (hurls : db'.urls = db.urls)
    (hevents : db'.events.share (fun e => e.eventable_type = "Url") =
      db.events.share fun e => e.eventable_type = "Url") : db'.history = db.history := by
  unfold Database.history
  rw [hurls, hevents]

theorem history_destroyLikes (db : Database) (p : Row Like → Bool) :
    (db.destroyLikes p).history = db.history := by
  refine history_congr rfl (Table.share_delete_of_not fun e _ he => ?_)
  have he : e.val.eventable_type = "Url" := by simpa using he
  simp [he]

theorem history_destroyUser (u : Id) : (db.destroyUser u now).history = db.history := by
  have hevents : (db.destroyUser u now).history =
      ((db.destroyComments (fun c => c.val.user_id = u) now).destroyLikes
        fun l => l.val.user_id = u).history := by
    refine history_congr rfl (Table.share_delete_of_not fun e _ he => ?_)
    have he : e.val.eventable_type = "Url" := by simpa using he
    simp [he]
  rw [hevents, history_destroyLikes]
  rfl

/-- An event about something else is no visit. -/
theorem history_insert_of_ne {i u : Id} {type : String} (h : type ≠ "Url") :
    { db with events := db.events.insert ⟨i, type, u, now⟩ }.history = db.history :=
  history_congr rfl (Table.share_insert_of_not (by simpa using h))

/-- No action adds or removes a visit: that is up to the filter. -/
theorem history_outcome {route : Route} {user : Option (Row User)} {res : Except Raised Response}
    (ho : Outcome now w route user res w') : w'.db.history = w.db.history := by
  cases ho with
  | like_created => exact history_insert_of_ne (by decide)
  | commented _ _ hdb =>
    rw [hdb]
    exact history_insert_of_ne (by decide)
  | like_destroyed => exact history_destroyLikes _ _
  | cancelled => exact history_destroyUser _
  | user_destroyed => exact history_destroyUser _
  | picture_destroyed => exact history_destroyLikes (w.db.destroyComments _ now) _
  | quiet _ _ hdb => rw [hdb]
  | messaged _ _ _ hdb | picture_created _ _ _ hdb =>
    rw [hdb]
    rfl
  | _ => rfl

/-- An event about a URL points at one that is stored. -/
theorem has_of_logsKnown (h : LogsKnown db) {e : Row Event} (he : e ∈ db.events.rows)
    (htype : e.val.eventable_type = "Url") : db.urls.Has e.val.eventable_id := by
  rcases h e he with hlike | hcomment | ⟨-, hhas⟩
  · exact absurd (htype.symm.trans hlike) (by decide)
  · exact absurd (htype.symm.trans hcomment) (by decide)
  · exact hhas

/-- An event about a URL that is stored. -/
theorem history_insert {row : Row Url} (hrow : row ∈ db.urls.rows) (u : Id) (now : Time) :
    { db with events := db.events.insert ⟨row.id, "Url", u, now⟩ }.history =
      db.history ++ [⟨u, row.val.url, now⟩] := by
  have hfind : db.urls.find? row.id = some row := Table.find?_eq_some_iff.mpr ⟨hrow, rfl⟩
  have hevents : (db.events.insert ⟨row.id, "Url", u, now⟩).share
      (fun e => e.eventable_type = "Url") = (db.events.share fun e => e.eventable_type = "Url") ++
        [⟨db.events.next, row.id, "Url", u, now⟩] := Table.share_insert (by simp)
  rw [Database.history, hevents, List.filterMap_append]
  simp [Event.page_view?, hfind, Database.history]

/-- `find_or_create_by_url` changes no URL that an event has pointed at. -/
theorem history_findOrInsert (h : LogsKnown db) (url : String) :
    { db with urls := (db.urls.findOrInsert Url.url ⟨url⟩).2 }.history = db.history := by
  refine List.filterMap_congr fun e he => ?_
  obtain ⟨he, htype⟩ := Table.mem_share.mp he
  have htype : e.val.eventable_type = "Url" := by simpa using htype
  rw [Event.page_view?, Table.find?_findOrInsert (has_of_logsKnown h he htype), Event.page_view?]

/-- Tracking looks the URL up, or stores it, and then writes the event. -/
theorem track_eq (db : Database) (url : String) (u : Id) (now : Time) :
    db.track url u now = { db with
      urls := (db.urls.findOrInsert Url.url ⟨url⟩).2
      events := db.events.insert ⟨(db.urls.findOrInsert Url.url ⟨url⟩).1.id, "Url", u, now⟩ } := by
  rcases Option.eq_none_or_eq_some (db.url? url) with hurl | ⟨row, hurl⟩
  · rw [Table.findOrInsert_of_none hurl]
    simp [Database.track, hurl]
  · rw [Table.findOrInsert_of_some hurl]
    simp [Database.track, hurl]

/-- A tracked request is one visit, and its URL is stored. -/
theorem history_track (h : LogsKnown db) (url : String) (u : Id) :
    (db.track url u now).history = db.history ++ [⟨u, url, now⟩] ∧
      (db.track url u now).addresses = intern db.addresses url := by
  obtain ⟨hrow, hurl⟩ := Table.findOrInsert_mem db.urls Url.url ⟨url⟩
  have hevent := @history_insert { db with urls := (db.urls.findOrInsert Url.url ⟨url⟩).2 }
    (db.urls.findOrInsert Url.url ⟨url⟩).1 hrow u now
  rw [history_findOrInsert h, hurl] at hevent
  rw [track_eq]
  exact ⟨hevent, Table.names_findOrInsert⟩

/-- The filters add the visit. -/
theorem history_enter (h : LogsKnown db) {r : Request} (htrackable : r.trackable db = true) :
    (r.enter db).history = db.history ++ (r.page_view? db).toList ∧
      (r.enter db).addresses =
        ((r.page_view? db).toList.map PageView.url).foldl intern db.addresses := by
  have htracked : (r.tracked db).history = db.history ++ (r.page_view? db).toList ∧
      (r.tracked db).addresses =
        ((r.page_view? db).toList.map PageView.url).foldl intern db.addresses := by
    unfold Request.tracked Request.page_view?
    rcases Option.eq_none_or_eq_some (r.user db) with hu | ⟨u, hu⟩
    · simp [hu]
    rcases Bool.eq_false_or_eq_true r.route.tracked with ht | ht
    · simpa [hu, ht, htrackable] using history_track h r.url u.id
    · simp [hu, ht]
  unfold Request.enter
  split
  · exact htracked
  · exact htracked

/-- What one request adds to the history, and to the URLs. -/
theorem history_leaves (h : LogsKnown w.db) (r : Request) :
    (r.leaves w).db.history = w.db.history ++ (r.page_view? w.db).toList ∧
      (r.leaves w).db.addresses =
        ((r.page_view? w.db).toList.map PageView.url).foldl intern w.db.addresses := by
  unfold Request.leaves
  rcases run_cases r w with ⟨hfails, hrun⟩ | ⟨htrackable, ho⟩
  · have hnone : r.page_view? w.db = none := by simp [Request.page_view?, hfails]
    simp [hrun, hnone]
  · rw [history_outcome ho, Database.addresses, urls_outcome ho]
    exact history_enter h htrackable

end Requests

/-! ### The navigation page -/

/-- The visits of a run are told in order. -/
theorem history_after {w : World} (h : LogsKnown w.db) (rs : List Request) :
    (w.after rs).db.history = w.db.history ++ page_views w rs ∧
      (w.after rs).db.addresses = ((page_views w rs).map PageView.url).foldl intern w.db.addresses ∧
      LogsKnown (w.after rs).db := by
  induction rs generalizing w with
  | nil => exact ⟨by simp [World.after, page_views], rfl, h⟩
  | cons r rs ih =>
    obtain ⟨hhistory, haddresses⟩ := history_leaves h r
    obtain ⟨ihhistory, ihaddresses, hknown⟩ := ih (logsKnown_leaves r h)
    refine ⟨?_, ?_, hknown⟩
    · calc ((r.leaves w).after rs).db.history
          = (r.leaves w).db.history ++ page_views (r.leaves w) rs := ihhistory
        _ = w.db.history ++ page_views w (r :: rs) := by rw [hhistory, List.append_assoc]; rfl
    · calc ((r.leaves w).after rs).db.addresses
          = ((page_views (r.leaves w) rs).map PageView.url).foldl intern
              (r.leaves w).db.addresses := ihaddresses
        _ = ((page_views w (r :: rs)).map PageView.url).foldl intern w.db.addresses := by
          rw [haddresses, page_views, List.map_append, List.foldl_append]

section Page

variable {db : Database} {ago : Time → String} {u : Id}

/-- Every event of the page is a visit of the user, and its row says so. -/
theorem render_navigation (h : LogsKnown db) :
    ∀ e ∈ Admin.events_page db u "Url", ∃ v, Event.page_view? db.urls e = some v ∧ v.user = u ∧
      EventRow.render db ago e = .ok (EventRow.navigation ago v) := by
  intro e he
  obtain ⟨hmem, huser, htype⟩ := mem_events_page.mp he
  obtain ⟨url, hurl⟩ := Table.has_iff_exists_find?.mp (has_of_logsKnown h hmem htype)
  exact ⟨_, by rw [Event.page_view?, hurl]; rfl, huser, EventRow.render_url htype hurl⟩

/-- So any such events render, in the order in which they come. -/
theorem render_visits {events : List (Row Event)}
    (h : ∀ e ∈ events, ∃ v, Event.page_view? db.urls e = some v ∧
      EventRow.render db ago e = .ok (EventRow.navigation ago v)) :
    render_events db ago events =
      .ok ((events.filterMap (Event.page_view? db.urls)).map (EventRow.navigation ago)) := by
  rw [render_events, mapM_eq_ok_iff]
  induction events with
  | nil => exact .nil
  | cons e events ih =>
    obtain ⟨v, hv, hrow⟩ := h e List.mem_cons_self
    rw [List.filterMap_cons_some hv]
    exact .cons hrow (ih fun e he => h e (List.mem_cons_of_mem _ he))

theorem history_page (db : Database) (u : Id) :
    (Admin.events_page db u "Url").filterMap (Event.page_view? db.urls) =
      db.history.filter fun v => v.user = u := by
  rw [Database.history, Table.share, Admin.events_page, List.filterMap_filter,
    List.filterMap_filter, List.filter_filterMap]
  refine List.filterMap_congr fun e _ => ?_
  by_cases htype : e.val.eventable_type = "Url" <;> by_cases huser : e.val.user_id = u <;>
    cases hurl : db.urls.find? e.val.eventable_id <;>
    simp [htype, huser, hurl, Event.page_view?, Option.filter]

end Page

/-- From a fresh log, the navigation page of a user shows after any run the visits of the
user, with the rows in order if the database answers in order and with the same rows
otherwise; and the URLs stored are those of the visits of all users, each once. -/
theorem navigation_history (ago : Time → String) (w : World) (h : NoEvents w) (rs : List Request)
    (u : Id) :
    let rows := ((page_views w rs).filter fun v => v.user = u).map (EventRow.navigation ago)
    let db := (w.after rs).db
    render_events db ago (Admin.events_page db u "Url") = .ok rows ∧
      (∀ events, events.Perm (Admin.events_page db u "Url") →
        ∃ rows', render_events db ago events = .ok rows' ∧ rows'.Perm rows) ∧
      db.addresses = ((page_views w rs).map PageView.url).foldl intern w.db.addresses ∧
      (w.db.addresses.Nodup → db.addresses.Nodup) := by
  intro rows db
  have hfresh : LogsKnown w.db := fun e he => by simp [show w.db.events.rows = [] from h] at he
  have hempty : w.db.history = [] := by
    simp [Database.history, Table.share, show w.db.events.rows = [] from h]
  obtain ⟨hhistory, haddresses, hknown⟩ := history_after hfresh rs
  rw [hempty, List.nil_append] at hhistory
  have hrows : ((Admin.events_page db u "Url").filterMap (Event.page_view? db.urls)).map
      (EventRow.navigation ago) = rows := by
    rw [history_page, hhistory]
  have hrender : ∀ events : List (Row Event), events.Perm (Admin.events_page db u "Url") →
      render_events db ago events =
        .ok ((events.filterMap (Event.page_view? db.urls)).map (EventRow.navigation ago)) := by
    intro events hperm
    refine render_visits fun e he => ?_
    obtain ⟨v, hv, -, hrow⟩ := render_navigation hknown e (hperm.mem_iff.mp he)
    exact ⟨v, hv, hrow⟩
  refine ⟨hrows ▸ hrender _ (.refl _), fun events hperm => ?_, haddresses, fun hnodup => ?_⟩
  · exact ⟨_, hrender events hperm, hrows ▸ (hperm.filterMap _).map _⟩
  · rw [haddresses]
    exact nodup_foldl_intern hnodup

/-- Ada looks at a page twice, Bob once, and then Bob's account is cancelled. -/
theorem navigation_history_bob :
    let ago : Time → String := fun _ => "a minute"
    let rows := [EventRow.navigation ago ⟨2, "http://gallery/", 0⟩,
      EventRow.navigation ago ⟨2, "http://gallery/users", 1⟩]
    let db := ((World.ofDatabase .sample).after [.by 1 .pictures_view, .by 2 .pictures_view,
      .by 1 .pictures_view, ⟨some 2, "http://gallery/users", 1, .registrations_destroy⟩]).db
    db.users.rows.length = 1 ∧ render_events db ago (Admin.events_page db 2 "Url") = .ok rows ∧
      (∀ events, events.Perm (Admin.events_page db 2 "Url") →
        ∃ rows', render_events db ago events = .ok rows' ∧ rows'.Perm rows) ∧
      db.addresses = ["http://gallery/", "http://gallery/users"] ∧ db.addresses.Nodup := by
  intro ago rows db
  have hvisits : page_views (.ofDatabase .sample) [.by 1 .pictures_view, .by 2 .pictures_view,
      .by 1 .pictures_view, ⟨some 2, "http://gallery/users", 1, .registrations_destroy⟩] =
        [⟨1, "http://gallery/", 0⟩, ⟨2, "http://gallery/", 0⟩, ⟨1, "http://gallery/", 0⟩,
          ⟨2, "http://gallery/users", 1⟩] := by decide
  have hhistory := navigation_history ago (.ofDatabase .sample) noEvents_sample
    [.by 1 .pictures_view, .by 2 .pictures_view, .by 1 .pictures_view,
      ⟨some 2, "http://gallery/users", 1, .registrations_destroy⟩] 2
  rw [hvisits] at hhistory
  obtain ⟨hrows, hanswers, haddresses, hnodup⟩ := hhistory
  exact ⟨by decide, hrows, hanswers, haddresses, hnodup .nil⟩

end Gallery
