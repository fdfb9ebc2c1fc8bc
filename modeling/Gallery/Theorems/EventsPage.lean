import Gallery.Pages.Events
import Gallery.Theorems.AuditLog

/-!
# When the events page renders

The second cell of a row asks the liked or commented record for `show`, which neither
has: their picture is called `picture`. So the page renders as long as it lists only
URLs, and these are never removed.

## Main definitions

* `Admin.user_links` — the types that the list of users links to
* `EventsPageTotal` — the page renders, with a row for each event it has found
* `LogsKnown` — which events there are, the invariant

## Main results

* `logsKnown_outcome`, `logsKnown_of_reachable` — the invariant over runs
* `events_page_total_iff` — the pages that render
-/

namespace Gallery

open Store Rails App Semantics

/-- The types that the admin's list of users links to. -/
def Admin.user_links : List String := ["Url", "Like", "Comment", "sign_in", "sign_out"]

/-- The page of a user and a type renders, with a row for each event that shows what it
is there to show. -/
def EventsPageTotal (time_ago_in_words : Time → String) (db : Database) (user_id : Id)
    (url : String) : Prop :=
  ∃ rows, render_events db time_ago_in_words (Admin.events_page db user_id url) = .ok rows ∧
    List.Forall₂ (EventRow.Shows db) (Admin.events_page db user_id url) rows

/-- The events there are: about likes, about comments, and about URLs that are stored. -/
def LogsKnown (db : Database) : Prop :=
  ∀ e ∈ db.events.rows, e.val.eventable_type = "Like" ∨ e.val.eventable_type = "Comment" ∨
    e.val.eventable_type = "Url" ∧ db.urls.Has e.val.eventable_id

/-- Nothing has been logged yet. -/
def NoEvents (w : World) : Prop := w.db.events.rows = []

/-! ### The invariant -/

section Writes

variable {db : Database} {now : Time}

theorem logsKnown_insert {i u : Id} {type : String} (h : LogsKnown db)
    (hnew : type = "Like" ∨ type = "Comment" ∨ type = "Url" ∧ db.urls.Has i) :
    LogsKnown { db with events := db.events.insert ⟨i, type, u, now⟩ } := by
  intro e he
  rcases List.mem_append.mp he with he | he
  · exact h e he
  · obtain rfl := List.mem_singleton.mp he
    exact hnew

/-- Whatever keeps the URLs and adds no event keeps the invariant. -/
theorem logsKnown_of_subset {db' : Database} (h : LogsKnown db) (hurls : db'.urls = db.urls)
    (hevents : ∀ e ∈ db'.events.rows, e ∈ db.events.rows) : LogsKnown db' := by
  intro e he
  rw [hurls]
  exact h e (hevents e he)

theorem logsKnown_destroyLikes {p : Row Like → Bool} (h : LogsKnown db) :
    LogsKnown (db.destroyLikes p) :=
  logsKnown_of_subset h rfl fun _ he => List.mem_of_mem_filter he

theorem logsKnown_destroyUser {i : Id} (h : LogsKnown db) : LogsKnown (db.destroyUser i now) :=
  logsKnown_of_subset h rfl fun _ he => List.mem_of_mem_filter (List.mem_of_mem_filter he)

/-- The tracking filter stores the URL before the event. -/
theorem logsKnown_enter (r : Request) (h : LogsKnown db) : LogsKnown (r.enter db) := by
  refine Request.enter_rule h (fun u _ row hrow => ?_) (fun u _ => ?_) fun _ _ h => h
  · exact logsKnown_insert h (.inr (.inr ⟨rfl, .intro hrow⟩))
  · intro e he
    rcases List.mem_append.mp he with he | he
    · refine (h e he).imp_right fun h => h.imp_right fun h => ⟨h.1, ?_⟩
      exact (Table.has_insert _).mpr (.inl h.2)
    · obtain rfl := List.mem_singleton.mp he
      exact .inr (.inr ⟨rfl, (Table.has_insert _).mpr (.inr rfl)⟩)

end Writes

/-- Every action keeps it: only likes and comments are logged after the filters, and no
action removes a URL. -/
theorem logsKnown_outcome {now : Time} {w w' : World} {route : Route} {user : Option (Row User)}
    {res : Except Raised Response} (ho : Outcome now w route user res w') (h : LogsKnown w.db) :
    LogsKnown w'.db := by
  cases ho with
  | like_created => exact logsKnown_insert h (.inl rfl)
  | like_destroyed => exact logsKnown_destroyLikes h
  | commented _ _ hdb =>
    rw [hdb]
    exact logsKnown_insert h (.inr (.inl rfl))
  | cancelled => exact logsKnown_destroyUser h
  | user_destroyed => exact logsKnown_destroyUser h
  | picture_destroyed => exact logsKnown_destroyLikes h
  | quiet _ _ hdb => rwa [hdb]
  | messaged _ _ _ hdb => rw [hdb]; exact h
  | picture_created _ _ _ hdb => rw [hdb]; exact h
  | subscribed | unsubscribed | signed_up | not_signed_up | signed_in | not_signed_in
  | signed_out | facebook_known | facebook_tracked | facebook_stored | category_destroyed
  | category_created => exact h

theorem logsKnown_of_reachable {w : World} (h : (server NoEvents).Reachable w) :
    LogsKnown w.db := by
  refine System.Reachable.invariant (P := fun w => LogsKnown w.db) h ?_ ?_
  · intro w hw e he
    rw [show w.db.events.rows = [] from hw] at he
    cases he
  · intro w r w' h hstep
    obtain rfl := server_step.mp hstep
    rcases run_cases r w with ⟨-, hrun⟩ | ⟨-, ho⟩
    · rwa [hrun]
    · exact logsKnown_outcome ho (logsKnown_enter r h)

/-! ### The page -/

variable {ago : Time → String} {db : Database} {user_id : Id}

theorem mem_events_page {url : String} {e : Row Event} :
    e ∈ Admin.events_page db user_id url ↔
      e ∈ db.events.rows ∧ e.val.user_id = user_id ∧ e.val.eventable_type = url := by
  simp [Admin.events_page, List.mem_filter]

/-- A page without events is an empty table. -/
theorem total_of_empty {url : String} (h : Admin.events_page db user_id url = []) :
    EventsPageTotal ago db user_id url := ⟨[], by rw [h]; rfl, by rw [h]; exact .nil⟩

/-- The page of the URLs a user has visited. -/
theorem total_url (h : LogsKnown db) : EventsPageTotal ago db user_id "Url" := by
  have hurl : ∀ e ∈ Admin.events_page db user_id "Url",
      e.val.eventable_type = "Url" ∧ ∃ u, db.urls.find? e.val.eventable_id = some u := by
    intro e he
    obtain ⟨he, -, htype⟩ := mem_events_page.mp he
    refine ⟨htype, Table.has_iff_exists_find?.mp ?_⟩
    rcases h e he with hlike | hcomment | ⟨-, hhas⟩
    · rw [htype] at hlike
      exact absurd hlike (by decide)
    · rw [htype] at hcomment
      exact absurd hcomment (by decide)
    · exact hhas
  have hrender : ∀ e ∈ Admin.events_page db user_id "Url", ∃ row,
      EventRow.render db ago e = .ok row ∧ EventRow.Shows db e row := by
    intro e he
    obtain ⟨htype, u, hu⟩ := hurl e he
    exact ⟨_, EventRow.render_url htype hu, .navigation htype hu rfl rfl⟩
  exact mapM_ok_forall₂ hrender

/-- A page that renders lists only URLs. -/
theorem type_of_total {url : String} (h : EventsPageTotal ago db user_id url) :
    ∀ e ∈ Admin.events_page db user_id url, e.val.eventable_type = "Url" := by
  obtain ⟨rows, hrows, -⟩ := h
  intro e he
  obtain ⟨row, hrow⟩ := ok_of_mapM hrows e he
  exact EventRow.type_of_render hrow

/-- In every state a run of requests reaches, the events page of a user renders, with the
rows it is there to show, for the types `Url`, `sign_in` and `sign_out`; for `Like` and
`Comment` it does exactly if the user has no such event. -/
theorem events_page_total_iff (ago : Time → String) (w : World)
    (h : (server NoEvents).Reachable w) (user_id : Id) {url : String}
    (hurl : url ∈ Admin.user_links) :
    EventsPageTotal ago w.db user_id url ↔
      (url = "Like" ∨ url = "Comment" →
        ∀ e ∈ w.db.events.rows, e.val.user_id = user_id → e.val.eventable_type ≠ url) := by
  have hknown := logsKnown_of_reachable h
  -- an event on the page has the type that was asked for
  have hempty : (∀ e ∈ w.db.events.rows, e.val.user_id = user_id → e.val.eventable_type ≠ url) →
      Admin.events_page w.db user_id url = [] := by
    intro hnone
    refine List.eq_nil_iff_forall_not_mem.mpr fun e he => ?_
    obtain ⟨he, huser, htype⟩ := mem_events_page.mp he
    exact hnone e he huser htype
  constructor
  · rintro htotal hlink e he huser htype
    have hpage := type_of_total htotal e (mem_events_page.mpr ⟨he, huser, htype⟩)
    rw [htype] at hpage
    rcases hlink with rfl | rfl <;> exact absurd hpage (by decide)
  · intro hnone
    by_cases hlink : url = "Like" ∨ url = "Comment"
    · exact total_of_empty (hempty (hnone hlink))
    by_cases hnav : url = "Url"
    · rw [hnav]
      exact total_url hknown
    -- no session event is ever stored
    refine total_of_empty (hempty fun e he _ htype => ?_)
    rcases hknown e he with hlike | hcomment | ⟨hvisit, -⟩
    · exact hlink (.inl (htype.symm.trans hlike))
    · exact hlink (.inr (htype.symm.trans hcomment))
    · exact hnav (htype.symm.trans hvisit)

/-! ### Concrete pages -/

theorem noEvents_sample : NoEvents (.ofDatabase .sample) := rfl

/-- The URLs that Ada has visited. -/
theorem events_page_total_visit :
    let w := (World.ofDatabase .sample).after [.by 1 .pictures_view]
    w.db.events.rows = [⟨1, 1, "Url", 1, 0⟩] ∧
      (EventsPageTotal (fun _ => "a minute") w.db 1 "Url" ↔
        ("Url" = "Like" ∨ "Url" = "Comment" →
          ∀ e ∈ w.db.events.rows, e.val.user_id = 1 → e.val.eventable_type ≠ "Url")) :=
  ⟨by decide, events_page_total_iff _ _ (reachable_after noEvents_sample _) 1 (by decide)⟩

/-- Ada likes a picture, and the page of her likes raises. -/
theorem likes_page_raises : ∃ w, (server NoEvents).Reachable w ∧ "Like" ∈ Admin.user_links ∧
    ¬ EventsPageTotal (fun _ => "a minute") w.db 1 "Like" := by
  refine ⟨_, reachable_after noEvents_sample [.by 1 (.pictures_like (some "1") none)],
    by decide, ?_⟩
  rintro ⟨rows, hrows, -⟩
  have hraises : render_events (World.after (.ofDatabase .sample)
      [.by 1 (.pictures_like (some "1") none)]).db (fun _ => "a minute")
      (Admin.events_page (World.after (.ofDatabase .sample)
        [.by 1 (.pictures_like (some "1") none)]).db 1 "Like") = .error .NoMethodError := by
    decide
  rw [hraises] at hrows
  cases hrows

end Gallery
