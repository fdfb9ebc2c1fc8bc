import Gallery.Controllers.Server

/-!
# Like events mirror likes

Read off as pairs of a like's id and a user id, the events of type `Like` are
the likes, in the same order. Creation goes through the `pictures.like`
subscriber, which refuses a like that was not saved; removal goes through the
`dependent: :destroy` of `Like`, from unliking, from a picture and from a user.

## Main results

* `mirror_of_reachable` — the two tables agree in every reachable state
* `like_events_mirror_likes` — each like has its one event, each event its like
-/

namespace Gallery

open Store Rails App Semantics

/-- The events of type `Like`, as pairs of a like's id and a user id. -/
def Database.likeEvents (db : Database) : List (Id × Id) :=
  (db.events.rows.filter fun e => e.val.eventable_type = "Like").map fun e =>
    (e.val.eventable_id, e.val.user_id)

/-- The likes, as pairs of their id and their user id. -/
def Database.likeKeys (db : Database) : List (Id × Id) :=
  db.likes.rows.map fun l => (l.id, l.val.user_id)

/-- The two tables agree. -/
def Mirror (db : Database) : Prop := db.likeEvents = db.likeKeys

section Writes

variable {db : Database} {now : Time}

/-- An event about something else changes nothing. -/
theorem mirror_insert_event {i u : Id} {type : String} (h : Mirror db) (htype : type ≠ "Like") :
    Mirror { db with events := db.events.insert ⟨i, type, u, now⟩ } := by
  simpa [Mirror, Database.likeEvents, Database.likeKeys, List.filter_append, htype] using h

/-- Neither does removing events about something else. -/
theorem mirror_delete_events {q : Row Event → Bool} (h : Mirror db)
    (hq : ∀ e, q e = true → e.val.eventable_type ≠ "Like") :
    Mirror { db with events := db.events.delete q } := by
  have hfilter : (db.events.rows.filter fun e => !q e).filter
      (fun e => e.val.eventable_type = "Like") =
        db.events.rows.filter fun e => e.val.eventable_type = "Like" := by
    rw [List.filter_filter]
    refine List.filter_congr fun e _ => ?_
    by_cases he : q e
    · simp [hq e he]
    · simp [he]
  simpa [Mirror, Database.likeEvents, Database.likeKeys, hfilter] using h

theorem mirror_addLike {u p : Id} (h : Mirror db) : Mirror (db.addLike u p now) := by
  simp only [Mirror, Database.likeEvents, Database.likeKeys] at h
  simp [Mirror, Database.likeEvents, Database.likeKeys, Database.addLike, List.filter_append, h]

/-- Destroying likes removes the events of exactly those likes: an id names one like. -/
theorem mirror_destroyLikes {p : Row Like → Bool} (h : Mirror db) :
    Mirror (db.destroyLikes p) := by
  let gone (i : Id) : Bool := (db.likes.rows.filter p).any fun l => l.id = i
  -- keys are unique, so the events that go are those of the likes that go
  have hgone : ∀ l ∈ db.likes.rows, gone l.id = p l := by
    intro l hl
    rw [Bool.eq_iff_iff]
    simp only [gone, List.any_eq_true, List.mem_filter, decide_eq_true_eq]
    constructor
    · rintro ⟨l', ⟨hl', hp⟩, hid⟩
      rwa [← Table.eq_of_id_eq hl' hl hid]
    · exact fun hp => ⟨l, ⟨hl, hp⟩, rfl⟩
  have hevents : (db.destroyLikes p).likeEvents = db.likeEvents.filter fun k => !gone k.1 := by
    simp only [Database.likeEvents, Database.destroyLikes, Table.rows_delete, List.filter_map,
      List.filter_filter]
    congr 1
    refine List.filter_congr fun e _ => ?_
    by_cases he : e.val.eventable_type = "Like" <;> simp [he, gone]
  have hlikes : (db.destroyLikes p).likeKeys = db.likeKeys.filter fun k => !gone k.1 := by
    simp only [Database.likeKeys, Database.destroyLikes, Table.rows_delete, List.filter_map]
    congr 1
    exact List.filter_congr fun l hl => by simp [hgone l hl]
  rw [Mirror, hevents, hlikes, h]

theorem mirror_destroyUser {i : Id} (h : Mirror db) : Mirror (db.destroyUser i now) := by
  have hlikes : Mirror ((db.destroyComments (fun c => c.val.user_id = i) now).destroyLikes
      fun l => l.val.user_id = i) := mirror_destroyLikes h
  exact mirror_delete_events hlikes fun e he => by simp_all

theorem mirror_destroyPicture {i : Id} (h : Mirror db) : Mirror (db.destroyPicture i now) := by
  have hlikes : Mirror ((db.destroyComments (fun c => c.val.picture_id = i) now).destroyLikes
      fun l => l.val.picture_id = i) := mirror_destroyLikes h
  exact hlikes

end Writes

/-- The filters in front of an action write only events about URLs. -/
theorem mirror_enter {db : Database} (r : Request) (h : Mirror db) : Mirror (r.enter db) :=
  Request.enter_rule h (fun _ _ _ _ => mirror_insert_event h (by decide))
    (fun _ _ => mirror_insert_event h (by decide)) fun _ _ h => h

/-- Every action keeps the two tables in step. -/
theorem mirror_outcome {now : Time} {w w' : World} {route : Route} {user : Option (Row User)}
    {res : Except Raised Response} (ho : Outcome now w route user res w') (h : Mirror w.db) :
    Mirror w'.db := by
  cases ho with
  | like_created => exact mirror_addLike h
  | like_destroyed => exact mirror_destroyLikes h
  | commented _ _ hdb =>
    rw [hdb]
    exact mirror_insert_event h (by decide)
  | cancelled => exact mirror_destroyUser h
  | user_destroyed => exact mirror_destroyUser h
  | picture_destroyed => exact mirror_destroyPicture h
  | quiet _ _ hdb => rwa [hdb]
  | messaged _ _ _ hdb => rw [hdb]; exact h
  | picture_created _ _ _ hdb => rw [hdb]; exact h
  | subscribed | unsubscribed | signed_up | not_signed_up | signed_in | not_signed_in
  | signed_out | facebook_known | facebook_tracked | facebook_stored | category_destroyed
  | category_created => exact h

theorem mirror_run (r : Request) (w : World) (h : Mirror w.db) :
    Mirror (Action.exec r.run w).2.db := by
  rcases run_cases r w with ⟨-, hrun⟩ | ⟨-, ho⟩
  · rwa [hrun]
  · exact mirror_outcome ho (mirror_enter r h)

/-- No like has been given yet, and no event claims one. -/
def NoLikes (w : World) : Prop :=
  w.db.likes.rows = [] ∧ ∀ e ∈ w.db.events.rows, e.val.eventable_type ≠ "Like"

theorem mirror_of_reachable {w : World} (h : (server NoLikes).Reachable w) : Mirror w.db := by
  refine System.Reachable.invariant (P := fun w => Mirror w.db) h ?_ ?_
  · rintro w ⟨hlikes, hevents⟩
    have hnone : (w.db.events.rows.filter fun e => e.val.eventable_type = "Like") = [] := by
      simpa [List.filter_eq_nil_iff] using hevents
    simp [Mirror, Database.likeEvents, Database.likeKeys, hlikes, hnone]
  · intro w r w' h hstep
    rw [← server_step.mp hstep]
    exact mirror_run r w h

namespace Mirror

variable {db : Database} {l : Row Like} {e e' : Row Event}

theorem event_of_like (h : Mirror db) (hl : l ∈ db.likes.rows) :
    ∃ e ∈ db.events.rows, (e.val.eventable_type = "Like" ∧ e.val.eventable_id = l.id) ∧
      e.val.user_id = l.val.user_id := by
  have hmem : (l.id, l.val.user_id) ∈ db.likeEvents := by
    rw [h]
    exact List.mem_map.mpr ⟨l, hl, rfl⟩
  obtain ⟨e, he, hkey⟩ := List.mem_map.mp hmem
  obtain ⟨he, htype⟩ := List.mem_filter.mp he
  obtain ⟨hid, huser⟩ := Prod.mk.inj hkey
  exact ⟨e, he, ⟨by simpa using htype, hid⟩, huser⟩

theorem like_of_event (h : Mirror db) (he : e ∈ db.events.rows)
    (htype : e.val.eventable_type = "Like") :
    ∃ l ∈ db.likes.rows, l.id = e.val.eventable_id ∧ l.val.user_id = e.val.user_id := by
  have hmem : (e.val.eventable_id, e.val.user_id) ∈ db.likeKeys := by
    rw [← h]
    exact List.mem_map.mpr ⟨e, List.mem_filter.mpr ⟨he, by simpa using htype⟩, rfl⟩
  obtain ⟨l, hl, hkey⟩ := List.mem_map.mp hmem
  exact ⟨l, hl, (Prod.mk.inj hkey).1, (Prod.mk.inj hkey).2⟩

/-- Two events about one like are one event, since the ids of the likes are distinct. -/
theorem event_unique (h : Mirror db) (he : e ∈ db.events.rows) (he' : e' ∈ db.events.rows)
    (htype : e.val.eventable_type = "Like") (htype' : e'.val.eventable_type = "Like")
    (hid : e.val.eventable_id = e'.val.eventable_id) : e = e' := by
  have hnodup : (db.likeEvents.map Prod.fst).Nodup := by
    rw [h, Database.likeKeys, List.map_map]
    exact db.likes.distinct
  rw [Database.likeEvents, List.map_map] at hnodup
  exact List.inj_on_of_nodup_map hnodup (List.mem_filter.mpr ⟨he, by simpa using htype⟩)
    (List.mem_filter.mpr ⟨he', by simpa using htype'⟩) hid

end Mirror

/-- From a state without likes, in every state a run of requests reaches, each
like is the eventable of exactly one `Like` event, which carries the like's
user, and each `Like` event points at a like. -/
theorem like_events_mirror_likes (w : World) (h : (server NoLikes).Reachable w) :
    (∀ l ∈ w.db.likes.rows, ∃ e ∈ w.db.events.rows,
      (e.val.eventable_type = "Like" ∧ e.val.eventable_id = l.id) ∧
        e.val.user_id = l.val.user_id ∧
        ∀ e' ∈ w.db.events.rows,
          e'.val.eventable_type = "Like" ∧ e'.val.eventable_id = l.id → e' = e) ∧
      ∀ e ∈ w.db.events.rows, e.val.eventable_type = "Like" →
        w.db.likes.Has e.val.eventable_id := by
  have hmirror := mirror_of_reachable h
  refine ⟨fun l hl => ?_, fun e he htype => ?_⟩
  · obtain ⟨e, he, ⟨htype, hid⟩, huser⟩ := hmirror.event_of_like hl
    refine ⟨e, he, ⟨htype, hid⟩, huser, fun e' he' ⟨htype', hid'⟩ => ?_⟩
    exact hmirror.event_unique he' he htype' htype (hid'.trans hid.symm)
  · obtain ⟨l, hl, hid, -⟩ := hmirror.like_of_event he htype
    exact ⟨l, hl, hid⟩

theorem like_events_mirror_likes_one :
    let w := (Action.exec
      (Request.by 1 (.pictures_like (some "1") none)).run (.ofDatabase .sample)).2
    w.db.likes.rows = [⟨1, 1, 1⟩] ∧
      (∀ l ∈ w.db.likes.rows, ∃ e ∈ w.db.events.rows,
        (e.val.eventable_type = "Like" ∧ e.val.eventable_id = l.id) ∧
          e.val.user_id = l.val.user_id ∧
          ∀ e' ∈ w.db.events.rows,
            e'.val.eventable_type = "Like" ∧ e'.val.eventable_id = l.id → e' = e) ∧
      ∀ e ∈ w.db.events.rows, e.val.eventable_type = "Like" →
        w.db.likes.Has e.val.eventable_id := by
  refine ⟨by decide, like_events_mirror_likes _ (System.Reachable.step (.init ⟨rfl, ?_⟩) rfl)⟩
  simp [World.ofDatabase, Database.sample, Database.empty]

end Gallery
