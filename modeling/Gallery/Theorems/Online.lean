import Gallery.Theorems.FragmentCache

/-!
# Who is listed as online

The pages list the users whose last request to the gallery is less than five minutes old.
What they read is a column that each such request stores; next to the runs of the server
goes a record of who has been seen, and when.

## Main definitions

* `Request.seen` — the user whom a request marks as seen
* `Watched`, `watchedServer` — the server, and when each user was last seen
* `Seen` — the column agrees with the record

## Main results

* `seen_of_reachable` — in every reachable state
* `online_users_iff` — who is listed
-/

namespace Gallery

open Store Rails App Semantics

/-- The user whose request reaches `set_last_request_at`. -/
def Request.seen (r : Request) (db : Database) : Option Id :=
  if r.route.pictures && r.trackable db then (r.user db).map (·.id) else none

/-- A world, and when each user was last seen in the gallery. -/
structure Watched where
  world : World
  seen : Id → Option Time

def Watched.handle (s : Watched) (r : Request) : Watched where
  world := (Action.exec r.run s.world).2
  seen := match r.seen s.world.db with
    | some i => Function.update s.seen i (some r.now)
    | none => s.seen

/-- The server, watched from a world whose columns are the first record. -/
def watchedServer : System Watched Request where
  init s := ∀ i, s.seen i = (s.world.db.users.find? i).bind (·.val.last_request_at)
  step s r := some (s.handle r)

/-- The column holds the record; nobody who has not signed up has been seen. -/
structure Seen (users : Table User) (seen : Id → Option Time) : Prop where
  column : ∀ r ∈ users.rows, r.val.last_request_at = seen r.id
  unknown : ∀ i, users.next ≤ i → seen i = none

/-! ### What happens to the column -/

namespace Seen

variable {users : Table User} {seen : Id → Option Time} {u : User} {i : Id} {now : Time}

/-- Somebody who signs up has not been seen. -/
theorem insert (h : Seen users seen) (hu : u.last_request_at = none) :
    Seen (users.insert u) seen where
  column r hr := by
    rcases List.mem_append.mp hr with hr | hr
    · exact h.column r hr
    · obtain rfl := List.mem_singleton.mp hr
      exact hu.trans (h.unknown _ le_rfl).symm
  unknown i hi := h.unknown i (Int.le_of_lt (Int.lt_of_add_one_le hi))

theorem delete (h : Seen users seen) (p : Row User → Bool) : Seen (users.delete p) seen where
  column r hr := h.column r (List.mem_of_mem_filter hr)
  unknown := h.unknown

/-- The bookkeeping of a sign-in leaves the time of the last request alone. -/
theorem track {db : Database} (h : Seen db.users seen) (i : Id) (now : Time) :
    Seen (db.update_tracked_fields i now).users seen where
  column r hr := by
    obtain ⟨row, hrow, rfl⟩ := List.mem_map.mp hr
    rw [← h.column row hrow]
    by_cases hid : row.id = i <;> simp [hid]
  unknown := h.unknown

theorem stamp {db : Database} (h : Seen db.users seen) (hi : i < db.users.next) :
    Seen (db.stamp i now).users (Function.update seen i (some now)) where
  column r hr := by
    obtain ⟨row, hrow, rfl⟩ := List.mem_map.mp hr
    by_cases hid : row.id = i
    · simp [hid]
    · simp [hid, h.column row hrow]
  unknown j hj := by
    have hne : j ≠ i := fun hji => absurd hj (not_le.mpr (hji ▸ hi))
    rw [Function.update_of_ne hne]
    exact h.unknown j hj

end Seen

section Requests

variable {w w' : World} {seen : Id → Option Time} {now : Time}

/-- Actions that store no user. -/
theorem seen_outcome {route : Route} {user : Option (Row User)} {res : Except Raised Response}
    (ho : Outcome now w route user res w') (h : Seen w.db.users seen)
    (hregistration : ∀ params captcha validatable digest,
      route ≠ .registrations_create params captcha validatable digest)
    (hfacebook : ∀ auth tracked digest pick,
      route ≠ .sessions_facebook auth tracked digest pick) :
    Seen w'.db.users seen := by
  cases ho with
  | signed_up => exact absurd rfl (hregistration _ _ _ _)
  | facebook_tracked | facebook_stored => exact absurd rfl (hfacebook _ _ _ _)
  | signed_in => exact h.track _ _
  | cancelled | user_destroyed => exact h.delete _
  | quiet _ _ hdb => rwa [hdb]
  | commented _ _ hdb | messaged _ _ _ hdb | picture_created _ _ _ hdb =>
    rw [hdb]
    exact h
  | _ => exact h

theorem seen_registration (h : Seen w.db.users seen) (params : AccountParams)
    (captcha validatable : Bool) (digest : String) :
    Seen (Action.exec (RegistrationsController.create params captcha validatable digest now)
      w).2.db.users seen := by
  simp only [RegistrationsController.create, Action.exec_ite, Action.exec_bind, exec_insertUser,
    Action.exec_pure]
  split_ifs
  · simp only [exec_tracking_sessions_create]
    exact h.insert rfl
  · exact h
  · exact h

theorem seen_facebook (h : Seen w.db.users seen) (auth : Auth) (tracked : Bool)
    (digest : String) (pick : Id) :
    Seen (Action.exec (SessionsController.facebook auth tracked digest pick now) w).2.db.users
      seen := by
  simp only [SessionsController.facebook, SessionsController.find_or_create_by_uid,
    Action.exec_bind, exec_database]
  rcases Option.eq_none_or_eq_some (User.find_by_uid w.db.users auth.uid pick) with hu | ⟨u, hu⟩
  · simp only [hu, Action.exec_ite, Action.exec_bind, exec_insertUser, Action.exec_pure, exec_raise]
    split_ifs
    · exact h
    · simp only [exec_tracking_sessions_create]
      exact h.insert rfl
    · exact h
    · exact h
    · simp only [exec_tracking_sessions_create]
      exact h
  · simp only [hu, Action.exec_bind, Action.exec_ite, exec_write, Action.exec_pure]
    cases tracked with
    | true =>
      simp only [if_true, exec_tracking_sessions_create]
      exact h.track _ _
    | false =>
      simp only [Bool.false_eq_true, if_false, exec_tracking_sessions_create]
      exact h

/-- The filters mark the user of a request to the gallery. -/
theorem seen_enter {s : Watched} (h : Seen s.world.db.users s.seen) {r : Request}
    (htrackable : r.trackable s.world.db = true) :
    Seen (r.enter s.world.db).users (s.handle r).seen := by
  have htracked : Seen (r.tracked s.world.db).users s.seen := by rwa [r.tracked_users]
  unfold Request.enter Watched.handle Request.seen
  rcases Option.eq_none_or_eq_some (r.user s.world.db) with hu | ⟨u, hu⟩
  · simpa [hu] using htracked
  · rcases Bool.eq_false_or_eq_true r.route.pictures with hp | hp
    · simp only [hp, hu, htrackable, Bool.and_self, if_true, Option.map_some]
      refine htracked.stamp ?_
      rw [r.tracked_users]
      exact (s.world.db.users.bounds u (Request.mem_of_user hu)).2
    · simpa [hp, hu] using htracked

theorem seen_handle {s : Watched} (h : Seen s.world.db.users s.seen) (r : Request) :
    Seen (s.handle r).world.db.users (s.handle r).seen := by
  change Seen (Action.exec r.run s.world).2.db.users _
  rw [exec_run]
  by_cases htrackable : r.trackable s.world.db
  · rw [if_pos htrackable]
    have henter : Seen (r.enter s.world.db).users (s.handle r).seen := seen_enter h htrackable
    cases hroute : r.route with
    | registrations_create params captcha validatable digest =>
      exact seen_registration henter params captcha validatable digest
    | sessions_facebook auth tracked digest pick =>
      exact seen_facebook henter auth tracked digest pick
    | _ =>
      exact seen_outcome (run_outcome _ _ _ _) henter (fun _ _ _ _ h => by cases h)
        fun _ _ _ _ h => by cases h
  · rw [if_neg htrackable]
    have hseen : (s.handle r).seen = s.seen := by simp [Watched.handle, Request.seen, htrackable]
    rwa [hseen]

end Requests

theorem seen_of_reachable {s : Watched} (h : watchedServer.Reachable s) :
    Seen s.world.db.users s.seen := by
  refine System.Reachable.invariant (P := fun s => Seen s.world.db.users s.seen) h ?_ ?_
  · intro s hs
    refine ⟨fun r hr => ?_, fun i hi => ?_⟩
    · rw [hs r.id, Table.find?_eq_some_iff.mpr ⟨hr, rfl⟩, Option.bind_some]
    · have hnone : s.world.db.users.find? i = none :=
        Option.eq_none_iff_forall_ne_some.mpr fun r hr =>
          absurd (Table.has_of_find?_eq_some hr).bounds.2 (not_lt.mpr hi)
      rw [hs i, hnone, Option.bind_none]
  · intro s r t hs hstep
    rw [← Option.some.inj hstep]
    exact seen_handle hs r

/-- In every run: a page lists to a signed-in user, each at most once, exactly the others
who still have an account and whose last request to the gallery is less than five minutes
old, with the e-mail of their account. -/
theorem online_users_iff (site : Site) (s : Watched) (h : watchedServer.Reachable s) (v : Visit)
    (u : Row User) (hu : current_user s.world.db v.session = some u) :
    ((online_users site s.world.db v).map Prod.fst).Nodup ∧
      ∀ i email, (i, email) ∈ online_users site s.world.db v ↔
        i ≠ u.id ∧ (∃ r, s.world.db.users.find? i = some r ∧ r.val.email = email) ∧
          ∃ t, s.seen i = some t ∧ v.now < t + 300 := by
  have hseen := seen_of_reachable h
  let recent := (s.world.db.users.rows.filter (v.online u)).map fun r => (r.id, r.val.email)
  have hperm : (site.arrange_users recent).Perm recent := (site.users_answer recent).1
  have hlist : online_users site s.world.db v = site.arrange_users recent := by
    rw [online_users, hu]
  rw [hlist]
  refine ⟨?_, fun i email => ?_⟩
  · refine (hperm.map Prod.fst).nodup_iff.mpr ?_
    rw [List.map_map]
    exact (List.filter_sublist.map Row.id).nodup s.world.db.users.distinct
  · constructor
    · intro hmem
      obtain ⟨r, hr, heq⟩ := List.mem_map.mp (hperm.mem_iff.mp hmem)
      obtain ⟨rfl, rfl⟩ := Prod.mk.inj heq
      obtain ⟨hr, hrecent⟩ := List.mem_filter.mp hr
      rw [Visit.online, hseen.column r hr] at hrecent
      simp only [Bool.and_eq_true, decide_eq_true_eq, Option.any_eq_true] at hrecent
      obtain ⟨hne, t, ht, hlate⟩ := hrecent
      exact ⟨hne, ⟨r, Table.find?_eq_some_iff.mpr ⟨hr, rfl⟩, rfl⟩, t, ht, hlate⟩
    · rintro ⟨hne, ⟨r, hfind, rfl⟩, t, ht, hlate⟩
      obtain ⟨hr, rfl⟩ := Table.find?_eq_some_iff.mp hfind
      refine hperm.mem_iff.mpr (List.mem_map.mpr ⟨r, List.mem_filter.mpr ⟨hr, ?_⟩, rfl⟩)
      rw [Visit.online, hseen.column r hr, ht]
      simp [hne, hlate]

/-- The first user has opened the gallery at 100, and the second one opens it at 399. -/
theorem online_users_two :
    let visit := { Visit.sample with session := some 2, now := 399 }
    ∃ s : Watched, (1, "ada@example.com") ∈ online_users .sample s.world.db visit ∧
      s.seen 1 = some 100 := by
  intro visit
  let start : Watched :=
    ⟨.ofDatabase .sample, fun i => (Database.sample.users.find? i).bind (·.val.last_request_at)⟩
  let s := start.handle ⟨some 1, "/pictures", 100, .pictures_view⟩
  have hreach : watchedServer.Reachable s := .step (.init fun _ => rfl) rfl
  have hlisted := (online_users_iff .sample s hreach visit ⟨2, .named "bob@example.com"⟩
    (by decide)).2 1 "ada@example.com"
  have hemail : (s.world.db.users.find? 1).map (·.val.email) = some "ada@example.com" := by decide
  exact ⟨s, hlisted.mpr ⟨by decide, Option.map_eq_some_iff.mp hemail, 100, by decide, by decide⟩,
    by decide⟩

end Gallery
