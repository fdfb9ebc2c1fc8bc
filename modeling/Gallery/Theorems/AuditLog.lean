import Gallery.Controllers.Server

/-!
# The audit log

What the log owes: for each request an entry per saved comment, per tracked
request of a signed-in user, per sign-in and per sign-out, to be found under the
link the admin pages give for its kind. `Audited` runs the server next to the
list of entries due and the list of requests the log has made fail.

Tracking and comments are logged. The session subscribers look their event type
up under a key the payload does not have, so no sign-in is ever logged; the
payload of a sign-out is built when nobody is signed in any more, and raises; and
a URL that does not fit its column makes the tracking filter raise.

## Main definitions

* `Entry`, `Request.due` — the entries a request owes to the log
* `Audited`, `Complete` — the server with its dues, and the log that settles them
* `Logged` — the requests that are logged as they should be

## Main results

* `audits_outcome` — what an action adds to the log
* `complete_step_iff` — a request leaves the log complete exactly if it is `Logged`
* `audit_log_complete` — runs of such requests
-/

namespace Gallery

open Store Rails App Semantics

/-! ### What the log owes -/

/-- The kinds of event the admin's user list links to, as the links spell them. -/
def Admin.links : List String := ["Url", "Comment", "sign_in", "sign_out"]

/-- The events the admin page shows for a user and a link. -/
def Admin.events_page (db : Database) (user_id : Id) (url : String) : List (Row Event) :=
  db.events.rows.filter fun e => e.val.user_id = user_id && e.val.eventable_type = url

/-- An entry due: its kind, the acting user, and the row it has to point at. -/
structure Entry where
  link : String
  user_id : Option Id
  target : Option Id
deriving DecidableEq, Repr

/-- The event is the entry. -/
def Entry.Matches (entry : Entry) (e : Row Event) : Prop :=
  e.val.eventable_type = entry.link ∧ entry.user_id = some e.val.user_id ∧
    ∀ i, entry.target = some i → e.val.eventable_id = i

/-- The rows of the log that one of the links leads to. -/
def Database.audits (db : Database) : List (Row Event) :=
  db.events.rows.filter fun e => e.val.eventable_type ∈ Admin.links

/-- An entry for each comment stored between two states. -/
def commentsDue (user : Option (Row User)) (db db' : Database) : List Entry :=
  (db'.comments.rows.filter fun c => db.comments.next ≤ c.id).map fun c =>
    ⟨"Comment", user.map (·.id), some c.id⟩

/-- The user an action signs in. -/
def Route.signed_in_user (route : Route) (now : Time) (db : Database) : Option Id :=
  match route with
  | .registrations_create params captcha validatable digest =>
    let resource := Account.new.assign (fun _ => digest) params
    if captcha && resource.valid? validatable && User.storable db.users (resource.toUser now) then
      some db.users.next
    else none
  | .sessions_create authenticated => (current_user db authenticated).map (·.id)
  | .sessions_facebook auth tracked digest pick =>
    let account := auth.fill fun _ => digest
    match User.find_by_uid db.users auth.uid pick with
    | some u => some u.id
    | none =>
      if auth.expires_at.isSome && (account.valid? true || tracked) && account.email.isSome &&
          User.storable db.users (account.toUser now) then some db.users.next
      else none
  | _ => none

/-- An entry for the tracked request of a signed-in user, at the row of its URL. -/
def Request.urlDue (r : Request) (user : Option (Row User)) (db' : Database) : List Entry :=
  match r.route.tracked, user with
  | true, some u => [⟨"Url", some u.id, some (((db'.url? r.url).map (·.id)).getD 0)⟩]
  | _, _ => []

/-- An entry for signing somebody in, and one for signing the user out. -/
def Request.sessionDue (r : Request) (user : Option (Row User)) (db : Database) : List Entry :=
  (r.route.signed_in_user r.now db).toList.map (fun i => ⟨"sign_in", some i, none⟩) ++
    if r.route = .sessions_destroy then
      user.toList.map fun u => ⟨"sign_out", some u.id, none⟩
    else []

/-- The entries a request owes to the log, given the states before and after it. -/
def Request.due (r : Request) (db db' : Database) : List Entry :=
  r.urlDue (r.user db) db' ++ commentsDue (r.user db) db db' ++ r.sessionDue (r.user db) db

/-- The server, with what the log owes so far and the requests the log has made fail. -/
structure Audited where
  world : World
  due : List Entry
  harmed : List Request

/-- A request failed while the log was written. -/
def harms (res : Except Raised Response) : Bool :=
  match res with
  | .ok _ => false
  | .error e => e.logging

/-- Handles a request, and notes what it owes to the log. -/
def Audited.step (s : Audited) (r : Request) : Audited :=
  let run := Action.exec r.run s.world
  { world := run.2
    due := s.due ++ r.due s.world.db run.2.db
    harmed := s.harmed ++ if harms run.1 then [r] else [] }

/-- The log has a row for each entry due, in their order, and no others of these
kinds, and it has harmed no request. -/
structure Complete (s : Audited) : Prop where
  settled : List.Forall₂ Entry.Matches s.due s.world.db.audits
  unharmed : s.harmed = []

/-- Requests handled one at a time, from a state in which the log is complete. -/
def auditedServer : System Audited Request where
  init := Complete
  step s r := some (s.step r)

/-- The requests that are logged as they should be: the tracking filter can store
the URL, nobody is signed in, and the request is not a sign-out. -/
def Logged (w : World) (r : Request) : Prop :=
  (r.route.tracked → (r.user w.db).isSome → (w.db.url? r.url).isSome ∨ fitsString r.url) ∧
    r.route.signed_in_user r.now w.db = none ∧ r.route ≠ .sessions_destroy

/-! ### What an action adds to the log -/

section Actions

variable {db db' : Database} {now : Time}

theorem audits_insert {i u : Id} {type : String} (t : Table Event)
    (htype : type ∈ Admin.links) :
    ((t.insert ⟨i, type, u, now⟩).rows.filter fun e => e.val.eventable_type ∈ Admin.links) =
      (t.rows.filter fun e => e.val.eventable_type ∈ Admin.links) ++
        [⟨t.next, i, type, u, now⟩] := by
  simp [List.filter_append, htype]

/-- Removing events of other types leaves the log alone. -/
theorem audits_delete {q : Row Event → Bool} (t : Table Event)
    (hq : ∀ e, q e = true → e.val.eventable_type ∉ Admin.links) :
    ((t.delete q).rows.filter fun e => e.val.eventable_type ∈ Admin.links) =
      t.rows.filter fun e => e.val.eventable_type ∈ Admin.links := by
  rw [Table.rows_delete, List.filter_filter]
  refine List.filter_congr fun e _ => ?_
  by_cases he : q e
  · simp [hq e he]
  · simp [he]

theorem audits_destroyLikes (p : Row Like → Bool) : (db.destroyLikes p).audits = db.audits := by
  refine audits_delete _ fun e he => ?_
  have htype : e.val.eventable_type = "Like" := by simp_all
  rw [htype]
  decide

theorem audits_destroyUser (i : Id) : (db.destroyUser i now).audits = db.audits := by
  have hevents : (db.destroyUser i now).audits =
      ((db.destroyComments (fun c => c.val.user_id = i) now).destroyLikes
        fun l => l.val.user_id = i).audits := by
    refine audits_delete _ fun e he => ?_
    have htype : e.val.eventable_type = "User" := by simp_all
    rw [htype]
    decide
  rw [hevents, audits_destroyLikes]
  rfl

/-- Without new comments nothing is due for them. -/
theorem commentsDue_eq_nil {user : Option (Row User)}
    (h : ∀ c ∈ db'.comments.rows, c ∈ db.comments.rows) : commentsDue user db db' = [] := by
  have hnone : (db'.comments.rows.filter fun c => db.comments.next ≤ c.id) = [] := by
    rw [List.filter_eq_nil_iff]
    intro c hc
    have := (db.comments.bounds c (h c hc)).2
    simpa using this
  simp [commentsDue, hnone]

theorem commentsDue_addComment {user : Option (Row User)} {u p : Id} {b : String} :
    commentsDue user db (db.addComment u p b now) =
      [⟨"Comment", user.map (·.id), some db.comments.next⟩] := by
  have hold : (db.comments.rows.filter fun c => db.comments.next ≤ c.id) = [] := by
    rw [List.filter_eq_nil_iff]
    intro c hc
    simpa using (db.comments.bounds c hc).2
  simp [commentsDue, Database.addComment, List.filter_append, hold]

/-- An action adds the entries of the comments it stores, and stores no URL. -/
theorem audits_outcome {w w' : World} {route : Route} {user : Option (Row User)}
    {res : Except Raised Response} (ho : Outcome now w route user res w') :
    w'.db.urls = w.db.urls ∧
      ∃ new, w'.db.audits = w.db.audits ++ new ∧
        List.Forall₂ Entry.Matches (commentsDue user w.db w'.db) new := by
  -- What happens to a state whose log and comments gain nothing.
  have hsame : ∀ db' : Database, db'.audits = w.db.audits →
      (∀ c ∈ db'.comments.rows, c ∈ w.db.comments.rows) → ∃ new, db'.audits = w.db.audits ++ new ∧
        List.Forall₂ Entry.Matches (commentsDue user w.db db') new := by
    intro db' haudits hcomments
    exact ⟨[], by simpa using haudits, by simp [commentsDue_eq_nil hcomments]⟩
  cases ho with
  | quiet _ _ hdb =>
    rw [hdb]
    exact ⟨rfl, hsame _ rfl fun _ h => h⟩
  | messaged _ _ _ hdb =>
    rw [hdb]
    exact ⟨rfl, hsame _ rfl fun _ h => h⟩
  | picture_created _ _ _ hdb =>
    rw [hdb]
    exact ⟨rfl, hsame _ rfl fun _ h => h⟩
  | like_created =>
    refine ⟨rfl, hsame _ ?_ fun _ h => h⟩
    simp [Database.audits, Database.addLike, List.filter_append, Admin.links]
  | like_destroyed => exact ⟨rfl, hsame _ (audits_destroyLikes _) fun _ h => h⟩
  -- the one outcome that a tracked comment is due for
  | @commented u _ _ p _ _ hp hbody hdb =>
    rw [hdb]
    refine ⟨rfl, [_], audits_insert _ (by decide), ?_⟩
    rw [commentsDue_addComment]
    exact .cons ⟨rfl, rfl, by simp⟩ .nil
  | cancelled =>
    exact ⟨rfl, hsame _ (audits_destroyUser _) fun c hc => List.mem_of_mem_filter hc⟩
  | user_destroyed =>
    exact ⟨rfl, hsame _ (audits_destroyUser _) fun c hc => List.mem_of_mem_filter hc⟩
  | picture_destroyed =>
    exact ⟨rfl, hsame _ (audits_destroyLikes _) fun c hc => List.mem_of_mem_filter hc⟩
  | subscribed | unsubscribed | signed_up | not_signed_up | signed_in | not_signed_in
  | signed_out | facebook_known | facebook_tracked | facebook_stored | category_destroyed
  | category_created =>
    exact ⟨rfl, hsame _ rfl fun _ h => h⟩

/-- Of the actions only a sign-out fails in the log. -/
theorem unlogged_outcome {w w' : World} {route : Route} {user : Option (Row User)}
    {res : Except Raised Response} (ho : Outcome now w route user res w')
    (hroute : route ≠ .sessions_destroy) : Unlogged res := by
  cases ho with
  | signed_out => exact absurd rfl hroute
  | quiet _ hres => exact hres
  | picture_created _ hres => exact hres
  | not_signed_up hres => exact hres
  | facebook_known hres => exact hres
  | not_signed_in => simp
  | like_created | like_destroyed | subscribed | unsubscribed | commented | messaged | signed_up
  | signed_in | facebook_tracked | facebook_stored | cancelled | user_destroyed
  | picture_destroyed | category_destroyed | category_created => exact unlogged_ok _

theorem harms_sign_out {w w' : World} {user : Option (Row User)} {res : Except Raised Response}
    (ho : Outcome now w .sessions_destroy user res w') : harms res = true := by
  cases ho with
  | signed_out => rfl
  | quiet hroute => exact absurd hroute (by decide)
  | picture_created hroute => exact absurd hroute (by decide)

theorem harms_of_unlogged {res : Except Raised Response} (h : Unlogged res) :
    harms res = false := by
  rcases res with e | a
  · exact h e rfl
  · rfl

end Actions

/-! ### A whole request -/

section Requests

variable {r : Request} {db : Database}

theorem trackable_iff : r.trackable db = true ↔
    (r.route.tracked → (r.user db).isSome → (db.url? r.url).isSome ∨ fitsString r.url) := by
  unfold Request.trackable
  rcases Option.eq_none_or_eq_some (r.user db) with hu | ⟨u, hu⟩ <;>
    rcases Bool.eq_false_or_eq_true r.route.tracked with ht | ht <;>
    simp [hu, ht, Database.canTrack]

/-- A tracked request adds one event, at the row its URL has afterwards. -/
theorem audits_track (db : Database) (url : String) (u : Id) (now : Time) :
    ∃ e, (db.track url u now).audits = db.audits ++ [e] ∧
      Entry.Matches ⟨"Url", some u, some ((((db.track url u now).url? url).map (·.id)).getD 0)⟩
        e := by
  -- a URL is stored the first time it is requested
  rcases Option.eq_none_or_eq_some (db.url? url) with hurl | ⟨row, hurl⟩
  · have htrack : db.track url u now = { db with
        urls := db.urls.insert ⟨url⟩
        events := db.events.insert ⟨db.urls.next, "Url", u, now⟩ } := by
      simp [Database.track, hurl]
    have hfind : (db.track url u now).url? url = some ⟨db.urls.next, ⟨url⟩⟩ := by
      have hnone : db.urls.rows.find? (fun r => r.val.url = url) = none := hurl
      rw [htrack]
      simp [Database.url?, List.find?_append, hnone]
    rw [hfind, htrack]
    exact ⟨_, audits_insert _ (by decide), rfl, rfl, by simp⟩
  · have htrack : db.track url u now =
        { db with events := db.events.insert ⟨row.id, "Url", u, now⟩ } := by
      simp [Database.track, hurl]
    have hfind : (db.track url u now).url? url = some row := by
      rw [htrack]
      exact hurl
    rw [hfind, htrack]
    exact ⟨_, audits_insert _ (by decide), rfl, rfl, by simp⟩

/-- What the filters add to the log. -/
theorem audits_enter (r : Request) (db : Database) :
    (r.enter db).comments = db.comments ∧
      ∃ new, (r.enter db).audits = db.audits ++ new ∧
        List.Forall₂ Entry.Matches (r.urlDue (r.user db) (r.enter db)) new := by
  have htracked : ∃ new, (r.tracked db).audits = db.audits ++ new ∧
      List.Forall₂ Entry.Matches (r.urlDue (r.user db) (r.tracked db)) new := by
    unfold Request.tracked Request.urlDue
    rcases Option.eq_none_or_eq_some (r.user db) with hu | ⟨u, hu⟩
    · exact ⟨[], by simp [hu], by simp [hu]⟩
    rcases Bool.eq_false_or_eq_true r.route.tracked with ht | ht
    · obtain ⟨e, haudits, hmatches⟩ := audits_track db r.url u.id r.now
      exact ⟨[e], by simpa [hu, ht] using haudits, by simpa [hu, ht] using hmatches⟩
    · exact ⟨[], by simp [hu, ht], by simp [hu, ht]⟩
  refine ⟨Request.enter_rule (P := fun db' => db'.comments = db.comments) rfl
    (fun _ _ _ _ => rfl) (fun _ _ => rfl) fun _ _ h => h, ?_⟩
  unfold Request.enter
  split
  · exact htracked
  · exact htracked

/-- What a request that passes the tracking filter adds to the log. -/
theorem audits_run {w : World} (htrackable : r.trackable w.db = true) :
    ∃ new, (Action.exec r.run w).2.db.audits = w.db.audits ++ new ∧
      List.Forall₂ Entry.Matches (r.urlDue (r.user w.db) (Action.exec r.run w).2.db ++
        commentsDue (r.user w.db) w.db (Action.exec r.run w).2.db) new := by
  rcases run_cases r w with ⟨hfails, -⟩ | ⟨-, ho⟩
  · exact absurd (hfails.symm.trans htrackable) (by decide)
  obtain ⟨hcomments, newUrl, hnewUrl, hmatchUrl⟩ := audits_enter r w.db
  obtain ⟨hurls, new, hnew, hmatch⟩ := audits_outcome ho
  have hurl : r.urlDue (r.user w.db) (Action.exec r.run w).2.db =
      r.urlDue (r.user w.db) (r.enter w.db) := by
    simp only [Request.urlDue, Database.url?, hurls]
  have hcomment : commentsDue (r.user w.db) w.db (Action.exec r.run w).2.db =
      commentsDue (r.user w.db) (r.enter w.db) (Action.exec r.run w).2.db := by
    simp only [commentsDue, hcomments]
  refine ⟨newUrl ++ new, by rw [hnew, hnewUrl, List.append_assoc], ?_⟩
  rw [hurl, hcomment]
  exact List.rel_append hmatchUrl hmatch

/-- The due entries of a session have no events, so only requests without any are settled. -/
theorem sessionDue_eq_nil (hsigned : r.route.signed_in_user r.now db = none)
    (hroute : r.route ≠ .sessions_destroy) : r.sessionDue (r.user db) db = [] := by
  simp [Request.sessionDue, hsigned, hroute]

/-- A request leaves a complete log complete exactly if it is `Logged`. -/
theorem complete_step_iff {s : Audited} (h : Complete s) :
    Complete (s.step r) ↔ Logged s.world r := by
  rcases run_cases r s.world with ⟨hfails, hrun⟩ | ⟨htrackable, ho⟩
  · constructor
    · intro hc
      have := hc.unharmed
      simp [Audited.step, hrun, harms] at this
    · intro hl
      exact absurd (trackable_iff.mpr hl.1) (by simp [hfails])
  -- past the filter, the request logs what it owes but for a sign-in or sign-out
  obtain ⟨new, hnew, hmatch⟩ := audits_run htrackable
  constructor
  · intro hc
    -- entries and debts matched before, so a debt more would leave one open
    have hlength : (r.sessionDue (r.user s.world.db) s.world.db).length = 0 := by
      have hall := hc.settled.length_eq
      have hold := h.settled.length_eq
      have hgain := hmatch.length_eq
      simp only [Audited.step, hnew, Request.due, List.length_append] at hall hgain
      omega
    have hroute : r.route ≠ .sessions_destroy := by
      intro hroute
      rw [hroute] at ho
      have := hc.unharmed
      simp [Audited.step, harms_sign_out ho] at this
    refine ⟨trackable_iff.mp htrackable, ?_, hroute⟩
    simpa [Request.sessionDue, hroute] using hlength
  · rintro ⟨-, hsigned, hroute⟩
    constructor
    · simp only [Audited.step, Request.due, sessionDue_eq_nil hsigned hroute, List.append_nil, hnew]
      exact List.rel_append h.settled hmatch
    · simp [Audited.step, h.unharmed, harms_of_unlogged (unlogged_outcome ho hroute)]

end Requests

/-- The user an action signs in exists afterwards, and the action has succeeded. -/
theorem exec_signed_in {route : Route} {user : Option (Row User)} {now : Time} {w : World} {i : Id}
    (h : route.signed_in_user now w.db = some i) :
    (Action.exec (route.run user now) w).1 = .ok .redirect ∧
      (Action.exec (route.run user now) w).2.db.users.Has i := by
  unfold Route.signed_in_user at h
  split at h
  -- sign-up, sign-in and the callback, each with the record it ends up with
  · obtain ⟨hstored, hi⟩ := Option.ite_none_right_eq_some.mp h
    obtain rfl := Option.some.inj hi
    simp only [Bool.and_eq_true] at hstored
    simp [Route.run, RegistrationsController.create, exec_insertUser, hstored,
      exec_tracking_sessions_create]
  · obtain ⟨u, hu, rfl⟩ := Option.map_eq_some_iff.mp h
    obtain ⟨j, -, hj⟩ := Option.bind_eq_some_iff.mp hu
    simp only [Route.run, SessionsController.create, Action.exec_bind, exec_database, hu,
      exec_write, exec_tracking_sessions_create, Action.exec_pure]
    exact ⟨trivial, has_update_tracked_fields.mpr (.intro (Table.find?_eq_some_iff.mp hj).1)⟩
  · rename_i auth tracked digest pick
    rcases Option.eq_none_or_eq_some (User.find_by_uid w.db.users auth.uid pick) with hu | ⟨u, hu⟩
    · simp only [hu] at h
      obtain ⟨hstored, hi⟩ := Option.ite_none_right_eq_some.mp h
      obtain rfl := Option.some.inj hi
      simp only [Bool.and_eq_true] at hstored
      obtain ⟨⟨⟨hexpires, hsave⟩, hemail⟩, hstorable⟩ := hstored
      have hnone : auth.expires_at.isNone = false := by
        rwa [Option.isNone_eq_false_iff]
      simp [Route.run, SessionsController.facebook, SessionsController.find_or_create_by_uid, hu,
        exec_insertUser, hnone, hsave, hemail, hstorable,
        exec_tracking_sessions_create]
    · simp only [hu, Option.some.injEq] at h
      subst h
      simp only [Route.run, SessionsController.facebook, SessionsController.find_or_create_by_uid,
        Action.exec_bind, exec_database, hu, Action.exec_ite, exec_write, Action.exec_pure]
      have hmem := Table.Has.intro (mem_of_find_by_uid hu).1
      cases tracked with
      | true =>
        simp only [if_true, exec_tracking_sessions_create]
        exact ⟨trivial, has_update_tracked_fields.mpr hmem⟩
      | false =>
        simp only [Bool.false_eq_true, if_false, exec_tracking_sessions_create]
        exact ⟨trivial, hmem⟩
  · simp at h

/-- On the page of a user and a link stand the entries due for them. -/
theorem Complete.events_page {s : Audited} (h : Complete s) (u : Id) {link : String}
    (hlink : link ∈ Admin.links) :
    List.Forall₂ Entry.Matches (s.due.filter fun e => e.user_id = some u && e.link = link)
      (Admin.events_page s.world.db u link) := by
  have hpage : Admin.events_page s.world.db u link =
      s.world.db.audits.filter fun e => e.val.user_id = u && e.val.eventable_type = link := by
    rw [Admin.events_page, Database.audits, List.filter_filter]
    refine List.filter_congr fun e _ => ?_
    by_cases htype : e.val.eventable_type = link <;> simp [htype, hlink]
  rw [hpage]
  refine List.rel_filter ?_ h.settled
  rintro entry e ⟨htype, huser, -⟩
  simp [htype, huser]

/-- In every state of a run whose requests are all `Logged` the log is complete,
each entry due stands on the admin page of its user and kind, and a next request
keeps the log complete exactly if it is `Logged` as well. -/
theorem audit_log_complete (s : Audited)
    (h : auditedServer.ReachableWithin (fun s r => Logged s.world r) s) :
    Complete s ∧
      (∀ u, ∀ link ∈ Admin.links,
        List.Forall₂ Entry.Matches (s.due.filter fun e => e.user_id = some u && e.link = link)
          (Admin.events_page s.world.db u link)) ∧
      ∀ r, Complete (s.step r) ↔ Logged s.world r := by
  have hcomplete : Complete s := by
    refine System.ReachableWithin.invariant (P := Complete) h (fun _ h => h) ?_
    intro s r t hc hl hstep
    obtain rfl : s.step r = t := by simpa [auditedServer] using hstep
    exact (complete_step_iff hc).mpr hl
  exact ⟨hcomplete, fun u _ hlink => hcomplete.events_page u hlink,
    fun _ => complete_step_iff hcomplete⟩

/-- The sample gallery, with nothing due yet. -/
def Audited.sample : Audited := ⟨.ofDatabase .sample, [], []⟩

theorem complete_sample : Complete .sample := ⟨.nil, rfl⟩

theorem audit_log_complete_comment :
    let s := Audited.sample.step (.by 1 (.comments_create "1" (some "nice")))
    s.due = [⟨"Url", some 1, some 1⟩, ⟨"Comment", some 1, some 1⟩] ∧ Complete s ∧
      (∀ u, ∀ link ∈ Admin.links,
        List.Forall₂ Entry.Matches (s.due.filter fun e => e.user_id = some u && e.link = link)
          (Admin.events_page s.world.db u link)) ∧
      ∀ r, Complete (s.step r) ↔ Logged s.world r :=
  ⟨by decide, audit_log_complete _ (.step (.init complete_sample)
    ⟨fun _ _ => .inr (by decide), rfl, by decide⟩ rfl)⟩

/-- Somebody signs in with the session form, and the log has no row for it. -/
theorem sign_in_not_logged : ∃ s, auditedServer.Reachable s ∧ ¬ Complete s := by
  refine ⟨Audited.sample.step ⟨none, "http://gallery/", 0, .sessions_create (some 1)⟩,
    System.Reachable.step (.init complete_sample) rfl, fun h => ?_⟩
  exact absurd h.settled.length_eq (by decide)

end Gallery
