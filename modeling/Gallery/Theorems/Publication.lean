import Gallery.Controllers.Server
import Gallery.Semantics.Frame
import Gallery.Store.Journal
import Gallery.Store.Toggle

/-!
# Everything stored is published once

Comments are pushed on the channel every page listens to, chat messages on the channel of
all chats. Over whole runs the pushes are a journal of the two tables: a push for every
comment ever stored, with the row as it was stored and in the order in which the rows were,
whatever has become of the row since; and a push for every message, in order. Nothing else
is pushed.

## Main definitions

* `Push.comment?`, `Push.message?` — what a push publishes
* `Published` — the pushes since a world are the journal of its tables

## Main results

* `pushes_run` — what one request publishes
* `published_of_reachable` — what a run publishes
-/

namespace Gallery

open Store Rails App Semantics

/-! ### Actions that publish nothing -/

section Leaves

open Action

variable {α β : Type} {τ : Type} {now : Time} {u : Row User}

theorem leaves_write (f : Database → Database) : Leaves World.pushes (write f) :=
  .modify fun _ => rfl

theorem leaves_database {f : Database → App α} (h : ∀ db, Leaves World.pushes (f db)) :
    Leaves World.pushes (do f (← database)) := .bind (.bind .get fun _ => .pure _) h

theorem leaves_raise (e : Failure) : Leaves World.pushes (raise e : App α) := .throw _

theorem leaves_logging {m : App α} (h : Leaves World.pushes m) :
    Leaves World.pushes (logging m) := h.tryCatch

theorem leaves_save (eventable : Option Eventable) (user_id : Option Id) (now : Time) :
    Leaves World.pushes (Event.save eventable user_id now) := fun w => by
  rw [exec_save]

theorem leaves_create (eventable_id : Option Id) (eventable_type : Option String)
    (user_id : Option Id) (now : Time) :
    Leaves World.pushes (Event.create eventable_id eventable_type user_id now) := by
  refine leaves_database fun db => ?_
  cases db.eventable eventable_type eventable_id with
  | ok eventable => exact leaves_save eventable user_id now
  | error e => exact leaves_raise e

theorem leaves_find_or_create (url : String) :
    Leaves World.pushes (Url.find_or_create_by_url url) := by
  refine leaves_database fun db => ?_
  cases db.url? url with
  | some r => exact .pure _
  | none => exact .ite (.bind (leaves_write _) fun _ => .pure _) (leaves_raise _)

theorem leaves_tracking {data : App Payload} (h : Leaves World.pushes data) (signed_in : Bool)
    (type : Notification) : Leaves World.pushes (tracking signed_in type data now) := by
  refine leaves_logging (.bind h fun payload => .ite ?_ (.pure _))
  cases type with
  | track_url => exact .bind (leaves_find_or_create _) fun _ => leaves_save _ _ now
  | pictures_like | comments_create => exact leaves_save _ _ now
  | sessions_destroy | sessions_create => exact leaves_create _ _ _ now

theorem leaves_unset_like (pic_id : Option String) :
    Leaves World.pushes (PicturesController.unset_like u pic_id) := by
  unfold PicturesController.unset_like
  rcases pic_id.map parseInteger with _ | _ | p
  · exact .pure _
  · exact leaves_raise _
  · exact .bind (leaves_write _) fun _ => .pure _

theorem leaves_set_like (pic_id : Option String) :
    Leaves World.pushes (PicturesController.set_like u pic_id now) := by
  refine .bind (leaves_database fun db => ?_) fun like =>
    .bind (leaves_tracking (.pure _) _ _) fun _ => .pure _
  cases assignInteger pic_id with
  | none => exact .pure _
  | some p => exact .ite (.pure _) (.ite (.bind (leaves_write _) fun _ => .pure _) (leaves_raise _))

theorem leaves_like (pic_id check : Option String) :
    Leaves World.pushes (PicturesController.like u pic_id check now) := by
  have hanswer : ∀ json : ℚ, Leaves World.pushes (do
      let db ← database
      return Response.like json
        (db.likes.rows.countP fun l => whereInteger pic_id = some l.val.picture_id)) :=
    fun json => leaves_database fun db => .pure _
  exact leaves_database fun db => .ite (.bind (.pure _) hanswer)
    (.ite (.bind (leaves_unset_like pic_id) hanswer) (.bind (leaves_set_like pic_id) hanswer))

theorem leaves_subscribe (cat_id : Option String) :
    Leaves World.pushes (CategoriesController.subscribe u cat_id) := by
  refine leaves_database fun db => .ite (.bind (leaves_write _) fun _ => .pure _) ?_
  refine .bind (leaves_database fun db => ?_) fun _ => .pure _
  cases assignInteger cat_id with
  | none => exact .pure _
  | some c =>
    exact .ite (.pure _) (.ite (.bind (leaves_write _) fun _ => .pure _) (leaves_raise _))

theorem leaves_insertUser (u : User) : Leaves World.pushes (insertUser u) :=
  leaves_database fun _ => .ite (.bind (leaves_write _) fun _ => .pure _) (leaves_raise _)

theorem leaves_registration (params : AccountParams) (captcha validatable : Bool)
    (digest : String) :
    Leaves World.pushes (RegistrationsController.create params captcha validatable digest now) :=
  .ite (.bind (leaves_insertUser _) fun _ =>
    .bind (leaves_tracking (.pure _) _ _) fun _ => .pure _) (.pure _)

theorem leaves_sign_in (authenticated : Option Id) :
    Leaves World.pushes (SessionsController.create authenticated now) := by
  refine leaves_database fun db => ?_
  cases current_user db authenticated with
  | none => exact leaves_raise _
  | some u =>
    exact .bind (leaves_write _) fun _ => .bind (leaves_tracking (.pure _) _ _) fun _ => .pure _

theorem leaves_facebook (auth : Auth) (tracked : Bool) (digest : String) (pick : Id) :
    Leaves World.pushes (SessionsController.facebook auth tracked digest pick now) := by
  refine .bind (leaves_database fun db => ?_) fun _ =>
    .bind (leaves_tracking (.pure _) _ _) fun _ => .pure _
  cases User.find_by_uid db.users auth.uid pick with
  | some u => exact .ite (.bind (leaves_write _) fun _ => .pure _) (.pure _)
  | none =>
    exact .ite (leaves_raise _) (.ite (.ite (.bind (leaves_insertUser _) fun _ => .pure _)
      (leaves_raise _)) (.pure _))

theorem leaves_picture_create (title filename : Option String) (ids : List Id) :
    Leaves World.pushes (Picture.create title filename ids now) := fun w => by
  rw [exec_picture_create]
  rcases title with _ | t <;> rcases filename with _ | f <;> try rfl
  dsimp only
  split_ifs <;> rfl

theorem leaves_mail_subscribers (ids : List Id) :
    Leaves World.pushes (Admin.mail_subscribers ids) := by
  refine leaves_database fun db => .bind (.ite (.pure _) (leaves_raise _)) fun categories =>
    .bind (.ite (.pure _) (leaves_raise _)) fun recipients => .ite (leaves_raise _) ?_
  exact .modify fun _ => rfl

theorem leaves_admin_picture (p : PictureParams) (show_ids : Option (List Id)) :
    Leaves World.pushes (Admin.create_picture p show_ids now) := by
  refine leaves_database fun db => .bind (.ite (.pure _) (leaves_raise _)) fun _ =>
    .bind (leaves_picture_create _ _ _) fun id => ?_
  cases id with
  | none => exact .pure _
  | some _ =>
    cases show_ids with
    | none => exact leaves_raise _
    | some ids => exact .bind (leaves_mail_subscribers ids) fun _ => .pure _

/-- Only two actions publish anything. -/
theorem leaves_route {route : Route} (user : Option (Row User))
    (hcomment : ∀ picture_id body, route ≠ .comments_create picture_id body)
    (hmessage : ∀ receiver_id text event_name,
      route ≠ .messages_create receiver_id text event_name) :
    Leaves World.pushes (route.run user now) := by
  have hauthenticate : ∀ action : Row User → App Response,
      (∀ u, Leaves World.pushes (action u)) →
        Leaves World.pushes (do action (← authenticate user)) := by
    intro action haction
    refine .bind ?_ haction
    cases user with
    | none => exact leaves_raise _
    | some u => exact .pure u
  have hdestroy : ∀ present destroy, Leaves World.pushes (Admin.destroy present destroy) :=
    fun _ _ => leaves_database fun _ => .ite (.bind (leaves_write _) fun _ => .pure _)
      (leaves_raise _)
  cases route with
  | pictures_view | devise_view => exact .pure _
  | categories_check_subscribe => exact hauthenticate _ fun _ => .pure _
  | pictures_like pic_id check => exact hauthenticate _ fun _ => leaves_like pic_id check
  | categories_subscribe cat_id => exact hauthenticate _ fun _ => leaves_subscribe cat_id
  | comments_create picture_id body => exact absurd rfl (hcomment _ _)
  | messages_create receiver_id text event_name => exact absurd rfl (hmessage _ _ _)
  | pusher_auth channel_name =>
    cases user with
    | none => exact .pure _
    | some u => exact .bind (.modify fun _ => rfl) fun _ => .pure _
  | registrations_create params captcha validatable digest =>
    exact leaves_registration params captcha validatable digest
  | registrations_destroy => exact hauthenticate _ fun _ => .bind (leaves_write _) fun _ => .pure _
  | sessions_create authenticated => exact leaves_sign_in authenticated
  | sessions_destroy => exact .bind (leaves_tracking (leaves_raise _) _ _) fun _ => .pure _
  | sessions_facebook auth tracked digest pick => exact leaves_facebook auth tracked digest pick
  | admin_users_destroy i => exact hdestroy _ _
  | admin_pictures_destroy i => exact hdestroy _ _
  | admin_categories_destroy i => exact hdestroy _ _
  | admin_pictures_create p show_ids => exact leaves_admin_picture p show_ids
  | admin_parser_create_picture file_addr filename categories =>
    refine leaves_database fun db => .bind (leaves_picture_create _ _ _) fun id => ?_
    cases id with
    | none => exact leaves_raise _
    | some _ => exact .pure _
  | admin_categories_create name =>
    refine .bind (leaves_database fun db => ?_) fun id => ?_
    · cases name with
      | none => exact .pure _
      | some n =>
        exact .ite (.pure _) (.ite (.bind (leaves_write _) fun _ => .pure _) (leaves_raise _))
    · cases id <;> exact .pure _

end Leaves

/-! ### What a push publishes -/

/-- The comment that a push on the channel of the pages publishes. -/
def Push.comment? (p : Push) : Option (Row Comment) :=
  match p.data with
  | .comment comment _ picture =>
    if p.channel = "test-channel" ∧ p.event = "test-event" ∧ picture = comment.val.picture_id then
      some comment
    else none
  | .message .. => none

/-- The message that a push on the channel of the chats publishes. -/
def Push.message? (p : Push) : Option Message :=
  match p.data with
  | .comment .. => none
  | .message text user receiver_id =>
    if p.channel = "private-channel" then
      (assignInteger receiver_id).map fun r => ⟨user.id, r, text⟩
    else none

/-- What one request publishes: nothing, a comment or a message, the one it has stored. -/
inductive Publishes (w w' : World) : Prop
  | nothing (hpushes : w'.pushes = w.pushes)
      (hcomments : w'.db.comments = w.db.comments ∨ ∃ q, w'.db.comments = w.db.comments.delete q)
      (hmessages : w'.db.messages = w.db.messages)
  | comment {p : Push} {c : Comment} (hp : p.comment? = some ⟨w.db.comments.next, c⟩)
      (hpushes : w'.pushes = w.pushes ++ [p]) (hcomments : w'.db.comments = w.db.comments.insert c)
      (hmessages : w'.db.messages = w.db.messages)
  | message {p : Push} {m : Message} (hp : p.message? = some m)
      (hpushes : w'.pushes = w.pushes ++ [p]) (hcomments : w'.db.comments = w.db.comments)
      (hmessages : w'.db.messages = w.db.messages.insert m)

section Requests

variable {w w' : World} {now : Time}

/-- An action that publishes nothing stores nothing that would have to be. -/
theorem publishes_outcome {route : Route} {user : Option (Row User)}
    {res : Except Raised Response} (ho : Outcome now w route user res w')
    (hpushes : w'.pushes = w.pushes)
    (hcomment : ∀ picture_id body, route ≠ .comments_create picture_id body)
    (hmessage : ∀ receiver_id text event_name,
      route ≠ .messages_create receiver_id text event_name) : Publishes w w' := by
  cases ho with
  | commented => exact absurd rfl (hcomment _ _)
  | messaged => exact absurd rfl (hmessage _ _ _)
  | cancelled | user_destroyed | picture_destroyed =>
    exact .nothing hpushes (.inr ⟨_, rfl⟩) rfl
  | quiet _ _ hdb => exact .nothing hpushes (.inl (by rw [hdb])) (by rw [hdb])
  | picture_created _ _ _ hdb =>
    exact .nothing hpushes (.inl (by rw [hdb]; rfl)) (by rw [hdb]; rfl)
  | _ => exact .nothing hpushes (.inl rfl) rfl

theorem publishes_comment (u : Row User) (picture_id : String) (body : Option String) :
    Publishes w (Action.exec (CommentsController.create u picture_id body now) w).2 := by
  simp only [CommentsController.create, Action.exec_bind, exec_database]
  cases hp : w.db.pictures.find? (to_i picture_id) with
  | none => exact .nothing rfl (.inl rfl) rfl
  | some p =>
    cases body with
    | none => exact .nothing rfl (.inl rfl) rfl
    | some b =>
      by_cases hbody : Comment.validBody (some b)
      · simp only [Comment.create, Action.exec_bind, exec_database, hbody, ite_true, exec_write,
          Action.exec_pure, CommentsController.announce, exec_tracking_comment, exec_trigger]
        refine .comment (c := ⟨u.id, p.id, b, now⟩) ?_ rfl rfl rfl
        simp [Push.comment?]
      · simp only [Comment.create, Action.exec_bind, exec_database, hbody, Bool.false_eq_true,
          ite_false, Action.exec_pure]
        exact .nothing rfl (.inl rfl) rfl

theorem publishes_message (user : Option (Row User)) (receiver_id text event_name : Option String) :
    Publishes w (Action.exec (MessagesController.create user receiver_id text event_name) w).2 := by
  have hnothing : Publishes w w := .nothing rfl (.inl rfl) rfl
  cases user with
  | none => exact hnothing
  | some u =>
    simp only [MessagesController.create, Message.create, Action.exec_bind]
    rcases hr : assignInteger receiver_id with _ | r
    · exact hnothing
    rcases text with _ | t
    · exact hnothing
    by_cases hvalid : Message.valid (some u.id) (some r) (some t)
    · simp only [hvalid, if_true]
      split_ifs with hfits
      · simp only [Action.exec_bind, exec_write, Action.exec_pure, exec_trigger, if_true]
        refine .message (m := ⟨u.id, r, t⟩) ?_ rfl rfl rfl
        simp [Push.message?, hr, User.toJson]
      · exact hnothing
    · simp only [hvalid, Bool.false_eq_true, if_false]
      exact hnothing

/-- What one request publishes is what it stores. -/
theorem publishes_run (r : Request) (w : World) : Publishes w (Action.exec r.run w).2 := by
  have hsame : (r.enter w.db).comments = w.db.comments ∧ (r.enter w.db).messages = w.db.messages :=
    Request.enter_rule
      (P := fun db => db.comments = w.db.comments ∧ db.messages = w.db.messages)
      ⟨rfl, rfl⟩ (fun _ _ _ _ => ⟨rfl, rfl⟩) (fun _ _ => ⟨rfl, rfl⟩) fun _ _ h => h
  -- the filters touch neither of the two tables
  have henter : ∀ w', Publishes { w with db := r.enter w.db } w' → Publishes w w' := by
    intro w' h
    obtain ⟨hcomments, hmessages⟩ := hsame
    cases h with
    | nothing hpushes hc hm =>
      dsimp only at hc hm
      exact .nothing hpushes (by rwa [hcomments] at hc) (hm.trans hmessages)
    | comment hp hpushes hc hm =>
      dsimp only at hp hc hm
      rw [hcomments] at hp hc
      exact .comment hp hpushes hc (hm.trans hmessages)
    | message hp hpushes hc hm =>
      dsimp only at hc hm
      rw [hmessages] at hm
      exact .message hp hpushes (hc.trans hcomments) hm
  rw [exec_run]
  split_ifs
  · refine henter _ ?_
    cases hroute : r.route with
    | comments_create picture_id body =>
      cases r.user w.db with
      | none => exact .nothing rfl (.inl rfl) rfl
      | some u => exact publishes_comment u picture_id body
    | messages_create receiver_id text event_name =>
      exact publishes_message _ receiver_id text event_name
    | _ =>
      exact publishes_outcome (run_outcome _ _ _ _)
        (leaves_route _ (fun _ _ h => by cases h) (fun _ _ _ h => by cases h) _)
        (fun _ _ h => by cases h) fun _ _ _ h => by cases h
  · exact .nothing rfl (.inl rfl) rfl

end Requests

/-! ### Runs -/

/-- The pushes since a world are the journal of the comments stored since, and tell the
messages stored since. -/
structure Published (start w : World) : Prop where
  comments : w.db.comments.Journal start.db.comments.next (w.pushes.filterMap Push.comment?)
  messages : w.db.messages.vals = start.db.messages.vals ++ w.pushes.filterMap Push.message?
  nothing_else : ∀ p ∈ w.pushes, p.comment?.isSome ∨ p.message?.isSome

theorem Push.message?_of_comment? {p : Push} {c : Row Comment} (h : p.comment? = some c) :
    p.message? = none := by
  unfold Push.comment? at h
  unfold Push.message?
  split at h <;> simp_all

theorem Push.comment?_of_message? {p : Push} {m : Message} (h : p.message? = some m) :
    p.comment? = none := by
  unfold Push.message? at h
  unfold Push.comment?
  split at h <;> simp_all

theorem Published.step {start w w' : World} (h : Published start w) (hstep : Publishes w w') :
    Published start w' := by
  cases hstep with
  | nothing hpushes hcomments hmessages =>
    refine ⟨?_, by rw [hmessages, hpushes]; exact h.messages, by rw [hpushes]; exact h.nothing_else⟩
    rw [hpushes]
    rcases hcomments with hcomments | ⟨q, hcomments⟩
    · exact hcomments ▸ h.comments
    · exact hcomments ▸ h.comments.delete q
  | @comment p c hp hpushes hcomments hmessages =>
    have hnone := Push.message?_of_comment? hp
    refine ⟨?_, ?_, fun p' hp' => ?_⟩
    · rw [hpushes, hcomments, List.filterMap_append, List.filterMap_cons_some hp]
      exact h.comments.insert c
    · rw [hpushes, hmessages, List.filterMap_append, List.filterMap_cons_none hnone]
      simpa using h.messages
    · rw [hpushes] at hp'
      rcases List.mem_append.mp hp' with hp' | hp'
      · exact h.nothing_else p' hp'
      · obtain rfl := List.mem_singleton.mp hp'
        exact .inl (by simp [hp])
  | @message p m hp hpushes hcomments hmessages =>
    have hnone := Push.comment?_of_message? hp
    refine ⟨?_, ?_, fun p' hp' => ?_⟩
    · rw [hpushes, hcomments, List.filterMap_append, List.filterMap_cons_none hnone]
      simpa using h.comments
    · rw [hpushes, hmessages, List.filterMap_append, List.filterMap_cons_some hp, Table.vals_insert,
        h.messages, List.append_assoc]
      rfl
    · rw [hpushes] at hp'
      rcases List.mem_append.mp hp' with hp' | hp'
      · exact h.nothing_else p' hp'
      · obtain rfl := List.mem_singleton.mp hp'
        exact .inr (by simp [hp])

/-- In every run from a world that has published nothing yet: every comment stored since has
been pushed once, as it was stored and in the order of the ids, the comments that are there
are what destructions have left of these; every message stored since has been pushed once,
in order; and nothing else has been pushed. -/
theorem published_of_reachable (start : World) (hstart : start.pushes = []) (w : World)
    (h : (server fun s => s = start).Reachable w) : Published start w := by
  refine System.Reachable.invariant (P := Published start) h ?_ ?_
  · rintro s rfl
    exact ⟨by rw [hstart]; exact .opened _, by simp [hstart], by simp [hstart]⟩
  · intro s r t hs hstep
    rw [← server_step.mp hstep]
    exact hs.step (publishes_run r s)

/-- A comment and a message. -/
theorem published_comment :
    let w := (World.ofDatabase .sample).after [.by 1 (.comments_create "1" (some "first")),
      .by 2 (.messages_create (some "1") (some "hi") none)]
    w.pushes.length = 2 ∧ Published (.ofDatabase .sample) w :=
  ⟨by decide, published_of_reachable _ rfl _
    (@reachable_after (fun s => s = .ofDatabase .sample) _ rfl _)⟩

end Gallery
