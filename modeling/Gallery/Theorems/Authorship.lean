import Gallery.Semantics.Runs
import Gallery.Theorems.EventsPage
import Gallery.Theorems.Toggles

/-!
# Who has said what

A like, a subscription, a comment and a message are stored in the name of a user. Nobody can
put one into the mouth of somebody else: whatever is stored after a run and was not before, a
request of the run has asked for, in the session of its author, while the author had an
account. The row says what the request said, and nothing rewrites it later.

## Main definitions

* `Deed` — a row in the name of a user
* `Deed.MadeBy` — the request that a row comes from

## Main results

* `deed_leaves` — what one request can store
* `deeds_authentic` — runs of requests
-/

namespace Gallery

open Store Rails App Semantics

/-- What is stored in the name of a user. -/
inductive Deed
  | like (l : Row Like)
  | subscription (s : Row UserCategory)
  | comment (c : Row Comment)
  | message (m : Row Message)
deriving DecidableEq, Repr

namespace Deed

/-- In whose name it is stored. -/
def author : Deed → Id
  | like l => l.val.user_id
  | subscription s => s.val.user_id
  | comment c => c.val.user_id
  | message m => m.val.sender_id

def StoredIn (db : Database) : Deed → Prop
  | like l => l ∈ db.likes.rows
  | subscription s => s ∈ db.user_categories.rows
  | comment c => c ∈ db.comments.rows
  | message m => m ∈ db.messages.rows

instance (db : Database) : DecidablePred (StoredIn db)
  | like l => inferInstanceAs (Decidable (l ∈ db.likes.rows))
  | subscription s => inferInstanceAs (Decidable (s ∈ db.user_categories.rows))
  | comment c => inferInstanceAs (Decidable (c ∈ db.comments.rows))
  | message m => inferInstanceAs (Decidable (m ∈ db.messages.rows))

/-- The parameters of a request that says this, at this time. -/
def SaidBy (route : Route) (now : Time) : Deed → Prop
  | like l =>
    ∃ pic_id, route = .pictures_like pic_id none ∧ assignInteger pic_id = some l.val.picture_id
  | subscription s =>
    ∃ cat_id, route = .categories_subscribe cat_id ∧ assignInteger cat_id = some s.val.category_id
  | comment c =>
    ∃ picture_id, route = .comments_create picture_id (some c.val.body) ∧
      to_i picture_id = c.val.picture_id ∧ c.val.created_at = now
  | message m =>
    ∃ receiver_id event_name, route = .messages_create receiver_id (some m.val.text) event_name ∧
      assignInteger receiver_id = some m.val.receiver_id

/-- It has the next key of its table. -/
def Fresh (db : Database) : Deed → Prop
  | like l => l.id = db.likes.next
  | subscription s => s.id = db.user_categories.next
  | comment c => c.id = db.comments.next
  | message m => m.id = db.messages.next

/-- The request says it in the session of its author, who has an account. -/
structure MadeBy (w : World) (r : Request) (d : Deed) : Prop where
  session : r.session = some d.author
  account : w.db.users.Has d.author
  said : d.SaidBy r.route r.now
  fresh : d.Fresh w.db

end Deed

/-! ### What one request can store -/

section Requests

variable {db db' : Database} {w w' : World} {d : Deed} {now : Time}

/-- Destructions only remove. -/
theorem storedIn_destroyUser {i : Id} (h : d.StoredIn (db.destroyUser i now)) : d.StoredIn db := by
  cases d with
  | like l | comment c => exact (List.mem_filter.mp h).1
  | subscription s | message m => exact h

theorem storedIn_destroyPicture {i : Id} (h : d.StoredIn (db.destroyPicture i now)) :
    d.StoredIn db := by
  cases d with
  | like l | comment c => exact (List.mem_filter.mp h).1
  | subscription s | message m => exact h

/-- What an action stores, the user it acts for has said. -/
theorem deed_outcome {route : Route} {user : Option (Row User)} {res : Except Raised Response}
    (ho : Outcome now w route user res w') (h : d.StoredIn w'.db) :
    d.StoredIn w.db ∨
      (∃ u, user = some u ∧ u.id = d.author) ∧ d.SaidBy route now ∧ d.Fresh w.db := by
  cases ho with
  | quiet _ _ hdb => exact .inl (hdb ▸ h)
  | like_created hp _ _ =>
    cases d with
    | like l =>
      refine (List.mem_append.mp h).imp_right fun hl => ?_
      obtain rfl := List.mem_singleton.mp hl
      exact ⟨⟨_, rfl, rfl⟩, ⟨_, rfl, hp⟩, rfl⟩
    | subscription | comment | message => exact .inl h
  | like_destroyed =>
    cases d with
    | like l => exact .inl (List.mem_filter.mp h).1
    | subscription | comment | message => exact .inl h
  | subscribed hc _ _ =>
    cases d with
    | subscription s =>
      refine (List.mem_append.mp h).imp_right fun hs => ?_
      obtain rfl := List.mem_singleton.mp hs
      exact ⟨⟨_, rfl, rfl⟩, ⟨_, rfl, hc⟩, rfl⟩
    | like | comment | message => exact .inl h
  | unsubscribed =>
    cases d with
    | subscription s => exact .inl (List.mem_filter.mp h).1
    | like | comment | message => exact .inl h
  | commented hp _ hdb =>
    rw [hdb] at h
    cases d with
    | comment c =>
      refine (List.mem_append.mp h).imp_right fun hc => ?_
      obtain rfl := List.mem_singleton.mp hc
      exact ⟨⟨_, rfl, rfl⟩, ⟨_, rfl, (Table.find?_eq_some_iff.mp hp).2.symm, rfl⟩, rfl⟩
    | like | subscription | message => exact .inl h
  | messaged hr _ _ hdb =>
    rw [hdb] at h
    cases d with
    | message m =>
      refine (List.mem_append.mp h).imp_right fun hm => ?_
      obtain rfl := List.mem_singleton.mp hm
      exact ⟨⟨_, rfl, rfl⟩, ⟨_, _, rfl, hr⟩, rfl⟩
    | like | subscription | comment => exact .inl h
  | cancelled => exact .inl (storedIn_destroyUser h)
  | user_destroyed => exact .inl (storedIn_destroyUser h)
  | picture_destroyed => exact .inl (storedIn_destroyPicture h)
  | picture_created _ _ _ hdb =>
    rw [hdb] at h
    exact .inl (by cases d <;> exact h)
  | _ => exact .inl (by cases d <;> exact h)

/-- The filters store nothing in anybody's name. -/
theorem deeds_enter (r : Request) (db : Database) (d : Deed) :
    (d.StoredIn (r.enter db) ↔ d.StoredIn db) ∧ (d.Fresh (r.enter db) ↔ d.Fresh db) := by
  refine Request.enter_rule
    (P := fun db' => (d.StoredIn db' ↔ d.StoredIn db) ∧ (d.Fresh db' ↔ d.Fresh db))
    ⟨.rfl, .rfl⟩ (fun _ _ _ _ => ?_) (fun _ _ => ?_) fun _ _ h => ?_
  · cases d <;> exact ⟨.rfl, .rfl⟩
  · cases d <;> exact ⟨.rfl, .rfl⟩
  · cases d <;> exact h

/-- What one request stores. -/
theorem deed_leaves (w : World) (r : Request) (d : Deed) (h : d.StoredIn (r.leaves w).db) :
    d.StoredIn w.db ∨ d.MadeBy w r := by
  unfold Request.leaves at h
  rcases run_cases r w with ⟨-, hrun⟩ | ⟨-, ho⟩
  · rw [hrun] at h
    exact .inl h
  obtain ⟨hstored, hfresh⟩ := deeds_enter r w.db d
  refine (deed_outcome ho h).imp hstored.mp ?_
  rintro ⟨⟨u, hu, hauthor⟩, hsaid, hnext⟩
  refine ⟨?_, ?_, hsaid, hfresh.mp hnext⟩
  · rw [Request.session_of_user hu, hauthor]
  · exact hauthor ▸ Table.Has.intro (Request.mem_of_user hu)

end Requests

/-! ### Runs -/

/-- Whatever anybody requests, everything stored in the name of a user was so before, or is
what one request of the run said in the session of that user. -/
theorem deeds_authentic (w : World) (rs : List Request) (d : Deed)
    (h : d.StoredIn (w.after rs).db) :
    d.StoredIn w.db ∨
      ∃ before r after, rs = before ++ r :: after ∧ d.MadeBy (w.after before) r :=
  @origin World Request Deed (fun w r => r.leaves w) (fun w r d => d.MadeBy w r)
    (fun w d => d.StoredIn w.db) w rs d deed_leaves h

/-- A comment between two requests of somebody else. -/
theorem deeds_authentic_comment :
    let w := World.ofDatabase .sample
    let rs := [Request.by 1 (.pictures_like (some "1") none),
      .by 2 (.comments_create "1" (some "Nice")), .by 1 .registrations_destroy]
    let d := Deed.comment ⟨1, 2, 1, "Nice", 0⟩
    d.StoredIn (w.after rs).db ∧ (d.StoredIn w.db ∨
      ∃ before r after, rs = before ++ r :: after ∧ d.MadeBy (w.after before) r) :=
  ⟨by decide, deeds_authentic _ _ _ (by decide)⟩

end Gallery
