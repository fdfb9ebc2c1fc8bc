import Gallery.Model.Records
import Gallery.Semantics.Transition
import Mathlib.Logic.Function.Basic

/-!
# Requests, statement by statement

Like requests, subscribe requests and tracked page views again, this time as
programs over single SQL statements of which any number run at once. A statement
is atomic and sees what has been committed; a row inserted in a transaction is
seen by others from its `COMMIT` on. The validation of uniqueness is a `SELECT`
of its own before the `INSERT`. Statements on tables other than `likes`,
`user_categories` and `urls` are left out: they neither read nor write these.

## Main definitions

* `NaturalKey`, `Database.count` — the keys that ought to be unique, and their rows
* `Job`, `Phase` — the requests, and the statement each is about to issue
* `statements` — the transition system of their interleavings
-/

namespace Gallery

open Store Rails Semantics

/-- What ought to name at most one row. -/
inductive NaturalKey
  | like (user_id picture_id : Id)
  | subscription (user_id category_id : Id)
  | url (url : String)
deriving DecidableEq, Repr

/-- The number of rows with a key. -/
def Database.count (db : Database) : NaturalKey → ℕ
  | .like u p => db.likes.rows.countP fun l => l.val.user_id = u && l.val.picture_id = p
  | .subscription u c =>
    db.user_categories.rows.countP fun s => s.val.user_id = u && s.val.category_id = c
  | .url s => db.urls.rows.countP fun r => r.val.url = s

/-- The row with a key becomes visible. -/
def Database.add (db : Database) : NaturalKey → Database
  | .like u p => { db with likes := db.likes.insert ⟨u, p⟩ }
  | .subscription u c => { db with user_categories := db.user_categories.insert ⟨u, c⟩ }
  | .url s => { db with urls := db.urls.insert ⟨s⟩ }

/-- PostgreSQL accepts the `INSERT` of the key. -/
def NaturalKey.storable : NaturalKey → Bool
  | .like _ p => fitsInteger p
  | .subscription _ c => fitsInteger c
  | .url s => fitsString s

/-- What a signed-in user's request does after it has been tracked. -/
inductive Job
  /-- `like` without `params[:check]`. -/
  | like (user_id : Id) (pic_id : Option String)
  | subscribe (user_id : Id) (cat_id : Option String)
  /-- Any action that writes none of the three tables. -/
  | view
deriving DecidableEq, Repr

/-- The statement a request is about to issue. -/
inductive Phase
  | idle
  /-- `SELECT` of `find_or_create_by_url` -/
  | find_url (url : String) (job : Job)
  | insert_url (url : String) (job : Job)
  | commit_url (url : String) (job : Job)
  /-- The action's own `SELECT`. -/
  | look_up (job : Job)
  /-- `SELECT` of the uniqueness validation. -/
  | validate (key : NaturalKey)
  | insert (key : NaturalKey)
  | commit (key : NaturalKey)
  /-- `SELECT` of `destroy_all`. -/
  | select_likes (user_id picture_id : Id)
  /-- `DELETE` and `COMMIT` for one selected like after the other. -/
  | delete_likes (ids : List Id)
  /-- `DELETE` of `delete_all`. -/
  | delete_subscriptions (user_id category_id : Id)
  | done
deriving DecidableEq, Repr

namespace Phase

/-- The key for which a request has made its last look-up, found nothing, and not
yet committed its row. -/
def holds : Phase → Option NaturalKey
  | insert_url url _ => some (.url url)
  | commit_url url _ => some (.url url)
  | insert key => some key
  | commit key => some key
  | _ => none

/-- The key a request is about to look up for the last time before an insert. -/
def lastLookUp : Phase → Option NaturalKey
  | find_url url _ => some (.url url)
  | validate key => some key
  | _ => none

end Phase

/-- The statement a like request issues after its own look-up. -/
def Job.afterLike (db : Database) (user_id : Id) (pic_id : Option String) : Phase :=
  if db.likes.rows.any fun l =>
      l.val.user_id = user_id && whereInteger pic_id = some l.val.picture_id then
    match pic_id.map parseInteger with
    | some (some p) => .select_likes user_id p
    | _ => .done
  else
    match assignInteger pic_id with
    | some p => .validate (.like user_id p)
    | none => .done

/-- The statement a subscribe request issues after its own look-up. -/
def Job.afterSubscribe (db : Database) (user_id : Id) (cat_id : Option String) : Phase :=
  if db.user_categories.rows.any fun s =>
      s.val.user_id = user_id && whereInteger cat_id = some s.val.category_id then
    match whereInteger cat_id with
    | some c => .delete_subscriptions user_id c
    | none => .done
  else
    match assignInteger cat_id with
    | some c => .validate (.subscription user_id c)
    | none => .done

/-- One statement: the database and the next statement of the request. -/
def Phase.issue (db : Database) : Phase → Database × Phase
  | .idle => (db, .idle)
  -- `find_or_create_by_url`: a look-up and an insert, with nothing in between that locks
  | .find_url url job =>
    if db.count (.url url) = 0 then (db, .insert_url url job) else (db, .look_up job)
  | .insert_url url job =>
    if NaturalKey.storable (.url url) then (db, .commit_url url job) else (db, .done)
  | .commit_url url job => (db.add (.url url), .look_up job)
  | .look_up (.like user_id pic_id) => (db, Job.afterLike db user_id pic_id)
  | .look_up (.subscribe user_id cat_id) => (db, Job.afterSubscribe db user_id cat_id)
  | .look_up .view => (db, .done)
  -- `validates_uniqueness_of` looks, and only then the row is inserted
  | .validate key => if db.count key = 0 then (db, .insert key) else (db, .done)
  | .insert key => if key.storable then (db, .commit key) else (db, .done)
  | .commit key => (db.add key, .done)
  | .select_likes user_id picture_id =>
    (db, .delete_likes ((db.likes.rows.filter fun l =>
      l.val.user_id = user_id && l.val.picture_id = picture_id).map (·.id)))
  | .delete_likes [] => (db, .done)
  | .delete_likes (id :: ids) =>
    ({ db with likes := db.likes.delete fun l => l.id = id }, .delete_likes ids)
  | .delete_subscriptions user_id category_id =>
    ({ db with
      user_categories := db.user_categories.delete fun s =>
        s.val.user_id = user_id && s.val.category_id = category_id }, .done)
  | .done => (db, .done)

/-- The committed data, and where each request stands. -/
structure Requests where
  db : Database
  phase : ℕ → Phase

/-- A request arrives, or one that has arrived issues its next statement. -/
inductive Statement
  | arrive (request : ℕ) (url : String) (job : Job)
  | issue (request : ℕ)
deriving DecidableEq, Repr

/-- The interleavings of the statements of any number of requests. -/
def statements : System Requests Statement where
  init s := (∀ key, s.db.count key ≤ 1) ∧ ∀ i, s.phase i = .idle
  step s
    | .arrive i url job =>
      if s.phase i = .idle then
        some { s with phase := Function.update s.phase i (.find_url url job) }
      else none
    | .issue i =>
      some
        { db := ((s.phase i).issue s.db).1
          phase := Function.update s.phase i ((s.phase i).issue s.db).2 }

end Gallery
