import Gallery.Model.Records
import Gallery.Semantics.Transition
import Mathlib.Logic.Function.Basic

/-!
# Comments and destructions, statement by statement

Comment creations next to destructions of pictures and users, as programs over
single SQL statements of which any number run at once. What a transaction
writes is seen by others from its `COMMIT` on. Row locks are left out: they only
rule interleavings out. So are the statements on tables other than `comments`,
`pictures` and `users`.

## Main definitions

* `Owner` — what comments belong to
* `Phase`, `Phase.issue` — the statement a request is about to issue, and its effect
* `statements` — the transition system of their interleavings
-/

namespace Gallery

open Store Rails Semantics

namespace Destruction

/-- What a comment belongs to. -/
inductive Owner
  | picture (id : Id)
  | user (id : Id)
deriving DecidableEq, Repr

namespace Owner

/-- `comment` refers to the owner. -/
def owns (comment : Comment) : Owner → Bool
  | picture id => comment.picture_id = id
  | user id => comment.user_id = id

def Present (db : Database) : Owner → Prop
  | picture id => db.pictures.Has id
  | user id => db.users.Has id

instance (db : Database) : (o : Owner) → Decidable (o.Present db)
  | picture id => inferInstanceAs (Decidable (db.pictures.Has id))
  | user id => inferInstanceAs (Decidable (db.users.Has id))

/-- The row of the owner goes. -/
def remove (db : Database) : Owner → Database
  | picture id => { db with pictures := db.pictures.delete fun p => p.id = id }
  | user id => { db with users := db.users.delete fun u => u.id = id }

end Owner

/-- A request: `CommentsController#create` of the session's user, or a destruction
of a picture or a user. Cancelling an account destroys the session's user. -/
inductive Job
  | create (user_id : Id) (picture_id : String) (body : Option String)
  | destroy (owner : Owner)
deriving DecidableEq, Repr

/-- The statement a request is about to issue. -/
inductive Phase
  | idle
  /-- `SELECT` of the session's user -/
  | find_user (user_id : Id) (picture_id : String) (body : Option String)
  /-- `Picture.find(params[:picture_id])` -/
  | find_picture (user_id : Id) (picture_id : String) (body : Option String)
  | insert (user_id picture_id : Id) (body : String)
  | commit_comment (user_id picture_id : Id) (body : String)
  /-- `SELECT` of the row to destroy -/
  | find_owner (owner : Owner)
  /-- `SELECT` of its comments -/
  | select_comments (owner : Owner)
  /-- `DELETE` of one selected comment after the other -/
  | delete_comments (owner : Owner) (selected left : List Id)
  | delete_owner (owner : Owner) (selected : List Id)
  | commit_destroy (owner : Owner) (selected : List Id)
  | done
deriving DecidableEq, Repr

/-- The first statement of a request. -/
def Job.start : Job → Phase
  | create user_id picture_id body => .find_user user_id picture_id body
  | destroy owner => .find_owner owner

/-- One statement: the database and the next statement of the request. -/
def Phase.issue (db : Database) (now : Time) : Phase → Database × Phase
  | .idle => (db, .idle)
  | .find_user user_id picture_id body =>
    if db.users.Has user_id then (db, .find_picture user_id picture_id body) else (db, .done)
  | .find_picture user_id picture_id body =>
    if db.pictures.Has (to_i picture_id) then
      match body with
      | some b =>
        if Comment.validBody (some b) then (db, .insert user_id (to_i picture_id) b)
        else (db, .done)
      | none => (db, .done)
    else (db, .done)
  -- `INSERT` and `COMMIT` are two statements: what is inserted shows only afterwards
  | .insert user_id picture_id body => (db, .commit_comment user_id picture_id body)
  | .commit_comment user_id picture_id body =>
    ({ db.touch [picture_id] now with
      comments := db.comments.insert ⟨user_id, picture_id, body, now⟩ }, .done)
  | .find_owner owner => if owner.Present db then (db, .select_comments owner) else (db, .done)
  | .select_comments owner =>
    -- the comments that are there now; one stored later is not among them
    let selected := (db.comments.rows.filter fun c => owner.owns c.val).map (·.id)
    (db, .delete_comments owner selected selected)
  | .delete_comments owner selected [] => (db, .delete_owner owner selected)
  | .delete_comments owner selected (_ :: left) => (db, .delete_comments owner selected left)
  | .delete_owner owner selected => (db, .commit_destroy owner selected)
  | .commit_destroy owner selected =>
    (owner.remove (db.destroyComments (fun c => c.id ∈ selected) now), .done)
  | .done => (db, .done)

namespace Phase

/-- The owners a request has looked up for a comment it is going to store and has
not committed. -/
def holds (db : Database) : Phase → List Owner
  | find_picture user_id picture_id body =>
    if db.pictures.Has (to_i picture_id) ∧ Comment.validBody body then [.user user_id] else []
  | insert user_id picture_id _ => [.user user_id, .picture picture_id]
  | commit_comment user_id picture_id _ => [.user user_id, .picture picture_id]
  | _ => []

/-- The owner a request has selected the comments of and is going to delete, and
the selection. -/
def dooms : Phase → Option (Owner × List Id)
  | delete_comments owner selected _ => some (owner, selected)
  | delete_owner owner selected => some (owner, selected)
  | commit_destroy owner selected => some (owner, selected)
  | _ => none

/-- The owner a request is about to look up, and to find, for a comment it is
going to store. -/
def looksUp (db : Database) : Phase → Option Owner
  | find_user user_id picture_id body =>
    if db.users.Has user_id ∧ db.pictures.Has (to_i picture_id) ∧ Comment.validBody body then
      some (.user user_id)
    else none
  | find_picture _ picture_id body =>
    if db.pictures.Has (to_i picture_id) ∧ Comment.validBody body then
      some (.picture (to_i picture_id))
    else none
  | _ => none

/-- The owner whose comments a request is about to select. -/
def selects : Phase → Option Owner
  | select_comments owner => some owner
  | _ => none

end Phase

/-- The committed data, and where each request stands. -/
structure Requests where
  db : Database
  phase : ℕ → Phase

/-- Every comment has its picture and its user. -/
def Unorphaned (db : Database) : Prop :=
  ∀ c ∈ db.comments.rows, db.pictures.Has c.val.picture_id ∧ db.users.Has c.val.user_id

/-- A request arrives, or one that has arrived issues its next statement. -/
inductive Statement
  | arrive (request : ℕ) (job : Job)
  | issue (request : ℕ) (now : Time)
deriving DecidableEq, Repr

/-- The interleavings of the statements of any number of requests. -/
def statements : System Requests Statement where
  init s := Unorphaned s.db ∧ ∀ i, s.phase i = .idle
  step s
    | .arrive i job =>
      if s.phase i = .idle then
        some { s with phase := Function.update s.phase i job.start }
      else none
    | .issue i now =>
      some
        { db := ((s.phase i).issue s.db now).1
          phase := Function.update s.phase i ((s.phase i).issue s.db now).2 }

end Destruction

end Gallery
