import Gallery.Controllers.Server

/-!
# The live comment table of a picture page

The page of a picture shows the first five of its comments, newest first. Two
scripts add to it: infinite scroll appends the `tbody.page` of the next page of
the query, as the server computes it at that moment, and the `test-event`
handler prepends the comment of each push to every `tbody.page` there is, without
a look at the picture the push is about.

The query orders by `created_at` alone, so the order in which the server returns
comments of the same second is part of the load's label.

## Main definitions

* `Comment.Ordered` — the answers the ordered query may give
* `LiveTable` — the server's comments, the pushes in flight and the open page
* `liveTable` — comments being stored, pushes delivered and pages loaded
-/

namespace Gallery

open Store Rails App Semantics

/-- `paginates_per 5` -/
def Comment.perPage : ℕ := 5

/-- The comments of a picture. -/
def Comment.ofPicture (comments : Table Comment) (picture_id : Id) : List (Row Comment) :=
  comments.rows.filter fun c => c.val.picture_id = picture_id

/-- An answer to `where(:picture_id => ..).order('created_at DESC')`: the comments
of the picture, newest first. -/
def Comment.Ordered (comments : Table Comment) (picture_id : Id) (answer : List (Row Comment)) :
    Prop :=
  answer.Perm (Comment.ofPicture comments picture_id) ∧
    answer.Pairwise fun c c' => c'.val.created_at ≤ c.val.created_at

instance (comments : Table Comment) (picture_id : Id) (answer : List (Row Comment)) :
    Decidable (Comment.Ordered comments picture_id answer) :=
  inferInstanceAs (Decidable (_ ∧ _))

/-- Page `n + 1` of an answer. -/
def Comment.page (answer : List (Row Comment)) (n : ℕ) : List (Row Comment) :=
  (answer.drop (Comment.perPage * n)).take Comment.perPage

/-- The server, the connection and the open page of a picture. -/
structure LiveTable where
  comments : Table Comment
  /-- The `test-event` pushes on their way to the page, in creation order. -/
  pushes : List (Row Comment)
  /-- The rows of each `tbody.page`, from the top. -/
  bodies : List (List (Row Comment))
  /-- There was a second page when this one was rendered, so it has a link to follow. -/
  scrolls : Bool
  /-- The next id of the sequence when the page was rendered. -/
  opened : ℤ
  /-- The rows that came with a page rather than with a push. -/
  loaded : List (Row Comment)

namespace LiveTable

/-- The rows the page shows. -/
def shown (s : LiveTable) : List (Row Comment) := s.bodies.flatten

/-- Rendering the page. -/
def Renders (picture_id : Id) (s : LiveTable) : Prop :=
  ∃ answer, Comment.Ordered s.comments picture_id answer ∧
    s.bodies = [Comment.page answer 0] ∧ s.loaded = Comment.page answer 0 ∧
      s.scrolls = decide (Comment.perPage < answer.length) ∧
        s.opened = s.comments.next ∧ s.pushes = []

/-- Somebody's comment on some picture is stored and announced. -/
def create (s : LiveTable) (comment : Comment) : LiveTable :=
  { s with
    comments := s.comments.insert comment
    pushes := s.pushes ++ [⟨s.comments.next, comment⟩] }

/-- `$('#comments .page').prepend(..)` -/
def deliver (s : LiveTable) (comment : Row Comment) (pushes : List (Row Comment)) : LiveTable :=
  { s with
    pushes := pushes
    bodies := s.bodies.map fun body => comment :: body }

/-- The next page is appended to `#comments`; a page past the end has an empty
`tbody.page`. -/
def scroll (s : LiveTable) (answer : List (Row Comment)) : LiveTable :=
  { s with
    bodies := s.bodies ++ [Comment.page answer s.bodies.length]
    loaded := s.loaded ++ Comment.page answer s.bodies.length }

end LiveTable

/-- What happens between the server and the page. -/
inductive LiveTable.Step
  | create (comment : Comment)
  | deliver
  /-- The next page is loaded, with this answer to the query. -/
  | scroll (answer : List (Row Comment))

/-- The open page of a picture. -/
def liveTable (picture_id : Id) : System LiveTable LiveTable.Step where
  init s := s.Renders picture_id
  step s
    | .create comment => some (s.create comment)
    | .deliver =>
      match s.pushes with
      | comment :: pushes => some (s.deliver comment pushes)
      | [] => none
    | .scroll answer =>
      if s.scrolls ∧ Comment.Ordered s.comments picture_id answer then some (s.scroll answer)
      else none

end Gallery
