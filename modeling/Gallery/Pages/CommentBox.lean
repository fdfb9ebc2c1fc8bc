import Gallery.Pages.UserText
import Gallery.Semantics.Transition

/-!
# The box of last comments in a browser

The server renders the box with the page. After that the script keeps it up: a
push puts an entry in front of the first one, or into the empty box, and the
last entry goes when there are more than five.

## Main definitions

* `resolve` — the path a link leads to
* `serverBox` — the box the server renders
* `testEvent` — the handler of `test-event`
* `commentBox` — comments stored one after the other, and their pushes
-/

namespace Gallery

open Store Rails Semantics
open Text (utf16)
open Text.Html

/-! ### Links -/

/-- A URL without the white space around it. -/
def trimUrl (href : List Char) : List Char :=
  ((href.dropWhile (· = ' ')).reverse.dropWhile (· = ' ')).reverse

/-- A path up to its last slash. -/
def directory (path : List Char) : List Char := (path.reverse.dropWhile (· ≠ '/')).reverse

/-- Where a link on the page at path `page` leads. -/
def resolve (page href : List Char) : List Char :=
  if (trimUrl href).head? = some '/' then trimUrl href else directory page ++ trimUrl href

/-- A key in a URL. -/
def idDigits (id : Id) : List Char := Nat.toDigits 10 id.toNat

/-- `picture_path` -/
def picture_path (id : Id) : List Char := "/pictures/".toList ++ idDigits id

/-! ### Entries -/

/-- An entry of the box: the path its link leads to, and the HTML in the link. -/
structure BoxEntry where
  link : List Char
  html : List ℕ
deriving DecidableEq, Repr

/-- Two entries lead to the same page and parse to the same text. -/
def SameEntry (refs : Text.Html.References) (e e' : BoxEntry) : Prop :=
  e.link = e'.link ∧ tokens refs (e.html ++ ascii "</a>") = tokens refs (e'.html ++ ascii "</a>")

variable {refs : Text.Html.References}

/-- `link_to` escapes the text. -/
def LastComment.entry (esc : Escaper refs) (l : LastComment) : BoxEntry :=
  ⟨picture_path l.picture, esc.escaped (utf16 l.text.toList)⟩

/-- The box the server renders when the pictures of the comments are there. -/
def serverBox (esc : Escaper refs) (comments : Table Comment) : List BoxEntry :=
  (Comment.last_comments comments).map fun c =>
    LastComment.entry esc ⟨truncate c.val.body 30, c.val.picture_id⟩

/-- What the partial renders is the server's box. -/
theorem render_last_comments_eq {db : Database} {box : List LastComment} (esc : Escaper refs)
    (h : render_last_comments db = .ok box) :
    box.map (LastComment.entry esc) = serverBox esc db.comments := by
  unfold render_last_comments at h
  unfold serverBox
  generalize Comment.last_comments db.comments = comments at h ⊢
  induction comments generalizing box with
  | nil =>
    obtain rfl : [] = box := Except.ok.inj h
    rfl
  | cons c comments ih =>
    rw [List.mapM_cons] at h
    -- a comment without its picture would have ended the rendering
    rcases Option.eq_none_or_eq_some (db.pictures.find? c.val.picture_id) with hp | ⟨p, hp⟩
    · simp only [LastComment.render, hp] at h
      cases h
    · simp only [LastComment.render, hp] at h
      rcases hrest : comments.mapM (LastComment.render db) with e | rest
      · rw [hrest] at h
        cases h
      · rw [hrest] at h
        obtain rfl := Except.ok.inj h
        have hid : p.id = c.val.picture_id := (Table.find?_eq_some_iff.mp hp).2
        rw [List.map_cons, List.map_cons, ih hrest, hid]

/-! ### The handler -/

/-- The handler of `test-event`, as far as the box goes. -/
def testEvent (page : List Char) (comment : Comment) (box : List BoxEntry) : List BoxEntry :=
  let id := idDigits comment.picture_id
  let body := utf16 comment.body.toList
  let box :=
    if box.isEmpty then [⟨resolve page (" ".toList ++ id ++ " ".toList), body⟩]
    else
      ⟨resolve page ("/pictures/".toList ++ id ++ " ".toList), body.take 27 ++ ascii "..."⟩ :: box
  if 5 < box.length then box.dropLast else box

/-- The comments whose pushes have arrived, those stored since, and the box. -/
structure BoxState where
  arrived : Table Comment
  pending : List Comment
  box : List BoxEntry

/-- The table of comments: each is stored before it is pushed. -/
def BoxState.comments (s : BoxState) : Table Comment := s.pending.foldl Table.insert s.arrived

inductive BoxStep
  /-- `CommentsController#create` stores a comment and pushes it. -/
  | create (comment : Comment)
  /-- The next push arrives. -/
  | deliver

/-- A page at path `page` with its box, from the moment it has been rendered. -/
def commentBox (esc : Escaper refs) (page : List Char) : System BoxState BoxStep where
  init s := s.pending = [] ∧ s.box = serverBox esc s.arrived
  step s
    | .create comment =>
      if Comment.validBody (some comment.body) then
        some { s with pending := s.pending ++ [comment] }
      else none
    | .deliver =>
      match s.pending with
      | comment :: pending =>
        some ⟨s.arrived.insert comment, pending, testEvent page comment s.box⟩
      | [] => none

end Gallery
