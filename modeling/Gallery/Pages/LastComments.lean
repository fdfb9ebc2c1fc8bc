import Gallery.Model.World
import Mathlib.Data.List.Sort

/-!
# The box of last comments

The partials `_last_comments` and `comments/_comment`, which every index page or
show page renders. Both follow associations without asking whether the row at
their end is still there.

## Main definitions

* `Rails.truncate` — `String#truncate`
* `Language` — the languages of the site
* `Comment.last_comments` — the five newest comments
* `render_last_comments`, `render_comments` — the two partials
-/

namespace Gallery.Rails

/-- `String#truncate`, which counts characters. -/
def truncate (s : String) (length : ℕ) : String :=
  if length < s.length then String.ofList (s.toList.take (length - 3)) ++ "..." else s

end Gallery.Rails

namespace Gallery

open Store Rails

/-- `I18n.locale` -/
inductive Language
  | en
  | de
deriving DecidableEq, Repr

/-- `Comment.last(5).sort_by{|e| -e[:id]}` -/
def Comment.last_comments (comments : Table Comment) : List (Row Comment) :=
  (comments.rows.insertionSort fun c c' => c'.id ≤ c.id).take 5

/-- A link of the box: the text, and the picture whose page it leads to. -/
structure LastComment where
  text : String
  picture : Id
deriving DecidableEq, Repr

/-- `link_to comment.body.truncate(30),picture_path(comment.picture.id)` -/
def LastComment.render (db : Database) (comment : Row Comment) : Except Failure LastComment :=
  match db.pictures.find? comment.val.picture_id with
  | some picture => .ok ⟨truncate comment.val.body 30, picture.id⟩
  | none => .error .NoMethodError

/-- The partial `_last_comments`. -/
def render_last_comments (db : Database) : Except Failure (List LastComment) :=
  (Comment.last_comments db.comments).mapM (LastComment.render db)

/-- A row of the comment table: the sender's e-mail and the body. -/
structure CommentRow where
  email : String
  body : String
deriving DecidableEq, Repr

/-- `comment.user.email` and `comment.body` -/
def CommentRow.render (db : Database) (comment : Row Comment) : Except Failure CommentRow :=
  match db.users.find? comment.val.user_id with
  | some user => .ok ⟨user.val.email, comment.val.body⟩
  | none => .error .NoMethodError

/-- The partial `comments/_comment` for the comments of a page. -/
def render_comments (db : Database) (comments : List (Row Comment)) :
    Except Failure (List CommentRow) :=
  comments.mapM (CommentRow.render db)

theorem Comment.mem_of_mem_last_comments {comments : Table Comment} {c : Row Comment}
    (h : c ∈ Comment.last_comments comments) : c ∈ comments.rows :=
  (List.mem_insertionSort _).mp (List.mem_of_mem_take h)

/-- A list is rendered element by element, and fails with the first one that does. -/
theorem mapM_eq_ok_iff {α β ε : Type} {f : α → Except ε β} {xs : List α} {bs : List β} :
    xs.mapM f = .ok bs ↔ List.Forall₂ (fun x b => f x = .ok b) xs bs := by
  induction xs generalizing bs with
  | nil =>
    rw [List.mapM_nil, List.forall₂_nil_left_iff]
    exact ⟨fun h => (Except.ok.inj h).symm, fun h => congrArg Except.ok h.symm⟩
  | cons x xs ih =>
    rw [List.mapM_cons, List.forall₂_cons_left_iff]
    constructor
    · intro h
      cases hx : f x with
      | error e => simp [hx, bind, Except.bind] at h
      | ok b =>
        cases hxs : xs.mapM f with
        | error e => simp [hx, hxs, bind, Except.bind] at h
        | ok bs' =>
          rw [hx, hxs] at h
          exact ⟨b, bs', rfl, ih.mp hxs, (Except.ok.inj h).symm⟩
    · rintro ⟨b, bs', hb, hbs, rfl⟩
      rw [hb, ih.mpr hbs]
      rfl

/-- A list of which every element yields something related to it. -/
theorem mapM_ok_forall₂ {α β ε : Type} {f : α → Except ε β} {R : α → β → Prop} {xs : List α}
    (h : ∀ x ∈ xs, ∃ b, f x = .ok b ∧ R x b) : ∃ bs, xs.mapM f = .ok bs ∧ List.Forall₂ R xs bs := by
  induction xs with
  | nil => exact ⟨[], rfl, .nil⟩
  | cons x xs ih =>
    obtain ⟨b, hb, hR⟩ := h x List.mem_cons_self
    obtain ⟨bs, hbs, hRs⟩ := ih fun y hy => h y (List.mem_cons_of_mem x hy)
    exact ⟨b :: bs, mapM_eq_ok_iff.mpr (.cons hb (mapM_eq_ok_iff.mp hbs)), .cons hR hRs⟩

/-- A list of which every element can be rendered is rendered as a whole. -/
theorem mapM_ok {α β ε : Type} {f : α → Except ε β} {xs : List α}
    (h : ∀ x ∈ xs, ∃ b, f x = .ok b) : ∃ bs, xs.mapM f = .ok bs := by
  obtain ⟨bs, hbs, -⟩ := mapM_ok_forall₂ (R := fun _ _ => True) fun x hx =>
    (h x hx).imp fun _ hb => ⟨hb, trivial⟩
  exact ⟨bs, hbs⟩

theorem mapM_eq_ok {α β ε : Type} {f : α → Except ε β} {g : α → β} {xs : List α}
    (h : ∀ x ∈ xs, f x = .ok (g x)) : xs.mapM f = .ok (xs.map g) := by
  rw [mapM_eq_ok_iff, List.forall₂_map_right_iff, List.forall₂_same]
  exact h

theorem ok_of_mapM {α β ε : Type} {f : α → Except ε β} {xs : List α} {bs : List β}
    (h : xs.mapM f = .ok bs) : ∀ x ∈ xs, ∃ b, f x = .ok b := by
  intro x hx
  obtain ⟨i, hi, rfl⟩ := List.mem_iff_getElem.mp hx
  obtain ⟨hlength, hget⟩ := List.forall₂_iff_get.mp (mapM_eq_ok_iff.mp h)
  have hi' : i < bs.length := hlength ▸ hi
  exact ⟨bs[i], hget i hi hi'⟩

theorem mapM_congr {α β ε : Type} {f g : α → Except ε β} {xs : List α}
    (h : ∀ x ∈ xs, f x = g x) : xs.mapM f = xs.mapM g := by
  induction xs with
  | nil => rfl
  | cons x xs ih =>
    rw [List.mapM_cons, List.mapM_cons, h x List.mem_cons_self,
      ih fun y hy => h y (List.mem_cons_of_mem x hy)]

/-- The box renders when the pictures of all comments are there. -/
theorem render_last_comments_ok {db : Database}
    (h : ∀ c ∈ db.comments.rows, db.pictures.Has c.val.picture_id) :
    ∃ box, render_last_comments db = .ok box := by
  refine mapM_ok fun c hc => ?_
  obtain ⟨p, hp⟩ := Table.has_iff_exists_find?.mp (h c (Comment.mem_of_mem_last_comments hc))
  exact ⟨⟨truncate c.val.body 30, p.id⟩, by simp only [LastComment.render, hp]⟩

/-- The comment table renders when the senders of all comments are there. -/
theorem render_comments_ok {db : Database} {comments : List (Row Comment)}
    (h : ∀ c ∈ db.comments.rows, db.users.Has c.val.user_id)
    (hcomments : ∀ c ∈ comments, c ∈ db.comments.rows) :
    ∃ table, render_comments db comments = .ok table := by
  refine mapM_ok fun c hc => ?_
  obtain ⟨u, hu⟩ := Table.has_iff_exists_find?.mp (h c (hcomments c hc))
  exact ⟨⟨u.val.email, c.val.body⟩, by simp only [CommentRow.render, hu]⟩

end Gallery
