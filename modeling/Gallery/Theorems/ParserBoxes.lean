import Gallery.Pages.ParserBoxes
import Gallery.Theorems.Noninterference
import Gallery.Theorems.Seeding

/-!
# What the parser page stores

Clicks are answered in any order, an image can be clicked again before the first answer, and
the page keeps no account of what it has asked for. Still the boxes and the gallery agree:
the gallery has gained a picture for each click whose image could be stored, in the order in
which the server got to them and in the categories ticked at the time of the click, and the
boxes left are those of which no click has been successful.

## Main definitions

* `ParserPage.Agrees` — what the boxes say about the gallery

## Main results

* `success_click` — which clicks succeed
* `Agrees.failed`, `Agrees.stored` — what a click changes
* `parser_page_stores` — a page under any interleaving
-/

namespace Gallery

open Store Rails App Semantics

section Catalogue

variable {db : Database} {c : Catalogue} {src : ℕ → String} {x : BoxClick}

/-- The pictures of a category, in the order in which they have been joined to it. -/
theorem shelf_catalogue (db : Database) (k : Row Category) :
    db.catalogue.shelf k.id = (Category.pictures db (some k)).rows.map Picture.exhibit := by
  refine (Table.joined_update _).trans ?_
  simp [Category.pictures, Database.catalogue, Picture.exhibit]

theorem Catalogue.create_picture_click (ids : List Id) :
    c.create_picture (some (src x.box)) x.filename ids x.now = match x.exhibit? src with
      | some e =>
        { c with
          pictures := c.pictures.insert e
          picture_categories := c.picture_categories.insertAll (fun i => ⟨c.pictures.next, i⟩) ids }
      | none => c := by
  unfold BoxClick.exhibit?
  cases hf : x.filename with
  | none => rfl
  | some f =>
    by_cases hvalid : Picture.valid (some (src x.box)) (some f) && fitsString f
    · simp only [Catalogue.create_picture, Option.bind_some, hvalid, if_true]
      rfl
    · simp only [Catalogue.create_picture, Option.bind_some, hvalid]
      rfl

end Catalogue

/-! ### One click -/

section Click

variable {session : Option Id} {origin : String}

/-- A click succeeds exactly if its picture can be stored. -/
theorem success_click (hurl : session = none ∨
      fitsString (origin ++ "/admin/parser/create_picture") = true) (src : ℕ → String)
    (x : BoxClick) (w : World) :
    (Action.exec (x.request session origin src).run w).1.toOption.isSome =
      (x.exhibit? src).isSome := by
  have htrackable : (x.request session origin src).trackable w.db = true :=
    trackable_of_unhindered (fun _ => hurl) rfl w.db
  rw [exec_run, if_pos htrackable]
  simp only [BoxClick.request, Route.run, Parser.create_picture, Action.exec_bind, exec_database,
    exec_picture_create]
  unfold BoxClick.exhibit?
  cases hf : x.filename with
  | none => rfl
  | some f =>
    by_cases hvalid : Picture.valid (some (src x.box)) (some f) <;>
      by_cases hfits : fitsString f <;> simp [hvalid, hfits, Except.toOption]

end Click

/-! ### The page -/

/-- What the boxes say about the gallery: each box that is left has not been clicked with
success, and each successful click has put up a picture in the categories ticked. -/
structure ParserPage.Agrees (src : ℕ → String) (n : ℕ) (c₀ : Catalogue) (handled : List BoxClick)
    (view : List ℕ) (c : Catalogue) : Prop where
  linked : c.Linked
  categories : c.categories = c₀.categories
  pictures : c.pictures.vals = c₀.pictures.vals ++ handled.filterMap (BoxClick.exhibit? src)
  shelves : ∀ k ∈ c₀.categories.rows, c.shelf k.id = c₀.shelf k.id ++
    (handled.filter fun x => k.val.name ∈ x.categories).filterMap (BoxClick.exhibit? src)
  view : view = (List.range n).filter fun i =>
    ∀ x ∈ handled, x.box = i → x.exhibit? src = none

namespace ParserPage.Agrees

variable {src : ℕ → String} {n : ℕ} {c₀ c : Catalogue} {handled : List BoxClick} {view : List ℕ}

theorem init (h : c₀.Linked) : Agrees src n c₀ [] (List.range n) c₀ where
  linked := h
  categories := rfl
  pictures := by simp
  shelves := by simp
  view := by simp

/-- The ids under which a click joins its picture. -/
def ids (c : Catalogue) (x : BoxClick) : List Id :=
  (c.categories.rows.filter fun k => k.val.name ∈ x.categories).map (·.id)

theorem has_ids {x : BoxClick} : ∀ i ∈ ids c x, c.categories.Has i := by
  intro i hi
  obtain ⟨k, hk, rfl⟩ := List.mem_map.mp hi
  exact .intro (List.mem_filter.mp hk).1

/-- A click that fails changes nothing. -/
theorem failed (h : Agrees src n c₀ handled view c) {x : BoxClick} (hx : x.exhibit? src = none) :
    Agrees src n c₀ (handled ++ [x]) view c where
  linked := h.linked
  categories := h.categories
  pictures := by simp [h.pictures, hx]
  shelves k hk := by
    rw [h.shelves k hk]
    by_cases hticked : k.val.name ∈ x.categories <;> simp [List.filter_append, hticked, hx]
  view := by
    rw [h.view]
    refine List.filter_congr fun i _ => ?_
    simp [hx, or_imp, forall_and]

/-- A click that succeeds puts up its picture, and removes its box. -/
theorem stored (h : Agrees src n c₀ handled view c) {x : BoxClick} {e : Exhibit}
    (hx : x.exhibit? src = some e) : Agrees src n c₀ (handled ++ [x])
      (view.filter fun i => i ≠ x.box)
      { c with
        pictures := c.pictures.insert e
        picture_categories :=
          c.picture_categories.insertAll (fun i => ⟨c.pictures.next, i⟩) (ids c x) } where
  linked := Links.insert h.linked (fun i => ⟨c.pictures.next, i⟩) (fun _ => rfl) (fun _ => rfl)
    has_ids
  categories := h.categories
  pictures := by simp [h.pictures, hx]
  shelves k hk := by
    have hjoined := Links.joined_insert h.linked e (fun i => ⟨c.pictures.next, i⟩) (fun _ => rfl)
      (fun _ => rfl) (ids c x) k.id
    have hcount := Table.count_ids (h.categories ▸ hk : k ∈ c.categories.rows)
      fun k => k.val.name ∈ x.categories
    rw [show (ids c x).count k.id = _ from hcount] at hjoined
    refine hjoined.trans ?_
    have hold : c.shelf k.id = _ := h.shelves k hk
    rw [Catalogue.shelf] at hold
    rw [hold, List.append_assoc, List.filter_append, List.filterMap_append]
    congr 2
    by_cases hticked : k.val.name ∈ x.categories <;> simp [hticked, hx]
  view := by
    rw [h.view, List.filter_filter]
    refine List.filter_congr fun i _ => ?_
    by_cases hi : i = x.box
    · subst hi
      simp [hx]
    · simp [or_imp, forall_and, hi, Ne.symm hi]

end ParserPage.Agrees

/-- From any state that requests have led to, however clicks on the images of a parser page,
their arrival at the server, their replies and the requests of users are interleaved, as long
as nobody else administers meanwhile: the gallery has gained, in the order in which the
server got to the clicks, a picture for each whose picture can be stored, listed last in the
categories ticked; and once the replies under way have arrived, the boxes left are those of
which no such click has been handled. -/
theorem parser_page_stores (session : Option Id) (origin : String) (src : ℕ → String) (n : ℕ)
    (w₀ : World) (hw₀ : (server Unlinked).Reachable w₀)
    (hurl : session = none ∨ fitsString (origin ++ "/admin/parser/create_picture") = true)
    (s : Exchange World (List ℕ) BoxClick BoxReply)
    (h : (parserPage session origin src n w₀).ReachableWithin
      (AnyOrder fun _ r => r.route.admin = false) s) :
    s.settled (ParserPage.service session origin src) = (List.range n).filter (fun i =>
        ∀ x ∈ s.handled, x.box = i → x.exhibit? src = none) ∧
      s.server.db.catalogue.pictures.vals = w₀.db.catalogue.pictures.vals ++
        s.handled.filterMap (BoxClick.exhibit? src) ∧
      ∀ k ∈ w₀.db.categories.rows,
        (Category.pictures s.server.db (some k)).rows.map Picture.exhibit =
          (Category.pictures w₀.db (some k)).rows.map Picture.exhibit ++
            (s.handled.filter fun x => k.val.name ∈ x.categories).filterMap
              (BoxClick.exhibit? src) := by
  have hagrees : ParserPage.Agrees src n w₀.db.catalogue s.handled
      (s.settled (ParserPage.service session origin src)) s.server.db.catalogue := by
    refine exchange_invariant_of_comm
      (R := fun handled view w =>
        ParserPage.Agrees src n w₀.db.catalogue handled view w.db.catalogue)
      h ?_ ?_ ?_ ?_
    · intro view a b
      simp only [ParserPage.service, BoxReply.show]
      cases a.success <;> cases b.success <;> simp [List.filter_filter, Bool.and_comm]
    · rintro s ⟨hserver, hview, -, hreplies, hhandled⟩
      have hlinked := linked_of_reachable hw₀
      rw [Exchange.settled_of_quiet hreplies, hserver, hview, hhandled]
      exact .init ⟨hlinked.left, hlinked.right⟩
    · intro handled view w x hw
      have hunhindered : (x.request session origin src).Unhindered := fun _ => hurl
      have hcatalogue := catalogue_leaves hunhindered w
      have hstep : w.db.catalogue.step (x.request session origin src) =
          w.db.catalogue.create_picture (some (src x.box)) x.filename
            (ParserPage.Agrees.ids w.db.catalogue x) x.now := rfl
      rw [hstep, Catalogue.create_picture_click] at hcatalogue
      have hsuccess := success_click hurl src x w
      simp only [ParserPage.service, BoxReply.show, hsuccess]
      change ParserPage.Agrees src n _ _ _ ((x.request session origin src).leaves w).db.catalogue
      rw [hcatalogue]
      cases hx : x.exhibit? src with
      | none => exact hw.failed hx
      | some e => exact hw.stored hx
    · intro handled view w r hr hw
      have hcatalogue := catalogue_leaves (r := r) (fun hadmin => by simp [hr] at hadmin) w
      rw [Catalogue.step_of_not_admin hr] at hcatalogue
      change ParserPage.Agrees src n _ _ _ (r.leaves w).db.catalogue
      rwa [hcatalogue]
  refine ⟨hagrees.view, hagrees.pictures, fun k hk => ?_⟩
  rw [← shelf_catalogue, ← shelf_catalogue]
  exact hagrees.shelves k hk

/-- A double click on one image and a click on another that cannot be fetched, answered in
reverse. -/
theorem parser_page_stores_double :
    let src : ℕ → String := fun i => if i = 0 then "http://web/a.png" else "http://web/b.png"
    ∃ s : Exchange World (List ℕ) BoxClick BoxReply, s.replies = [] ∧
      s.settled (ParserPage.service none "http://gallery" src) = [1] ∧
      s.server.db.catalogue.pictures.vals = [⟨"Bridge", "bridge.jpg", 0⟩,
        ⟨"http://web/a.png", "a.png", 1⟩, ⟨"http://web/a.png", "a.png", 2⟩] := by
  intro src
  have hrun : ∃ s, (parserPage none "http://gallery" src 2 (.ofDatabase .sample)).ReachableWithin
      (AnyOrder fun _ r => r.route.admin = false) s ∧ s.replies = [] ∧ s.handled =
        [⟨0, ["Cities"], some "a.png", 1⟩, ⟨0, [], some "a.png", 2⟩, ⟨1, [], none, 3⟩] :=
    ⟨_, .step (a := .deliver 0) (.step (a := .deliver 1) (.step (a := .deliver 2)
      (.step (a := .handle 0) (.step (a := .handle 0) (.step (a := .handle 0)
        (.step (a := .send ⟨1, [], none, 3⟩) (.step (a := .send ⟨0, [], some "a.png", 2⟩)
          (.step (a := .send ⟨0, ["Cities"], some "a.png", 1⟩)
            (.init (s := ⟨.ofDatabase .sample, [0, 1], [], [], []⟩) ⟨rfl, rfl, rfl, rfl, rfl⟩)
            trivial rfl) trivial rfl) trivial rfl) trivial rfl) trivial rfl) trivial rfl)
      trivial rfl) trivial rfl) trivial rfl, rfl, rfl⟩
  obtain ⟨s, hs, hreplies, hhandled⟩ := hrun
  obtain ⟨hboxes, hpictures, -⟩ :=
    parser_page_stores none "http://gallery" src 2 (.ofDatabase .sample) (.init rfl) (.inl rfl) s hs
  rw [hhandled] at hboxes hpictures
  exact ⟨s, hreplies, hboxes.trans (by decide), hpictures.trans (by decide)⟩

end Gallery
