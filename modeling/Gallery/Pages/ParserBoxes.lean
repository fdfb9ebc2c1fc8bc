import Gallery.Controllers.Personal
import Gallery.Semantics.Exchange
import Gallery.Store.Join

/-!
# Picking images on the parser page

Each box of the parser page has an image and a check box for every category. A click on the
image sends its address and the categories ticked; the box goes when the reply says that the
picture has been stored, and stays for good otherwise.

## Main definitions

* `BoxClick`, `BoxClick.request` — a click, and the request it sends
* `parserPage` — the boxes of a page, next to the server
* `BoxClick.exhibit?` — the picture that a click is there to store
-/

namespace Gallery

open Store Rails App Semantics

/-- A click on the image of a box: the categories ticked, the name under which CarrierWave
stores what the server fetches from the address, if that is an image, and the time at which
the server gets to it. -/
structure BoxClick where
  box : ℕ
  categories : List String
  filename : Option String
  now : Time
deriving DecidableEq, Repr

/-- The reply to a click: the box, and whether the request succeeded. -/
structure BoxReply where
  box : ℕ
  success : Bool
deriving DecidableEq, Repr

/-- `url: "/admin/parser/create_picture"`, sent by an administrator whose browser may be
signed in as a user beside. `src` says which address the image of a box has. -/
def BoxClick.request (session : Option Id) (origin : String) (src : ℕ → String) (c : BoxClick) :
    Request :=
  ⟨session, origin ++ "/admin/parser/create_picture", c.now,
    .admin_parser_create_picture (src c.box) c.filename c.categories⟩

/-- `$(event.currentTarget).parent().remove()`, when the request has succeeded. The boxes
on the page are told apart by their numbers. -/
def BoxReply.show (boxes : List ℕ) (reply : BoxReply) : List ℕ :=
  if reply.success then boxes.filter fun i => i ≠ reply.box else boxes

/-- A page of the parser. Elsewhere the server handles other requests. -/
def ParserPage.service (session : Option Id) (origin : String) (src : ℕ → String) :
    Service World (List ℕ) BoxClick BoxReply Request where
  handle w c :=
    let run := Action.exec (c.request session origin src).run w
    (run.2, ⟨c.box, run.1.toOption.isSome⟩)
  apply := BoxReply.show
  sends boxes c := c.box ∈ boxes
  elsewhere w r := (Action.exec r.run w).2

/-- The page has loaded with `n` boxes, from the server in the world `w₀`. -/
def parserPage (session : Option Id) (origin : String) (src : ℕ → String) (n : ℕ) (w₀ : World) :
    System (Exchange World (List ℕ) BoxClick BoxReply) (ExchangeStep BoxClick Request) :=
  exchange (ParserPage.service session origin src) fun s =>
    s.server = w₀ ∧ s.view = List.range n ∧ s.sent = [] ∧ s.replies = [] ∧ s.handled = []

/-- The picture that a click is there to store, if the image could be fetched and the
picture is valid. -/
def BoxClick.exhibit? (src : ℕ → String) (c : BoxClick) : Option Exhibit :=
  c.filename.bind fun f =>
    if Picture.valid (some (src c.box)) (some f) && fitsString f then some ⟨src c.box, f, c.now⟩
    else none

/-- A picture, but for the time it was last touched. -/
def Picture.exhibit (p : Row Picture) : Exhibit := ⟨p.val.title, p.val.filename, p.val.created_at⟩

/-- What a category shows, but for the times its pictures were touched. -/
def Catalogue.shelf (c : Catalogue) (category : Id) : List Exhibit :=
  c.picture_categories.joined PictureCategory.picture_id PictureCategory.category_id c.pictures
    category

/-- The join table refers to keys that have been handed out. -/
def Catalogue.Linked (c : Catalogue) : Prop :=
  Links c.picture_categories PictureCategory.picture_id PictureCategory.category_id c.pictures
    c.categories

end Gallery
