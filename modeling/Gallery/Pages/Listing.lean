import Gallery.Model.Schema
import Gallery.Rails.Values
import Gallery.Store.Paging

/-!
# The listings of pictures

`index` lists all pictures, `select` those of a category; both hand their
parameters to ransack's `search` and take pages of five with kaminari. A listing is
a query: its rows and what it orders them by. `search` keeps the rows its conditions
match and, when the parameters have sorts, orders by them instead of what the query
ordered by before.

## Main definitions

* `Search` — what the parameters say to ransack
* `Listing`, `Listing.search`, `Listing.order_by` — queries and how they are built
* `PicturesController.index`, `PicturesController.select` — the two listings
* `Listing.Partitioned` — the pages show every picture once
-/

namespace Gallery

open Store Rails

/-- How the database compares texts. -/
abbrev Collation := RowOrder String

/-- The columns of `pictures`. Columns of associated tables are left out. -/
inductive SortColumn
  | id
  | title
  | filename
  | created_at
  | updated_at
deriving DecidableEq, Repr

/-- A sort, as in `s=title asc`. -/
structure SortBy where
  column : SortColumn
  desc : Bool
deriving DecidableEq, Repr

namespace SortColumn

/-- A column, in ascending order. -/
def order (collation : Collation) : SortColumn → RowOrder (Row Picture)
  | id => RowOrder.ascending.comap Row.id
  | title => collation.comap fun p => p.val.title
  | filename => collation.comap fun p => p.val.filename
  | created_at => RowOrder.ascending.comap fun p => p.val.created_at
  | updated_at => RowOrder.ascending.comap fun p => p.val.updated_at

end SortColumn

def SortBy.order (collation : Collation) (s : SortBy) : RowOrder (Row Picture) :=
  if s.desc then (s.column.order collation).flip else s.column.order collation

/-- Several sorts, each for the ties of those before it. -/
def SortBy.orders (collation : Collation) (sorts : List SortBy) : RowOrder (Row Picture) :=
  (sorts.map (SortBy.order collation)).foldr RowOrder.lex .any

/-- `created_at DESC` -/
def created_at_desc (collation : Collation) : RowOrder (Row Picture) :=
  SortBy.order collation ⟨.created_at, true⟩

/-- The parameters of a search. A condition on a picture's own columns leaves one row of
it or none; one that joins another table may leave several. -/
structure Search where
  hits : Row Picture → ℕ
  sorts : List SortBy

/-- The parameters that the search form and the sort links send: `title_cont`, which a
blank text leaves out, and one sort. -/
def Search.ofForm (ilike : String → String → Bool) (title_cont : Option String)
    (s : Option SortBy) : Search where
  hits p := if title_cont.all fun t => blank? t || ilike t p.val.title then 1 else 0
  sorts := s.toList

/-- A query for pictures: its rows, and what it orders them by. -/
structure Listing where
  rows : List (Row Picture)
  order : RowOrder (Row Picture)

namespace Listing

/-- `order(..)` -/
def order_by (l : Listing) (r : RowOrder (Row Picture)) : Listing :=
  { l with order := l.order.lex r }

/-- `search(..).result`, where the parameters may be missing. -/
def search (collation : Collation) (l : Listing) (q : Option Search) : Listing :=
  match q with
  | none => l
  | some q =>
    { rows := l.rows.flatMap fun p => List.replicate (q.hits p) p
      order := if q.sorts.isEmpty then l.order else SortBy.orders collation q.sorts }

end Listing

/-- `paginates_per 5` -/
def Picture.perPage : ℕ := 5

/-- `Picture` as a query. -/
def Picture.scoped (db : Database) : Listing := ⟨db.pictures.rows, .any⟩

/-- `category.pictures`, one row for each row of the join table. A category that was not
found is a new record, which has none. -/
def Category.pictures (db : Database) (category : Option (Row Category)) : Listing where
  rows := db.picture_categories.rows.filterMap fun pc =>
    if category.any fun c => pc.val.category_id = c.id then db.pictures.find? pc.val.picture_id
    else none
  order := .any

/-- The search parameters a request to a listing may carry. -/
structure ListingParams where
  q : Option Search
  id : Option Search

/-- `Picture.order("created_at DESC").page(params[:page]).search(params[:q])` -/
def PicturesController.index (collation : Collation) (db : Database) (params : ListingParams) :
    Listing :=
  ((Picture.scoped db).order_by (created_at_desc collation)).search collation params.q

/-- `category.pictures.search(params[:id])`, `.result.order("created_at DESC")` -/
def PicturesController.select (collation : Collation) (db : Database)
    (category : Option (Row Category)) (params : ListingParams) : Listing :=
  ((Category.pictures db category).search collation params.id).order_by (created_at_desc collation)

/-- Whatever the answers to the queries for the pages, together they show every picture
in scope once. -/
def Listing.Partitioned (l : Listing) : Prop :=
  ∀ answers : ℕ → List (Row Picture), (∀ k, l.order.Answers l.rows (answers k)) →
    (pages Picture.perPage (pageCount Picture.perPage l.rows.length) answers).Perm l.rows.dedup

end Gallery
