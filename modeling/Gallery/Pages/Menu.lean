import Gallery.Pages.Listing
import Gallery.Text.Navigation

/-!
# The menu of categories

Every page has a link for each category, `/pictures/category/` with the name of the
category behind it as it stands. The router reads a name off the path again, and the
action looks a category up by it.

## Main definitions

* `category_link` — the link
* `pictures_routes` — the routes of pictures for GET
* `Category.FindsByName` — what a query for a name may find
* `LinkWorks` — the link leads to the pictures of its category
* `PlainName` — the names that come through
-/

namespace Gallery

open Store Rails Text Text.Uri Text.Percent Text.Navigation

/-- `"/pictures/category/#\x7bcategory.name\x7d"` -/
def category_link (name : String) : List Char := "/pictures/category/".toList ++ name.toList

/-- The actions that a path of pictures leads to. -/
inductive PicturesAction
  | index
  | show
  | select
deriving DecidableEq, Repr

/-- The routes of pictures for GET, in their order. The paths of all other routes begin
with another name. -/
def pictures_routes : List (List Segment × PicturesAction) :=
  [([.static "pictures".toList, .dynamic "id"], .show),
    ([.static "pictures".toList, .static "category".toList, .dynamic "category"], .select),
    ([.static "pictures".toList, .static "page".toList, .dynamic "page"], .index),
    ([.static "pictures".toList, .static "category".toList, .dynamic "category",
      .dynamic "page"], .select),
    ([.static "pictures".toList], .index)]

/-- Where a link on a page leads. -/
def follow (page : Reference) (href : List Char) : Option (PicturesAction × Params) :=
  recognize pictures_routes (requestPath page href)

/-- `find_or_initialize_by_name`: some row with the name, or none if there is none. -/
def Category.FindsByName (categories : Table Category) (name : List UInt8)
    (found : Option (Row Category)) : Prop :=
  match found with
  | some c => c ∈ categories.rows ∧ utf8 c.val.name.toList = name
  | none => ∀ c ∈ categories.rows, utf8 c.val.name.toList ≠ name

/-- The link of a category leads to `select` with its name and no page, and the action
lists its pictures, whatever pictures there are and whichever row it finds by the name. -/
def LinkWorks (page : Reference) (categories : Table Category) (c : Row Category) : Prop :=
  ∃ params, follow page (category_link c.val.name) = some (.select, params) ∧
    params.lookup "category" = some (utf8 c.val.name.toList) ∧
    params.lookup "page" = none ∧
    ∀ db : Database, db.categories = categories → ∀ found,
      Category.FindsByName categories (utf8 c.val.name.toList) found → ∀ collation,
        (PicturesController.select collation db found ⟨none, none⟩).rows.Perm
          (Category.pictures db (some c)).rows

/-- A name without characters that end or divide a path, without an escape, and which
browsers do not clean. -/
structure PlainName (name : List Char) : Prop where
  chars : ∀ c ∈ name, c ∉ ['/', '\\', '.', '?', '#', '\t', '\n', '\r']
  last : ∀ c ∈ name.getLast?, ¬ c ≤ ' '
  escape : hasEscape name = false

end Gallery
