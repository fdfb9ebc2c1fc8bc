import Gallery.Model.Records
import Gallery.Semantics.Loop
import Gallery.Store.Intern

/-!
# The seed task

`rake show` walks through the folders of `db/seed/pic_dir` and stores every file as a
picture in the category named after its folder. What the file system has, and what
CarrierWave makes of a file, are given; the task takes folders and files in the order in
which the file system lists them. A folder within a folder ends the task: it can be opened,
but not copied. What CarrierWave writes to disk is no part of the world.

## Main definitions

* `SeedContent`, `SeedFile`, `SeedEntry` — the directory
* `Rake.save`, `Rake.folder`, `Rake.show` — the task
-/

namespace Gallery

open Store Rails App Semantics

/-- How the task can end early. -/
inductive RakeFailure
  /-- An entry of the directory is no directory itself. -/
  | ENOTDIR
  /-- An entry of a folder is a directory, which CarrierWave cannot copy. -/
  | EISDIR
  /-- Pictures are created through a category that has not been saved. -/
  | RecordNotSaved
  | raised (e : Raised)
deriving DecidableEq, Repr

/-- Code of a task. -/
abbrev Rake := Action RakeFailure World

/-- Application code run by a task. -/
def Rake.app {α : Type} (m : App α) : Rake α := ExceptT.adapt .raised m

/-- What `File.open` finds: a file, with the name under which CarrierWave stores it if it can
be processed, or a directory. -/
inductive SeedContent
  | file (filename : Option String)
  | directory
deriving DecidableEq, Repr

/-- What `Dir.foreach` yields in a folder: a name, what is found there, and the time at which
the task gets to it. -/
structure SeedFile where
  name : String
  content : SeedContent
  now : Time
deriving DecidableEq, Repr

/-- What `Dir.glob` yields: a name, and what is in it if it is a folder. -/
structure SeedEntry where
  name : String
  files : Option (List SeedFile)
deriving DecidableEq, Repr

/-- `Category.find_or_create_by_name`, `none` if the new category is not valid. -/
def Category.find_or_create_by_name (name : String) : App (Option Id) := do
  match (← database).categories.named Category.name name with
  | some c => return some c.id
  | none => Category.create (some name)

namespace Rake

/-- `save(file, category)` -/
def save (file : SeedFile) (category : String) : Rake Unit := do
  match ← app (Category.find_or_create_by_name category) with
  | none => throw .RecordNotSaved
  | some cat =>
    match file.content with
    | .file filename =>
      let _ ← app (Picture.create (some file.name) filename [cat] file.now)
      return ()
    | .directory => throw .EISDIR

/-- One pass of `folder.each`. The length keeps `.` and `..` out, and every file whose name
has less than three characters. -/
def folder (category : SeedEntry) : Rake Unit :=
  match category.files with
  | none => throw .ENOTDIR
  | some files => files.forM fun file =>
    if file.name.length ≥ 3 then save file category.name else pure ()

end Rake

/-- `rake show` -/
def Rake.show (folders : List SeedEntry) : Rake Unit := folders.forM Rake.folder

/-! ### What a file becomes -/

/-- The picture that a file is stored as, if it is valid. -/
def SeedFile.picture? (file : SeedFile) : Option Picture :=
  match file.content with
  | .file (some f) =>
    if Picture.valid (some file.name) (some f) then some ⟨file.name, f, file.now, file.now⟩
    else none
  | .file none | .directory => none

/-- A file whose name fits, not a directory. -/
def SeedFile.storable (file : SeedFile) : Bool :=
  match file.content with
  | .file filename => filename.all fitsString
  | .directory => false

/-- The calls of `save` for the files of a folder. -/
def SeedFile.saves (category : String) (files : List SeedFile) : List (String × SeedFile) :=
  (files.filter fun file => file.name.length ≥ 3).map fun file => (category, file)

/-- The calls of `save` for a folder. -/
def SeedEntry.saves (folder : SeedEntry) : List (String × SeedFile) :=
  SeedFile.saves folder.name (folder.files.getD [])

/-- A folder with a name that a category can have, and nothing to save in it but files whose
names fit. -/
structure SeedEntry.Storable (folder : SeedEntry) : Prop where
  directory : folder.files.isSome
  name : blank? folder.name = false ∧ fitsString folder.name = true
  files : ∀ s ∈ folder.saves, s.2.storable = true

instance (folder : SeedEntry) : Decidable folder.Storable :=
  decidable_of_iff (folder.files.isSome ∧
    (blank? folder.name = false ∧ fitsString folder.name = true) ∧
      ∀ s ∈ folder.saves, s.2.storable = true)
    ⟨fun h => ⟨h.1, h.2.1, h.2.2⟩, fun h => ⟨h.directory, h.name, h.files⟩⟩

/-! ### The statements of `save` -/

section Save

variable {w : World} {now : Time}

theorem exec_rake_app {α : Type} (m : App α) (w : World) :
    Action.exec (Rake.app m) w = ((Action.exec m w).1.mapError .raised, (Action.exec m w).2) :=
  Action.exec_adapt _ _ _

theorem exec_find_or_create_category {name : String} (hblank : blank? name = false)
    (hfits : fitsString name = true) :
    Action.exec (Category.find_or_create_by_name name) w =
      (.ok (some (w.db.categories.findOrInsert Category.name ⟨name⟩).1.id),
        { w with
          db := { w.db with
            categories := (w.db.categories.findOrInsert Category.name ⟨name⟩).2 } }) := by
  rw [Category.find_or_create_by_name, Action.exec_bind, exec_database]
  dsimp only
  rcases Option.eq_none_or_eq_some (w.db.categories.named Category.name name) with h | ⟨c, h⟩
  · rw [Table.findOrInsert_of_none h, h]
    simp [Category.create, hblank, hfits]
  · rw [Table.findOrInsert_of_some h, h]
    rfl

end Save

end Gallery
