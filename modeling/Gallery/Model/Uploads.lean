import Gallery.Model.Records
import Gallery.Semantics.Transition
import Gallery.Store.Disk

/-!
# Uploaded pictures

`ImageUploader` and the paths that upload a file: the admin form, the parser
page, the seed task, and the replacement of a picture's file. Every picture's
files live in one directory, the main file under the sanitized name it was
uploaded with and its thumb under the same name after `thumb_`.

CarrierWave's sanitizing of names and RMagick's resizing are parameters. The
content a picture was last given is kept beside its row; the code has no such
column.

## Main definitions

* `ImageUploader.store_dir`, `ImageUploader.path` — where the files of a picture are
* `ImageUploader.delete_empty_upstream_dirs` — the callback after a removal
* `Gallery.uploads` — uploads, replacements and deletions as a transition system
-/

namespace Gallery

open Store Rails Semantics

/-- What CarrierWave and RMagick do to a name and to an image. -/
structure CarrierWave (Content : Type) where
  sanitize : String → String
  resize_to_fit : ℕ → ℕ → Content → Option Content

/-- The stored versions of a picture. -/
inductive Version
  | main
  | thumb
deriving DecidableEq, Repr

namespace ImageUploader

/-- `"uploads/#{model.class.to_s.underscore}/#{mounted_as}/all/"`: the same for every picture. -/
def store_dir : String := "uploads/picture/filename/all/"

/-- The path of a version of the picture stored under a name. -/
def path (filename : String) : Version → Path
  | .main => ⟨store_dir, filename⟩
  | .thumb => ⟨store_dir, "thumb_" ++ filename⟩

variable {Content : Type}

/-- `process :resize_to_fit => [150, 150]` -/
def thumb (cw : CarrierWave Content) (content : Content) : Option Content :=
  cw.resize_to_fit 150 150 content

/-- Stores both versions. -/
def store (disk : Disk Content) (filename : String) (content thumb : Content) : Disk Content :=
  (disk.write (path filename .main) content).write (path filename .thumb) thumb

/-- `delete_empty_upstream_dirs`, and whether it raises. Removing the directory
fails with a `SystemCallError`, which is rescued, unless it exists and is empty;
then the method goes on to `base_store_dir`, which nothing defines, and a
`NameError` is not rescued. -/
def delete_empty_upstream_dirs (disk : Disk Content) : Disk Content × Bool :=
  match disk.rmdir store_dir with
  | none => (disk, false)
  | some disk => (disk, true)

/-- `remove!`: both versions, then the callback. -/
def remove (disk : Disk Content) (filename : String) : Disk Content × Bool :=
  delete_empty_upstream_dirs ((disk.remove (path filename .main)).remove (path filename .thumb))

end ImageUploader

/-- The last part of an address that is not empty, as `split("/").last` finds it. -/
def Parser.original_filename (file_addr : String) : Option String :=
  let part := (file_addr.toList.reverse.dropWhile (· = '/')).takeWhile (· ≠ '/')
  if part.isEmpty then none else some (String.ofList part.reverse)

/-- Where a new picture comes from. -/
inductive Source
  | form (title : Option String) (original_filename : String)
  /-- The parser page: the address is the title. -/
  | parser (file_addr : String)
  /-- The seed task: the file's name is the title. -/
  | seed (file : String)
deriving DecidableEq, Repr

namespace Source

def title : Source → Option String
  | form title _ => title
  | parser file_addr => some file_addr
  | seed file => some file

def original_filename : Source → Option String
  | form _ name => some name
  | parser file_addr => Parser.original_filename file_addr
  | seed file => some file

end Source

/-- A picture as far as its files go: its row, and the content of the file last
uploaded for it. -/
structure Upload (Content : Type) where
  title : String
  filename : String
  content : Content
deriving DecidableEq, Repr

/-- The pictures, their files, and what the removals of old files have done: the
pictures on which one raised, and the files of other pictures that one removed. -/
structure Uploads (Content : Type) where
  pictures : Table (Upload Content)
  disk : Disk Content
  raised : List Id
  stolen : List Path

/-- An upload, a replacement of a picture's file, or a deletion of a picture. -/
inductive Upload.Step (Content : Type)
  | create (source : Source) (content : Content)
  | replace (id : Id) (original_filename : String) (content : Content)
  | destroy (id : Id)

namespace Uploads

variable {Content : Type} (cw : CarrierWave Content) (s : Uploads Content)

/-- The row and the thumb of an upload, if CarrierWave and the model's validations
accept it. -/
def accept (title original_filename : Option String) (content : Content) :
    Option (Upload Content × Content) :=
  match title, original_filename.map cw.sanitize, ImageUploader.thumb cw content with
  | some title, some name, some thumb =>
    if Picture.valid (some title) (some name) && fitsString name then
      some (⟨title, name, content⟩, thumb)
    else none
  | _, _, _ => none

/-- The files among `paths` that belong to a picture other than `id`. -/
def foreign (pictures : Table (Upload Content)) (id : Id) (paths : List Path) : List Path :=
  paths.filter fun p => pictures.rows.any fun r =>
    r.id ≠ id && (p = ImageUploader.path r.val.filename .main ||
      p = ImageUploader.path r.val.filename .thumb)

/-- Removes the files stored under a name on behalf of a picture. -/
def removeFiles (id : Id) (filename : String) : Uploads Content :=
  let (disk, raises) := ImageUploader.remove s.disk filename
  { s with
    disk := disk
    raised := s.raised ++ if raises then [id] else []
    stolen := s.stolen ++ foreign s.pictures id
      [ImageUploader.path filename .main, ImageUploader.path filename .thumb] }

/-- A new picture. -/
def create (source : Source) (content : Content) : Uploads Content :=
  match accept cw source.title source.original_filename content with
  | none => s
  | some (upload, thumb) =>
    { s with
      pictures := s.pictures.insert upload
      disk := ImageUploader.store s.disk upload.filename content thumb }

/-- A new file for a picture that was found: it is stored first, then the old
files are removed if their name differs. -/
def replaceFile (old : Row (Upload Content)) (upload : Upload Content) (thumb : Content) :
    Uploads Content :=
  let stored : Uploads Content :=
    { s with
      pictures := s.pictures.update fun r => if r.id = old.id then upload else r.val
      disk := ImageUploader.store s.disk upload.filename upload.content thumb }
  if upload.filename = old.val.filename then stored
  else stored.removeFiles old.id old.val.filename

/-- The edit form with a file. -/
def replace (id : Id) (original_filename : String) (content : Content) : Uploads Content :=
  match s.pictures.find? id with
  | none => s
  | some old =>
    match accept cw (some old.val.title) (some original_filename) content with
    | none => s
    | some (upload, thumb) => s.replaceFile old upload thumb

/-- The row goes, then its files. -/
def destroy (id : Id) : Uploads Content :=
  match s.pictures.find? id with
  | none => s
  | some old =>
    { s with pictures := s.pictures.delete fun r => r.id = id }.removeFiles id old.val.filename

end Uploads

/-- Uploads, replacements and deletions in any order, starting without pictures. The files
that are `shipped` have not been uploaded for any: the repository has some in the directory. -/
def uploads {Content : Type} (cw : CarrierWave Content) (shipped : Disk Content) :
    System (Uploads Content) (Upload.Step Content) where
  init s := s.pictures.rows = [] ∧ s.disk = shipped ∧ s.raised = [] ∧ s.stolen = []
  step s
    | .create source content => some (s.create cw source content)
    | .replace id original_filename content => some (s.replace cw id original_filename content)
    | .destroy id => some (s.destroy id)

end Gallery
