import Gallery.Controllers.Server
import Gallery.Controllers.Task
import Gallery.Pages.Listing
import Gallery.Store.Join
import Gallery.Store.Toggle

/-!
# What seeding adds

The seed task finds a category again and stores a picture anew. So however often it runs,
on whatever directories, every folder is one category, and every file is a picture there as
often as the task has come by; what the gallery had before stays as it was, and nobody is
told. (On disk it does not: CarrierWave writes over files of one name.)

## Main definitions

* `Database.shelf` — the pictures of a category
* `Linked` — the join table refers to keys that have been handed out
* `Stocked` — what some files have added to a world

## Main results

* `linked_of_reachable` — requests keep the join table linked
* `Stocked.save`, `Stocked.show` — one file, and one run
* `seeding` — any number of runs
-/

namespace Gallery

open Store Rails App Semantics

/-- The pictures of a category, in the order in which they have been joined to it. -/
def Database.shelf (db : Database) (category : Id) : List Picture :=
  (Category.pictures db (db.categories.find? category)).rows.map Row.val

/-- The pictures that are joined to a key, whether or not a category has it. -/
def Database.joined (db : Database) (category : Id) : List Picture :=
  db.picture_categories.joined PictureCategory.picture_id PictureCategory.category_id db.pictures
    category

/-- The join table refers to keys that have been handed out. -/
abbrev Linked (db : Database) : Prop :=
  Links db.picture_categories PictureCategory.picture_id PictureCategory.category_id db.pictures
    db.categories

/-- No picture is in a category yet. -/
def Unlinked (w : World) : Prop := w.db.picture_categories.rows = []

/-- A run of the task. -/
def World.seeded (w : World) (folders : List SeedEntry) : World :=
  (Action.exec (Rake.show folders) w).2

/-! ### The join table -/

section Links

variable {db : Database} {w w' : World} {now : Time} {i : Id}

theorem shelf_of_has (h : db.categories.Has i) : db.shelf i = db.joined i := by
  obtain ⟨c, hc⟩ := Table.has_iff_exists_find?.mp h
  have hid : c.id = i := (Table.find?_eq_some_iff.mp hc).2
  simp [Database.shelf, Database.joined, Table.joined, Category.pictures, hc, hid]

theorem shelf_of_not_has (h : ¬ db.categories.Has i) : db.shelf i = [] := by
  have hnone : db.categories.find? i = none :=
    Option.eq_none_iff_forall_ne_some.mpr fun c hc => h (Table.has_of_find?_eq_some hc)
  simp [Database.shelf, Category.pictures, hnone]

/-- A picture that is stored comes last in its category. -/
theorem joined_addPicture (h : Linked db) (t f : String) (k : Id) (now : Time) (i : Id) :
    (db.addPicture t f [k] now).joined i =
      db.joined i ++ if k = i then [⟨t, f, now, now⟩] else [] := by
  have hjoined := h.joined_insert (⟨t, f, now, now⟩ : Picture)
    (fun c => ⟨db.pictures.next, c⟩) (fun _ => rfl) (fun _ => rfl) [k] i
  rw [List.count_singleton] at hjoined
  refine hjoined.trans (congrArg (db.joined i ++ ·) ?_)
  by_cases hk : k = i <;> simp [hk]

theorem joined_eq_nil (h : Linked db) (hi : db.categories.next ≤ i) : db.joined i = [] :=
  Links.joined_eq_nil h hi

theorem linked_addPicture (h : Linked db) {t f : String} {ids : List Id}
    (hids : ∀ c ∈ ids, db.categories.Has c) : Linked (db.addPicture t f ids now) :=
  h.insert (fun c => ⟨db.pictures.next, c⟩) (fun _ => rfl) (fun _ => rfl) hids

/-- A picture is joined to categories that were found. -/
theorem linked_outcome {route : Route} {user : Option (Row User)} {res : Except Raised Response}
    (ho : Outcome now w route user res w') (h : Linked w.db) : Linked w'.db := by
  cases ho with
  | quiet _ _ hdb => rwa [hdb]
  | picture_created _ _ hids hdb =>
    rw [hdb]
    exact linked_addPicture h hids
  | category_created =>
    exact h.later (Table.later_insert _)
  | commented _ _ hdb | messaged _ _ _ hdb =>
    rw [hdb]
    exact ⟨h.left, h.right⟩
  | _ => exact ⟨h.left, h.right⟩

theorem linked_of_reachable (h : (server Unlinked).Reachable w) : Linked w.db := by
  refine System.Reachable.invariant (P := fun w => Linked w.db) h ?_ ?_
  · intro w hw
    have hrows : w.db.picture_categories.rows = [] := hw
    exact ⟨by simp [hrows], by simp [hrows]⟩
  · intro w r w' h hstep
    obtain rfl := server_step.mp hstep
    have henter : Linked (r.enter w.db) :=
      Request.enter_rule (P := Linked) h (fun _ _ _ _ => ⟨h.left, h.right⟩)
        (fun _ _ => ⟨h.left, h.right⟩) fun _ _ h => ⟨h.left, h.right⟩
    rcases run_cases r w with ⟨-, hrun⟩ | ⟨-, ho⟩
    · rwa [hrun]
    · exact linked_outcome ho henter

end Links

/-! ### One file -/

/-- What `save` leaves when nothing raises. -/
def Database.save (db : Database) (category : String) (file : SeedFile) : Database :=
  let cat := (db.categories.findOrInsert Category.name ⟨category⟩).1
  let found := { db with categories := (db.categories.findOrInsert Category.name ⟨category⟩).2 }
  match file.picture? with
  | some p => found.addPicture p.title p.filename [cat.id] file.now
  | none => found

theorem exec_save_file {category : String} {file : SeedFile} (hblank : blank? category = false)
    (hfits : fitsString category = true) (hfile : file.storable = true) (w : World) :
    Action.exec (Rake.save file category) w =
      (.ok (), { w with db := w.db.save category file }) := by
  rw [Rake.save, Action.exec_bind, exec_rake_app, exec_find_or_create_category hblank hfits]
  unfold SeedFile.storable at hfile
  unfold Database.save SeedFile.picture?
  match hcontent : file.content with
  | .directory => simp [hcontent] at hfile
  | .file none => simp [Except.mapError, exec_rake_app, exec_picture_create]
  | .file (some f) =>
    have hfits : fitsString f = true := by simpa [hcontent] using hfile
    by_cases hvalid : Picture.valid (some file.name) (some f)
    · simp [Except.mapError, exec_rake_app, exec_picture_create, hvalid, hfits]
    · simp [Except.mapError, exec_rake_app, exec_picture_create, hvalid]

/-- A folder within a folder ends the task, with the category stored. -/
theorem exec_save_directory {category : String} {file : SeedFile}
    (hblank : blank? category = false) (hfits : fitsString category = true)
    (hfile : file.content = .directory) (w : World) :
    Action.exec (Rake.save file category) w = (.error .EISDIR, { w with
      db := { w.db with
        categories := (w.db.categories.findOrInsert Category.name ⟨category⟩).2 } }) := by
  rw [Rake.save, Action.exec_bind, exec_rake_app, exec_find_or_create_category hblank hfits]
  simp only [hfile]
  rfl

/-- What some files have added to the world `w₀`: the categories of their folders, and the
pictures, each in the category of its folder. -/
structure Stocked (w₀ : World) (saves : List (String × SeedFile)) (w : World) : Prop where
  linked : Linked w.db
  later : w₀.db.categories.Later w.db.categories
  distinct : (w.db.categories.names Category.name).Nodup
  names : w.db.categories.names Category.name =
    (saves.map Prod.fst).foldl intern (w₀.db.categories.names Category.name)
  pictures : w.db.pictures.vals = w₀.db.pictures.vals ++ saves.filterMap fun s => s.2.picture?
  joined : ∀ c ∈ w.db.categories.rows, w.db.joined c.id = w₀.db.joined c.id ++
    (saves.filter fun s => s.1 = c.val.name).filterMap fun s => s.2.picture?
  rest : ∃ categories pictures picture_categories, w = { w₀ with
    db := { w₀.db with
      categories := categories, pictures := pictures, picture_categories := picture_categories } }

section Save

variable {w₀ w : World} {saves : List (String × SeedFile)} {db : Database} {category : String}
variable {file : SeedFile} {i : Id}

theorem SeedFile.picture?_eq {p : Picture} (h : file.picture? = some p) :
    p = ⟨p.title, p.filename, file.now, file.now⟩ := by
  unfold SeedFile.picture? at h
  match hcontent : file.content with
  | .directory | .file none => simp [hcontent] at h
  | .file (some f) =>
    obtain ⟨-, rfl⟩ : _ ∧ (⟨file.name, f, file.now, file.now⟩ : Picture) = p := by
      simpa [hcontent] using h
    rfl

@[simp] theorem save_categories : (db.save category file).categories =
    (db.categories.findOrInsert Category.name ⟨category⟩).2 := by
  unfold Database.save
  cases file.picture? <;> rfl

theorem save_pictures :
    (db.save category file).pictures.vals = db.pictures.vals ++ file.picture?.toList := by
  unfold Database.save
  cases hp : file.picture? with
  | none => simp
  | some p => simp [Database.addPicture, ← SeedFile.picture?_eq hp]

theorem linked_found (h : Linked db) (category : String) : Linked
    { db with categories := (db.categories.findOrInsert Category.name ⟨category⟩).2 } :=
  h.later Table.later_findOrInsert

theorem linked_save (h : Linked db) : Linked (db.save category file) := by
  obtain ⟨hmem, -⟩ := Table.findOrInsert_mem db.categories Category.name ⟨category⟩
  unfold Database.save
  cases file.picture? with
  | none => exact linked_found h category
  | some p =>
    exact linked_addPicture (linked_found h category) (by simpa using Table.Has.intro hmem)

theorem joined_save (h : Linked db) : (db.save category file).joined i = db.joined i ++
    if (db.categories.findOrInsert Category.name ⟨category⟩).1.id = i then file.picture?.toList
    else [] := by
  unfold Database.save
  cases hp : file.picture? with
  | none =>
    simp
    rfl
  | some p =>
    have hjoined := joined_addPicture (linked_found h category) p.title p.filename
      (db.categories.findOrInsert Category.name ⟨category⟩).1.id file.now i
    rw [← SeedFile.picture?_eq hp] at hjoined
    exact hjoined

/-- Names that differ belong to different keys, and the other way round. -/
theorem id_findOrInsert_eq_iff (hnames : (db.categories.names Category.name).Nodup)
    {c : Row Category}
    (hc : c ∈ (db.categories.findOrInsert Category.name ⟨category⟩).2.rows) :
    (db.categories.findOrInsert Category.name ⟨category⟩).1.id = c.id ↔ category = c.val.name := by
  obtain ⟨hmem, hname⟩ := Table.findOrInsert_mem db.categories Category.name ⟨category⟩
  have hdistinct : ((db.categories.findOrInsert Category.name ⟨category⟩).2.names
      Category.name).Nodup := by
    rw [Table.names_findOrInsert]
    exact nodup_intern hnames
  constructor
  · intro hid
    rw [← Table.eq_of_id_eq hmem hc hid, hname]
  · intro hcategory
    exact congrArg Row.id (List.inj_on_of_nodup_map hdistinct hmem hc (hname.trans hcategory))

/-- One file. -/
theorem Stocked.save (h₀ : Linked w₀.db) (h : Stocked w₀ saves w) (category : String)
    (file : SeedFile) :
    Stocked w₀ (saves ++ [(category, file)]) { w with db := w.db.save category file } where
  linked := linked_save h.linked
  later := by
    rw [save_categories]
    exact h.later.trans Table.later_findOrInsert
  distinct := by
    rw [save_categories, Table.names_findOrInsert]
    exact nodup_intern h.distinct
  names := by
    rw [save_categories, Table.names_findOrInsert, h.names, List.map_append, List.foldl_append]
    rfl
  pictures := by
    rw [save_pictures, h.pictures, List.filterMap_append, List.append_assoc]
    cases hp : file.picture? <;> simp [hp]
  joined := by
    rw [save_categories]
    intro c hc
    have hsame : w.db.joined c.id = w₀.db.joined c.id ++
        (saves.filter fun s => s.1 = c.val.name).filterMap fun s => s.2.picture? := by
      rcases Table.mem_findOrInsert hc with hc | ⟨rfl, hnew⟩
      · exact h.joined c hc
      -- a category that is new has nothing, and nothing has been saved in it
      · have hnone : saves.filter (fun s => s.1 = category) = [] := by
          refine List.filter_eq_nil_iff.mpr fun s hs hcategory => hnew ?_
          rw [h.names, mem_foldl_intern]
          exact .inr (List.mem_map.mpr ⟨s, hs, by simpa using hcategory⟩)
        rw [joined_eq_nil h.linked le_rfl, joined_eq_nil h₀ h.later.next, hnone]
        rfl
    rw [joined_save h.linked, hsame, List.append_assoc, List.filter_append, List.filterMap_append]
    congr 2
    by_cases hcategory : category = c.val.name
    · rw [if_pos ((id_findOrInsert_eq_iff h.distinct hc).mpr hcategory)]
      cases hp : file.picture? <;> simp [hp, hcategory]
    · rw [if_neg (mt (id_findOrInsert_eq_iff h.distinct hc).mp hcategory)]
      simp [hcategory]
  rest := by
    obtain ⟨categories, pictures, picture_categories, hw⟩ := h.rest
    unfold Database.save
    cases file.picture? with
    | none => exact ⟨_, _, _, by rw [hw]⟩
    | some p => exact ⟨_, _, _, by rw [hw]; rfl⟩

end Save

/-! ### Runs -/

section Runs

variable {w₀ w : World} {saves : List (String × SeedFile)}

theorem Stocked.init (h : Linked w.db) (hnames : (w.db.categories.names Category.name).Nodup) :
    Stocked w [] w where
  linked := h
  later := .refl _
  distinct := hnames
  names := rfl
  pictures := by simp
  joined := by simp
  rest := ⟨_, _, _, rfl⟩

/-- One folder: a loop over what is in it. -/
theorem Stocked.folder (h₀ : Linked w₀.db) (h : Stocked w₀ saves w) {folder : SeedEntry}
    (hfolder : folder.Storable) : ∃ w', Action.exec (Rake.folder folder) w = (.ok (), w') ∧
      Stocked w₀ (saves ++ folder.saves) w' := by
  obtain ⟨name, files⟩ := folder
  obtain ⟨hdirectory, ⟨hblank, hfits⟩, hfiles⟩ := hfolder
  obtain ⟨files, rfl⟩ := Option.isSome_iff_exists.mp hdirectory
  refine Action.exec_forM (fun done w => Stocked w₀ (saves ++ SeedFile.saves name done) w)
    (by simpa [SeedFile.saves] using h) fun done file w hfile hw => ?_
  by_cases hlength : file.name.length ≥ 3
  · refine ⟨{ w with db := w.db.save name file }, ?_, ?_⟩
    · rw [if_pos hlength]
      exact exec_save_file hblank hfits (hfiles (name, file) (by simp [SeedEntry.saves,
        SeedFile.saves, hfile, hlength])) w
    · simpa [SeedFile.saves, hlength] using hw.save h₀ name file
  · refine ⟨w, by rw [if_neg hlength]; rfl, ?_⟩
    simpa [SeedFile.saves, hlength] using hw

/-- One run of the task: a loop over the folders. -/
theorem Stocked.show (h₀ : Linked w₀.db) (h : Stocked w₀ saves w) {folders : List SeedEntry}
    (hfolders : ∀ folder ∈ folders, folder.Storable) :
    Action.exec (Rake.show folders) w = (.ok (), w.seeded folders) ∧
      Stocked w₀ (saves ++ folders.flatMap SeedEntry.saves) (w.seeded folders) := by
  obtain ⟨w', hrun, hw'⟩ : ∃ w', Action.exec (Rake.show folders) w = (.ok (), w') ∧
      Stocked w₀ (saves ++ folders.flatMap SeedEntry.saves) w' := by
    refine Action.exec_forM (fun done w => Stocked w₀ (saves ++ done.flatMap SeedEntry.saves) w)
      (by simpa using h) fun done folder w hfolder hw => ?_
    obtain ⟨w', hrun, hw'⟩ := hw.folder h₀ (hfolders folder hfolder)
    exact ⟨w', hrun, by simpa using hw'⟩
  have hseeded : w.seeded folders = w' := congrArg Prod.snd hrun
  rw [hseeded]
  exact ⟨hrun, hw'⟩

/-- Any number of runs. -/
theorem Stocked.runs (h₀ : Linked w₀.db) (h : Stocked w₀ saves w) {runs : List (List SeedEntry)}
    (hruns : ∀ folders ∈ runs, ∀ folder ∈ folders, folder.Storable) :
    Stocked w₀ (saves ++ runs.flatMap fun folders => folders.flatMap SeedEntry.saves)
      (runs.foldl World.seeded w) := by
  induction runs generalizing saves w with
  | nil => simpa using h
  | cons folders runs ih =>
    have hfirst := (h.show h₀ (hruns folders List.mem_cons_self)).2
    have hrest := ih hfirst fun folders hfolders => hruns folders (List.mem_cons_of_mem _ hfolders)
    simpa using hrest

/-- Between two states of one gallery, the pictures of a category are those that are joined to
its key. -/
theorem Stocked.shelf (h₀ : Linked w₀.db) (h : Stocked w₀ saves w) {c : Row Category}
    (hc : c ∈ w.db.categories.rows) : w.db.shelf c.id = w₀.db.shelf c.id ++
      (saves.filter fun s => s.1 = c.val.name).filterMap fun s => s.2.picture? := by
  have hold : w₀.db.shelf c.id = w₀.db.joined c.id := by
    by_cases hhas : w₀.db.categories.Has c.id
    · exact shelf_of_has hhas
    · have hnew : w₀.db.categories.next ≤ c.id := by
        by_contra hlt
        exact hhas (h.later.has c.id (not_le.mp hlt) (.intro hc))
      rw [shelf_of_not_has hhas, joined_eq_nil h₀ hnew]
  rw [shelf_of_has (.intro hc), hold, h.joined c hc]

end Runs

/-- From any state that requests have led to, as long as no two categories have one name:
however often the task runs, and on whatever folders of plain files, each folder that has a
file to save becomes a category unless there is one of that name, every file that is a valid
picture becomes one each time and is joined to the category of its folder, after all that are
in it already, and nothing else of the database changes. Another run on a directory seeded
before completes and finds every category. -/
theorem seeding (w : World) (hw : (server Unlinked).Reachable w)
    (hnames : (w.db.categories.names Category.name).Nodup) (runs : List (List SeedEntry))
    (hruns : ∀ folders ∈ runs, ∀ folder ∈ folders, folder.Storable) :
    let w' := runs.foldl World.seeded w
    let saves := runs.flatMap fun folders => folders.flatMap SeedEntry.saves
    w'.db.categories.names Category.name =
        (saves.map Prod.fst).foldl intern (w.db.categories.names Category.name) ∧
      w'.db.pictures.vals = w.db.pictures.vals ++ saves.filterMap (fun s => s.2.picture?) ∧
      (∀ c ∈ w'.db.categories.rows, w'.db.shelf c.id = w.db.shelf c.id ++
        (saves.filter fun s => s.1 = c.val.name).filterMap fun s => s.2.picture?) ∧
      (∃ categories pictures picture_categories, w' = { w with
        db := { w.db with
          categories := categories, pictures := pictures
          picture_categories := picture_categories } }) ∧
      ∀ folders ∈ runs, (Action.exec (Rake.show folders) w').1 = .ok () ∧
        (w'.seeded folders).db.categories.names Category.name =
          w'.db.categories.names Category.name := by
  intro w' saves
  have hlinked := linked_of_reachable hw
  have hstocked : Stocked w saves w' := (Stocked.init hlinked hnames).runs hlinked hruns
  refine ⟨hstocked.names, hstocked.pictures, fun c hc => hstocked.shelf hlinked hc,
    hstocked.rest, fun folders hfolders => ?_⟩
  obtain ⟨hrun, hagain⟩ := hstocked.show hlinked (hruns folders hfolders)
  refine ⟨by rw [hrun], ?_⟩
  rw [hagain.names, hstocked.names, List.map_append, List.foldl_append]
  refine foldl_intern_of_subset fun name hname => mem_foldl_intern.mpr (.inr ?_)
  obtain ⟨s, hs, rfl⟩ := List.mem_map.mp hname
  exact List.mem_map_of_mem (List.mem_flatMap.mpr ⟨folders, hfolders, hs⟩)

/-- A folder for a category there is and one for a new category. -/
def SeedEntry.sample : List SeedEntry :=
  [⟨"Cities", some [⟨".", .directory, 1⟩, ⟨"..", .directory, 1⟩,
      ⟨"rome.jpg", .file (some "rome.jpg"), 1⟩]⟩,
    ⟨"Birds", some [⟨"owl.png", .file (some "owl.png"), 2⟩, ⟨"notes.txt", .file none, 2⟩]⟩]

/-- The task runs twice. -/
theorem seeding_twice :
    let w := World.ofDatabase .sample
    let w' := [SeedEntry.sample, SeedEntry.sample].foldl World.seeded w
    w'.db.categories.names Category.name = ["Cities", "Birds"] ∧
      w'.db.pictures.vals = w.db.pictures.vals ++
        [⟨"rome.jpg", "rome.jpg", 1, 1⟩, ⟨"owl.png", "owl.png", 2, 2⟩,
          ⟨"rome.jpg", "rome.jpg", 1, 1⟩, ⟨"owl.png", "owl.png", 2, 2⟩] ∧
      w'.db.shelf 1 = [⟨"rome.jpg", "rome.jpg", 1, 1⟩, ⟨"rome.jpg", "rome.jpg", 1, 1⟩] ∧
      (w'.seeded SeedEntry.sample).db.categories.names Category.name = ["Cities", "Birds"] := by
  intro w w'
  obtain ⟨hnames, hpictures, hshelves, -, hagain⟩ := seeding w (.init rfl) (by decide)
    [SeedEntry.sample, SeedEntry.sample] (by decide)
  have hcities : (⟨1, ⟨"Cities"⟩⟩ : Row Category) ∈ w'.db.categories.rows := by decide
  exact ⟨hnames.trans (by decide), hpictures.trans (by decide),
    (hshelves _ hcities).trans (by decide),
    (hagain _ List.mem_cons_self).2.trans (hnames.trans (by decide))⟩

end Gallery
