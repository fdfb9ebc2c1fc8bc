import Gallery.Model.Uploads

/-!
# Every picture keeps its own files

All pictures share one directory, so two of them have separate files only if
neither name is the other or the other after `thumb_`. As long as each upload is
clear of the pictures there are, and no deletion takes the last file of the directory,
every picture's files are those of its last upload.

## Main definitions

* `Clear` — two names whose files do not meet
* `Sound` — every picture has its own files, and no removal has gone wrong
* `Remains` — a removal that does not empty the directory
* `KeepsFiles` — the steps, in a given state, after which this is still so

## Main results

* `Sound.removeFiles`, `Sound.store` — the two halves of a step
* `sound_step`, `uploads_sound` — what a step keeps, and what a run keeps
-/

namespace Gallery

open Store Rails Semantics

/-- The files stored under two names do not meet. -/
def Clear (n m : String) : Prop := n ≠ m ∧ n ≠ "thumb_" ++ m ∧ "thumb_" ++ n ≠ m

instance (n m : String) : Decidable (Clear n m) :=
  inferInstanceAs (Decidable (n ≠ m ∧ n ≠ "thumb_" ++ m ∧ "thumb_" ++ n ≠ m))

theorem Clear.symm {n m : String} (h : Clear n m) : Clear m n :=
  ⟨h.1.symm, h.2.2.symm, h.2.1.symm⟩

/-- No name is its own thumb's. -/
theorem thumb_ne_self (n : String) : "thumb_" ++ n ≠ n := by
  intro h
  have hlength := congrArg String.length h
  rw [String.length_append] at hlength
  have hthumb : "thumb_".length = 6 := by decide
  omega

/-- Two names are clear of each other exactly if no version of one has the path of
a version of the other. -/
theorem clear_iff {n m : String} :
    Clear n m ↔ ∀ v v', ImageUploader.path n v ≠ ImageUploader.path m v' := by
  constructor
  · rintro ⟨hmain, hthumb, hthumb'⟩ v v' h
    cases v <;> cases v' <;> simp_all [ImageUploader.path]
  · intro h
    refine ⟨fun hn => ?_, fun hn => ?_, fun hn => ?_⟩
    · exact h .main .main (by rw [hn])
    · exact h .main .thumb (by simp [ImageUploader.path, hn])
    · exact h .thumb .main (by simp [ImageUploader.path, hn])

theorem path_version_injective {n : String} {v v' : Version}
    (h : ImageUploader.path n v = ImageUploader.path n v') : v = v' := by
  cases v <;> cases v' <;> simp_all [ImageUploader.path, (thumb_ne_self n).symm]

section

variable {Content : Type} {cw : CarrierWave Content}

/-- Every picture's stored files are those of the last file uploaded for it, each
version of each picture has its own path, and no removal has raised or taken
another picture's file. -/
structure Sound (cw : CarrierWave Content) (s : Uploads Content) : Prop where
  main : ∀ r ∈ s.pictures.rows,
    s.disk.read (ImageUploader.path r.val.filename .main) = some r.val.content
  thumb : ∀ r ∈ s.pictures.rows, ∃ t, ImageUploader.thumb cw r.val.content = some t ∧
    s.disk.read (ImageUploader.path r.val.filename .thumb) = some t
  injective : ∀ r ∈ s.pictures.rows, ∀ r' ∈ s.pictures.rows, ∀ v v',
    ImageUploader.path r.val.filename v = ImageUploader.path r'.val.filename v' → r = r' ∧ v = v'
  unraised : s.raised = []
  unstolen : s.stolen = []

/-- The directory has a file other than those stored under the name, of a picture or not. -/
def Remains (disk : Disk Content) (filename : String) : Prop :=
  ∃ f ∈ disk.files, f.1.dir = ImageUploader.store_dir ∧ ∀ v, f.1 ≠ ImageUploader.path filename v

/-- The steps that keep every picture's files: an accepted upload is clear of the
other pictures, and of the name it replaces unless it is the same; and a
deletion does not empty the directory. -/
def KeepsFiles (cw : CarrierWave Content) (s : Uploads Content) : Upload.Step Content → Prop
  | .create source content =>
    ∀ upload thumb,
      Uploads.accept cw source.title source.original_filename content = some (upload, thumb) →
        ∀ r ∈ s.pictures.rows, Clear upload.filename r.val.filename
  | .replace id original_filename content =>
    ∀ old, s.pictures.find? id = some old → ∀ upload thumb,
      Uploads.accept cw (some old.val.title) (some original_filename) content =
          some (upload, thumb) →
        (∀ r ∈ s.pictures.rows, r.id ≠ id → Clear upload.filename r.val.filename) ∧
          (upload.filename = old.val.filename ∨ Clear upload.filename old.val.filename)
  | .destroy id => ∀ old, s.pictures.find? id = some old → Remains s.disk old.val.filename

/-! ### The uploader -/

theorem read_store_of_clear {disk : Disk Content} {n m : String} {c t : Content} {v : Version}
    (h : Clear n m) :
    (ImageUploader.store disk n c t).read (ImageUploader.path m v) =
      disk.read (ImageUploader.path m v) := by
  simp [ImageUploader.store, clear_iff.mp h]

theorem read_store_main {disk : Disk Content} {n : String} {c t : Content} :
    (ImageUploader.store disk n c t).read (ImageUploader.path n .main) = some c := by
  have hne : ImageUploader.path n .thumb ≠ ImageUploader.path n .main :=
    fun h => absurd (path_version_injective h) (by decide)
  simp [ImageUploader.store, hne]

theorem read_store_thumb {disk : Disk Content} {n : String} {c t : Content} :
    (ImageUploader.store disk n c t).read (ImageUploader.path n .thumb) = some t := by
  simp [ImageUploader.store]

/-- Removing an empty directory changes no file. -/
theorem read_delete_empty_upstream_dirs (disk : Disk Content) (p : Path) :
    (ImageUploader.delete_empty_upstream_dirs disk).1.read p = disk.read p := by
  unfold ImageUploader.delete_empty_upstream_dirs
  split
  · rfl
  · next disk' h => exact Disk.read_rmdir h p

theorem read_remove_of_clear {disk : Disk Content} {n m : String} (h : Clear n m) (v : Version) :
    (ImageUploader.remove disk m).1.read (ImageUploader.path n v) =
      disk.read (ImageUploader.path n v) := by
  have hne := clear_iff.mp h v
  rw [ImageUploader.remove, read_delete_empty_upstream_dirs,
    Disk.read_remove_of_ne (hne .thumb).symm, Disk.read_remove_of_ne (hne .main).symm]

/-- While another file is there, the directory is not empty and the callback does not
raise. -/
theorem remove_quiet {disk : Disk Content} {n : String} (h : Remains disk n) :
    (ImageUploader.remove disk n).2 = false := by
  obtain ⟨f, hf, hdir, hne⟩ := h
  have hkept : f ∈ ((disk.remove (ImageUploader.path n .main)).remove
      (ImageUploader.path n .thumb)).files := by
    simp only [Disk.remove, List.mem_filter, decide_eq_true_eq]
    exact ⟨⟨hf, hne .main⟩, hne .thumb⟩
  have hstays : ((disk.remove (ImageUploader.path n .main)).remove
      (ImageUploader.path n .thumb)).rmdir ImageUploader.store_dir = none :=
    hdir ▸ Disk.rmdir_eq_none_of_mem hkept
  rw [ImageUploader.remove, ImageUploader.delete_empty_upstream_dirs, hstays]

/-- What has just been stored remains when a name it is clear of goes. -/
theorem remains_store {disk : Disk Content} {n m : String} {c t : Content} (h : Clear n m) :
    Remains (ImageUploader.store disk n c t) m :=
  ⟨(ImageUploader.path n .main, c), List.mem_cons_of_mem _ List.mem_cons_self, rfl,
    clear_iff.mp h .main⟩

/-! ### What a step keeps -/

variable {s : Uploads Content}

/-- Files of a picture whose name is clear of all others belong to nobody else. -/
theorem foreign_eq_nil {pictures : Table (Upload Content)} {i : Id} {m : String}
    (h : ∀ r ∈ pictures.rows, r.id ≠ i → Clear r.val.filename m) :
    Uploads.foreign pictures i [ImageUploader.path m .main, ImageUploader.path m .thumb] = [] := by
  rw [Uploads.foreign, List.filter_eq_nil_iff]
  intro p hp hforeign
  obtain ⟨r, hr, hcond⟩ := List.any_eq_true.mp hforeign
  simp only [Bool.and_eq_true, decide_eq_true_eq, Bool.or_eq_true] at hcond
  have hclear := clear_iff.mp (h r hr hcond.1)
  simp only [List.mem_cons, List.not_mem_nil, or_false] at hp
  rcases hp with rfl | rfl <;> rcases hcond.2 with hp | hp <;> exact hclear _ _ hp.symm

/-- Removing files under a name that no picture's files meet. -/
theorem Sound.removeFiles (h : Sound cw s) {id : Id} {m : String}
    (hclear : ∀ r ∈ s.pictures.rows, Clear r.val.filename m) (hremains : Remains s.disk m) :
    Sound cw (s.removeFiles id m) where
  main r hr := by
    rw [← h.main r hr]
    exact read_remove_of_clear (hclear r hr) .main
  thumb r hr := by
    obtain ⟨t, ht, hread⟩ := h.thumb r hr
    exact ⟨t, ht, (read_remove_of_clear (hclear r hr) .thumb).trans hread⟩
  injective := h.injective
  unraised := by simp [Uploads.removeFiles, remove_quiet hremains, h.unraised]
  unstolen := by
    have hnone := foreign_eq_nil (i := id) fun r hr _ => hclear r hr
    simp [Uploads.removeFiles, hnone, h.unstolen]

/-- Storing a picture's files under a name that is clear of the other pictures. -/
theorem Sound.store {pictures : Table (Upload Content)} {n : Row (Upload Content)} {t : Content}
    (h : Sound cw s) (hthumb : ImageUploader.thumb cw n.val.content = some t)
    (hrows : ∀ r ∈ pictures.rows, r = n ∨
      r ∈ s.pictures.rows ∧ Clear n.val.filename r.val.filename) :
    Sound cw { s with
      pictures := pictures
      disk := ImageUploader.store s.disk n.val.filename n.val.content t } where
  main r hr := by
    rcases hrows r hr with rfl | ⟨hr, hclear⟩
    · exact read_store_main
    · rw [← h.main r hr]
      exact read_store_of_clear hclear
  thumb r hr := by
    rcases hrows r hr with rfl | ⟨hr, hclear⟩
    · exact ⟨t, hthumb, read_store_thumb⟩
    · obtain ⟨t', ht', hread⟩ := h.thumb r hr
      exact ⟨t', ht', (read_store_of_clear hclear).trans hread⟩
  injective r hr r' hr' v v' hpath := by
    -- two new versions, a new and an old one, and two old ones
    rcases hrows r hr with rfl | ⟨hr, hclear⟩ <;> rcases hrows r' hr' with rfl | ⟨hr', hclear'⟩
    · exact ⟨rfl, path_version_injective hpath⟩
    · exact absurd hpath (clear_iff.mp hclear' v v')
    · exact absurd hpath.symm (clear_iff.mp hclear v' v)
    · exact h.injective r hr r' hr' v v' hpath
  unraised := h.unraised
  unstolen := h.unstolen

/-- The files of two pictures do not meet. -/
theorem Sound.clear (h : Sound cw s) {r r' : Row (Upload Content)} (hr : r ∈ s.pictures.rows)
    (hr' : r' ∈ s.pictures.rows) (hne : r ≠ r') : Clear r.val.filename r'.val.filename :=
  clear_iff.mpr fun v v' hpath => hne (h.injective r hr r' hr' v v' hpath).1

theorem thumb_of_accept {title name : Option String} {content t : Content}
    {upload : Upload Content} (h : Uploads.accept cw title name content = some (upload, t)) :
    upload.content = content ∧ ImageUploader.thumb cw upload.content = some t := by
  unfold Uploads.accept at h
  split at h
  · next title name thumb _ _ hthumb =>
    obtain ⟨-, heq⟩ := Option.ite_none_right_eq_some.mp h
    obtain ⟨rfl, rfl⟩ := Prod.mk.inj (Option.some.inj heq)
    exact ⟨rfl, hthumb⟩
  · simp at h

theorem sound_create (h : Sound cw s) {source : Source} {content : Content}
    (hkeeps : KeepsFiles cw s (.create source content)) :
    Sound cw (s.create cw source content) := by
  unfold Uploads.create
  split
  · exact h
  · next upload t haccept =>
    obtain ⟨rfl, hthumb⟩ := thumb_of_accept haccept
    refine h.store (n := ⟨s.pictures.next, upload⟩) hthumb fun r hr => ?_
    rcases List.mem_append.mp hr with hr | hr
    · exact .inr ⟨hr, hkeeps upload t haccept r hr⟩
    · exact .inl (List.mem_singleton.mp hr)

theorem sound_replaceFile (h : Sound cw s) {old : Row (Upload Content)} {upload : Upload Content}
    {t : Content} (hold : old ∈ s.pictures.rows)
    (hthumb : ImageUploader.thumb cw upload.content = some t)
    (hothers : ∀ r ∈ s.pictures.rows, r.id ≠ old.id → Clear upload.filename r.val.filename)
    (hself : upload.filename = old.val.filename ∨ Clear upload.filename old.val.filename) :
    Sound cw (s.replaceFile old upload t) := by
  have hrows : ∀ r ∈ (s.pictures.update fun r => if r.id = old.id then upload else r.val).rows,
      r = ⟨old.id, upload⟩ ∨ r ∈ s.pictures.rows ∧ r.id ≠ old.id := by
    intro r hr
    obtain ⟨r₀, hr₀, rfl⟩ := List.mem_map.mp hr
    by_cases hid : r₀.id = old.id
    · exact .inl (by simp [hid])
    · exact .inr (by simpa [hid] using hr₀)
  have hstored := h.store (n := ⟨old.id, upload⟩) hthumb fun r hr => (hrows r hr).imp_right
    fun hr => ⟨hr.1, hothers r hr.1 hr.2⟩
  unfold Uploads.replaceFile
  -- carrierwave removes the previous files unless they have just been overwritten
  split_ifs with hname
  · exact hstored
  · refine hstored.removeFiles (fun r hr => ?_) (remains_store (hself.resolve_left hname))
    rcases hrows r hr with rfl | ⟨hr, hid⟩
    · exact hself.resolve_left hname
    · exact h.clear hr hold fun heq => hid (by rw [heq])

theorem sound_replace (h : Sound cw s) {id : Id} {name : String} {content : Content}
    (hkeeps : KeepsFiles cw s (.replace id name content)) :
    Sound cw (s.replace cw id name content) := by
  unfold Uploads.replace
  split
  · exact h
  · next old hfind =>
    split
    · exact h
    · next upload t haccept =>
      obtain ⟨hold, hid⟩ := Table.find?_eq_some_iff.mp hfind
      obtain ⟨hothers, hself⟩ := hkeeps old hfind upload t haccept
      exact sound_replaceFile h hold (thumb_of_accept haccept).2 (hid ▸ hothers) hself

theorem sound_destroy (h : Sound cw s) {id : Id} (hkeeps : KeepsFiles cw s (.destroy id)) :
    Sound cw (s.destroy id) := by
  unfold Uploads.destroy
  split
  · exact h
  · next old hfind =>
    obtain ⟨hold, hid⟩ := Table.find?_eq_some_iff.mp hfind
    have hkept : ∀ r ∈ (s.pictures.delete fun r => r.id = id).rows,
        r ∈ s.pictures.rows ∧ r ≠ old := by
      intro r hr
      obtain ⟨hr, hne⟩ := List.mem_filter.mp hr
      refine ⟨hr, fun heq => ?_⟩
      simp [heq, hid] at hne
    have hrest : Sound cw { s with pictures := s.pictures.delete fun r => r.id = id } :=
      { main := fun r hr => h.main r (hkept r hr).1
        thumb := fun r hr => h.thumb r (hkept r hr).1
        injective := fun r hr r' hr' => h.injective r (hkept r hr).1 r' (hkept r' hr').1
        unraised := h.unraised
        unstolen := h.unstolen }
    refine hrest.removeFiles (fun r hr => ?_) (hkeeps old hfind)
    exact h.clear (hkept r hr).1 hold (hkept r hr).2

theorem sound_step (h : Sound cw s) {shipped : Disk Content} {label : Upload.Step Content}
    {t : Uploads Content} (hkeeps : KeepsFiles cw s label)
    (hstep : (uploads cw shipped).step s label = some t) : Sound cw t := by
  cases label with
  | create source content => exact Option.some.inj hstep ▸ sound_create h hkeeps
  | replace id name content => exact Option.some.inj hstep ▸ sound_replace h hkeeps
  | destroy id => exact Option.some.inj hstep ▸ sound_destroy h hkeeps

/-- In every state of a run whose steps keep every picture's files, each picture's
files are those of its last upload, whatever files were there before. -/
theorem uploads_sound (cw : CarrierWave Content) (shipped : Disk Content) (s : Uploads Content)
    (h : (uploads cw shipped).ReachableWithin (KeepsFiles cw) s) : Sound cw s := by
  refine System.ReachableWithin.invariant (P := Sound cw) h ?_ fun s label t hs hkeeps hstep =>
    sound_step hs hkeeps hstep
  rintro s ⟨hrows, -, hraised, hstolen⟩
  exact ⟨by simp [hrows], by simp [hrows], by simp [hrows], hraised, hstolen⟩

end

/-! ### Concrete runs -/

/-- Names that need no sanitizing, and images that all shrink. -/
def CarrierWave.plain : CarrierWave String := ⟨id, fun _ _ content => some ("small " ++ content)⟩

/-- One of the files of the repository. -/
def Uploads.shipped : Disk String :=
  Disk.empty.write ⟨ImageUploader.store_dir, "alc_1.jpg"⟩ "a bottle"

/-- No picture yet. -/
def Uploads.none : Uploads String := ⟨.empty, shipped, [], []⟩

theorem none_init : (uploads .plain Uploads.shipped).init .none := ⟨rfl, rfl, rfl, rfl⟩

/-- The only picture is deleted, and another one uploaded. -/
theorem uploads_sound_two : ∃ s : Uploads String, s.pictures.rows.length = 1 ∧ Sound .plain s := by
  refine ⟨_, ?_, uploads_sound .plain Uploads.shipped _
    (.step (a := .create (.parser "http://example.com/dog.jpg") "a dog") (.step (a := .destroy 1)
      (.step (a := .create (.form (some "A cat") "cat.jpg") "a cat") (.init none_init) ?_ rfl)
      ?_ rfl) ?_ rfl)⟩
  · decide
  · intro upload thumb _ r hr
    simp [Uploads.none] at hr
  · intro old hfind
    obtain rfl := Option.some.inj hfind
    refine ⟨(⟨ImageUploader.store_dir, "alc_1.jpg"⟩, "a bottle"), by decide, rfl, fun v => ?_⟩
    cases v <;> decide
  · intro upload thumb _ r hr
    exact absurd hr List.not_mem_nil

/-- Two pictures uploaded under one name: the first shows the second's file. -/
theorem same_name_overwrites :
    ∃ s : Uploads String, (uploads .plain Uploads.shipped).Reachable s ∧ ¬ Sound .plain s := by
  refine ⟨_, System.Reachable.replay (.init none_init)
    (rfl : (uploads .plain Uploads.shipped).replay .none
    [.create (.form (some "A cat") "cat.jpg") "a cat",
      .create (.form (some "My cat") "cat.jpg") "my cat"] = some _), fun h => ?_⟩
  exact absurd (h.main ⟨1, "A cat", "cat.jpg", "a cat"⟩ (by decide)) (by decide)

end Gallery
