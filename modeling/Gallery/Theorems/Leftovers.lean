import Gallery.Theorems.Uploads

/-!
# No file without a picture

Uploads under one name overwrite each other and deletions take files of other pictures, but
nothing is ever left over: whatever has been uploaded, replaced and deleted, every stored
file is a version of some picture in the table, or one that was there before the first
upload and has not been touched. The directory goes with its last file, and a removal
raises exactly when it takes that one.

## Main definitions

* `Tidy` — every file has a picture or was there before, and the directory exists exactly
  while there are files in it

## Main results

* `Tidy.removeFiles` — removing what a picture has left behind
* `tidy_step`, `no_files_left` — what a step keeps, and what a run keeps
-/

namespace Gallery

open Store Rails Semantics

section

variable {Content : Type} {cw : CarrierWave Content} {shipped : Disk Content} {s : Uploads Content}

/-- The file is a version of a picture in the table. -/
def Owned (pictures : Table (Upload Content)) (p : Path) : Prop :=
  ∃ r ∈ pictures.rows, ∃ v, p = ImageUploader.path r.val.filename v

structure Tidy (shipped : Disk Content) (s : Uploads Content) : Prop where
  owned : ∀ p c, s.disk.read p = some c → Owned s.pictures p ∨ shipped.read p = some c
  houses : s.disk.Houses ImageUploader.store_dir

/-! ### The uploader -/

theorem read_store {disk : Disk Content} {n : String} {c t c' : Content} {p : Path}
    (h : (ImageUploader.store disk n c t).read p = some c') :
    (∃ v, p = ImageUploader.path n v) ∨ disk.read p = some c' := by
  by_cases hthumb : ImageUploader.path n .thumb = p
  · exact .inl ⟨.thumb, hthumb.symm⟩
  by_cases hmain : ImageUploader.path n .main = p
  · exact .inl ⟨.main, hmain.symm⟩
  · rw [ImageUploader.store, Disk.read_write, if_neg hthumb, Disk.read_write, if_neg hmain] at h
    exact .inr h

/-- What is left when both versions have been removed. -/
def ImageUploader.removed (disk : Disk Content) (n : String) : Disk Content :=
  (disk.remove (ImageUploader.path n .main)).remove (ImageUploader.path n .thumb)

theorem read_removed {disk : Disk Content} {n : String} {p : Path} {c : Content}
    (h : (ImageUploader.removed disk n).read p = some c) :
    disk.read p = some c ∧ ∀ v, p ≠ ImageUploader.path n v := by
  rw [ImageUploader.removed, Disk.read_remove, Disk.read_remove] at h
  split_ifs at h with hthumb hmain
  refine ⟨h, fun v => ?_⟩
  cases v with
  | main => exact Ne.symm hmain
  | thumb => exact Ne.symm hthumb

/-- The callback raises exactly when the last file has just been removed, and it leaves the
files that are left. -/
theorem remove_spec {disk : Disk Content} (h : disk.Houses ImageUploader.store_dir) (n : String) :
    ((ImageUploader.remove disk n).2 = true ↔
        disk.Occupied ImageUploader.store_dir ∧
          ¬ (ImageUploader.removed disk n).Occupied ImageUploader.store_dir) ∧
      (ImageUploader.remove disk n).1.files = (ImageUploader.removed disk n).files ∧
      (ImageUploader.remove disk n).1.Houses ImageUploader.store_dir := by
  have hsub : (ImageUploader.removed disk n).Occupied ImageUploader.store_dir →
      disk.Occupied ImageUploader.store_dir := by
    rintro ⟨f, hf, hdir⟩
    exact ⟨f, (List.mem_filter.mp (List.mem_filter.mp hf).1).1, hdir⟩
  have hdirs : (ImageUploader.removed disk n).dirs = disk.dirs := rfl
  have hraises := h.rmdir_isSome_iff hdirs
  have hhouses := h.rmdir hdirs hsub
  have hremove : ImageUploader.remove disk n =
      ImageUploader.delete_empty_upstream_dirs (ImageUploader.removed disk n) := rfl
  rw [hremove, ImageUploader.delete_empty_upstream_dirs]
  cases hgone : (ImageUploader.removed disk n).rmdir ImageUploader.store_dir with
  | some e =>
    rw [hgone] at hraises hhouses
    obtain ⟨-, he⟩ := Option.ite_none_right_eq_some.mp hgone
    exact ⟨hraises, by rw [← Option.some.inj he], hhouses⟩
  | none =>
    rw [hgone] at hraises hhouses
    exact ⟨hraises, rfl, hhouses⟩

/-! ### What a step keeps -/

/-- Removing the files stored under a name once all others have their pictures. -/
theorem Tidy.removeFiles {id : Id} {n : String} (hhouses : s.disk.Houses ImageUploader.store_dir)
    (howned : ∀ p c, s.disk.read p = some c →
      (Owned s.pictures p ∨ shipped.read p = some c) ∨ ∃ v, p = ImageUploader.path n v) :
    Tidy shipped (s.removeFiles id n) where
  owned p c hread := by
    have hleft : (ImageUploader.removed s.disk n).read p = some c :=
      (read_delete_empty_upstream_dirs _ p).symm.trans hread
    obtain ⟨hread, hv⟩ := read_removed hleft
    exact (howned p c hread).resolve_right fun hpath => hpath.elim hv
  houses := (remove_spec hhouses n).2.2

theorem tidy_create (h : Tidy shipped s) (source : Source) (content : Content) :
    Tidy shipped (s.create cw source content) := by
  unfold Uploads.create
  split
  · exact h
  · next upload t _ =>
    refine ⟨fun p c hread => ?_, h.houses.write.write⟩
    rcases read_store hread with ⟨v, hv⟩ | hread
    · exact .inl ⟨⟨s.pictures.next, upload⟩, by simp, v, hv⟩
    · refine (h.owned p c hread).imp_left ?_
      rintro ⟨r, hr, hv⟩
      exact ⟨r, List.mem_append_left _ hr, hv⟩

/-- The files of the other pictures are still theirs, and those of the old name are
removed. -/
theorem tidy_replaceFile (h : Tidy shipped s) {old : Row (Upload Content)}
    (hold : old ∈ s.pictures.rows) (upload : Upload Content) (t : Content) :
    Tidy shipped (s.replaceFile old upload t) := by
  let pictures := s.pictures.update fun r => if r.id = old.id then upload else r.val
  have hnew : (⟨old.id, upload⟩ : Row _) ∈ pictures.rows :=
    List.mem_map.mpr ⟨old, hold, by simp⟩
  have hhouses : (ImageUploader.store s.disk upload.filename upload.content t).Houses
      ImageUploader.store_dir := h.houses.write.write
  have howned : ∀ p c,
      (ImageUploader.store s.disk upload.filename upload.content t).read p = some c →
        (Owned pictures p ∨ shipped.read p = some c) ∨
          ∃ v, p = ImageUploader.path old.val.filename v := by
    intro p c hread
    rcases read_store hread with ⟨v, hv⟩ | hread
    · exact .inl (.inl ⟨_, hnew, v, hv⟩)
    rcases h.owned p c hread with ⟨r, hr, v, hv⟩ | hshipped
    · by_cases hid : r.id = old.id
      · rw [Table.eq_of_id_eq hr hold hid] at hv
        exact .inr ⟨v, hv⟩
      · exact .inl (.inl ⟨r, List.mem_map.mpr ⟨r, hr, by simp [hid]⟩, v, hv⟩)
    · exact .inl (.inr hshipped)
  unfold Uploads.replaceFile
  split_ifs with hname
  · refine ⟨fun p c hread => ?_, hhouses⟩
    rcases howned p c hread with hkept | ⟨v, hv⟩
    · exact hkept
    · exact .inl ⟨_, hnew, v, by rw [hv, ← hname]⟩
  · exact Tidy.removeFiles hhouses howned

theorem tidy_replace (h : Tidy shipped s) (id : Id) (name : String) (content : Content) :
    Tidy shipped (s.replace cw id name content) := by
  unfold Uploads.replace
  split
  · exact h
  · next old hfind =>
    split
    · exact h
    · exact tidy_replaceFile h (Table.find?_eq_some_iff.mp hfind).1 _ _

theorem tidy_destroy (h : Tidy shipped s) (id : Id) : Tidy shipped (s.destroy id) := by
  unfold Uploads.destroy
  split
  · exact h
  · next old hfind =>
    obtain ⟨hold, rfl⟩ := Table.find?_eq_some_iff.mp hfind
    refine Tidy.removeFiles h.houses fun p c hread => ?_
    rcases h.owned p c hread with ⟨r, hr, v, hv⟩ | hshipped
    · by_cases hid : r.id = old.id
      · rw [Table.eq_of_id_eq hr hold hid] at hv
        exact .inr ⟨v, hv⟩
      · exact .inl (.inl ⟨r, List.mem_filter.mpr ⟨hr, by simpa using hid⟩, v, hv⟩)
    · exact .inl (.inr hshipped)

theorem tidy_step (h : Tidy shipped s) {label : Upload.Step Content} {t : Uploads Content}
    (hstep : (uploads cw shipped).step s label = some t) : Tidy shipped t := by
  cases label with
  | create source content => exact Option.some.inj hstep ▸ tidy_create h source content
  | replace id name content => exact Option.some.inj hstep ▸ tidy_replace h id name content
  | destroy id => exact Option.some.inj hstep ▸ tidy_destroy h id

theorem tidy_of_reachable (hshipped : shipped.Houses ImageUploader.store_dir)
    (h : (uploads cw shipped).Reachable s) : Tidy shipped s := by
  refine System.Reachable.invariant (P := Tidy shipped) h ?_
    fun s label t hs hstep => tidy_step hs hstep
  rintro s ⟨-, hdisk, -, -⟩
  exact ⟨fun p c hread => .inr (hdisk ▸ hread), hdisk ▸ hshipped⟩

/-- What one deletion adds to the exceptions. -/
theorem destroy_raises (h : Tidy shipped s) {id : Id} (hid : s.pictures.Has id) :
    (s.destroy id).raised = s.raised ++ [id] ↔
      s.disk.Occupied ImageUploader.store_dir ∧
        ¬ (s.destroy id).disk.Occupied ImageUploader.store_dir := by
  obtain ⟨old, hfind⟩ := Table.has_iff_exists_find?.mp hid
  obtain ⟨hraises, hfiles, -⟩ := remove_spec h.houses old.val.filename
  simp only [Uploads.destroy, hfind, Uploads.removeFiles, Disk.Occupied, hfiles] at hraises ⊢
  rw [← hraises]
  cases (ImageUploader.remove s.disk old.val.filename).2 <;> simp

/-- In every state of a run every stored file is a version of a picture in the table or was
there before the run, the directory exists exactly while a file is in it, and a deletion
raises exactly when it takes the last one. -/
theorem no_files_left (cw : CarrierWave Content) (shipped : Disk Content)
    (hshipped : shipped.Houses ImageUploader.store_dir) (s : Uploads Content)
    (h : (uploads cw shipped).Reachable s) :
    (∀ p c, s.disk.read p = some c → Owned s.pictures p ∨ shipped.read p = some c) ∧
      s.disk.Houses ImageUploader.store_dir ∧
      ∀ id, s.pictures.Has id →
        ((s.destroy id).raised = s.raised ++ [id] ↔
          s.disk.Occupied ImageUploader.store_dir ∧
            ¬ (s.destroy id).disk.Occupied ImageUploader.store_dir) := by
  have hs := tidy_of_reachable hshipped h
  exact ⟨hs.owned, hs.houses, fun id hid => destroy_raises hs hid⟩

end

/-- Two pictures under one name; the deletion of the first takes the files of both, and
the file of the repository is left. -/
theorem no_files_left_twins :
    ∃ s : Uploads String, s.pictures.rows.length = 2 ∧
      (s.destroy 1).disk.files = Uploads.shipped.files ∧
      (∀ p c, s.disk.read p = some c → Owned s.pictures p ∨ Uploads.shipped.read p = some c) ∧
      s.disk.Houses ImageUploader.store_dir ∧
      ∀ id, s.pictures.Has id →
        ((s.destroy id).raised = s.raised ++ [id] ↔
          s.disk.Occupied ImageUploader.store_dir ∧
            ¬ (s.destroy id).disk.Occupied ImageUploader.store_dir) := by
  have hhouses : Uploads.shipped.Houses ImageUploader.store_dir :=
    iff_of_true (by decide) ⟨_, List.mem_cons_self, rfl⟩
  exact ⟨_, by decide, rfl, no_files_left .plain Uploads.shipped hhouses _
    (System.Reachable.replay (.init none_init) (rfl : (uploads .plain Uploads.shipped).replay .none
      [.create (.form (some "A cat") "cat.jpg") "a cat",
        .create (.form (some "My cat") "cat.jpg") "my cat"] = some _))⟩

end Gallery
