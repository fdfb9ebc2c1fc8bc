import Mathlib.Logic.Basic
import Mathlib.Data.List.Basic

/-!
# Files in directories

A disk is a set of directories and a list of files, each under a directory and a
name. Writing a file creates its directory and replaces what was there; a
directory can be removed only while it exists and is empty.

## Main results

* `Disk.read_write`, `Disk.read_remove` — what is read after a write or a removal
* `Disk.rmdir_eq_none_of_mem` — a directory with a file in it stays
* `Disk.Houses` — a directory that comes with its first file and goes with its last
-/

namespace Store

/-- The path of a file. -/
structure Path where
  dir : String
  name : String
deriving DecidableEq, Repr

/-- The files on a disk and the directories that exist. -/
structure Disk (Content : Type*) where
  files : List (Path × Content)
  dirs : List String

namespace Disk

variable {Content : Type*} {d : Disk Content} {p q : Path} {c : Content}

/-- A disk with nothing on it. -/
def empty : Disk Content := ⟨[], []⟩

/-- The content of a file. -/
def read (d : Disk Content) (p : Path) : Option Content :=
  (d.files.find? fun f => f.1 = p).map (·.2)

/-- Writes a file, creating its directory and replacing a file that was there. -/
def write (d : Disk Content) (p : Path) (c : Content) : Disk Content where
  files := (p, c) :: d.files
  dirs := if p.dir ∈ d.dirs then d.dirs else p.dir :: d.dirs

/-- Removes a file, if there is one. -/
def remove (d : Disk Content) (p : Path) : Disk Content :=
  { d with files := d.files.filter fun f => f.1 ≠ p }

/-- Removes an empty directory; `none` if it does not exist or is not empty. -/
def rmdir (d : Disk Content) (dir : String) : Option (Disk Content) :=
  if dir ∈ d.dirs ∧ ∀ f ∈ d.files, f.1.dir ≠ dir then
    some { d with dirs := d.dirs.filter (· ≠ dir) }
  else none

@[simp] theorem read_write : (d.write p c).read q = if p = q then some c else d.read q := by
  by_cases h : p = q <;> simp [read, write, h]

theorem read_remove : (d.remove p).read q = if p = q then none else d.read q := by
  split_ifs with h
  · have hnone : (d.remove p).files.find? (fun f => f.1 = q) = none := by
      rw [List.find?_eq_none]
      intro f hf
      have hne : f.1 ≠ p := by simpa using (List.mem_filter.mp hf).2
      simpa [← h] using hne
    rw [read, hnone]
    rfl
  · have hsame : (d.remove p).files.find? (fun f => f.1 = q) = d.files.find? fun f => f.1 = q := by
      rw [remove, List.find?_filter]
      congr 1
      funext f
      by_cases hf : f.1 = q
      · have hne : f.1 ≠ p := fun hp => h (hp.symm.trans hf)
        simp [hf, hf ▸ hne]
      · simp [hf]
    rw [read, hsame, read]

theorem read_remove_of_ne (h : p ≠ q) : (d.remove p).read q = d.read q := by
  simp [read_remove, h]

/-- Removing a directory changes no file. -/
theorem read_rmdir {d' : Disk Content} {dir : String} (h : d.rmdir dir = some d') (p : Path) :
    d'.read p = d.read p := by
  obtain ⟨-, hd⟩ := Option.ite_none_right_eq_some.mp h
  rw [← Option.some.inj hd]
  rfl

/-- A directory with a file in it cannot be removed. -/
theorem rmdir_eq_none_of_mem {f : Path × Content} (hf : f ∈ d.files) : d.rmdir f.1.dir = none := by
  rw [rmdir, if_neg]
  rintro ⟨-, hempty⟩
  exact hempty f hf rfl

/-! ### A directory and its files -/

/-- Some file is in the directory. -/
def Occupied (d : Disk Content) (dir : String) : Prop := ∃ f ∈ d.files, f.1.dir = dir

/-- The directory exists exactly while a file is in it. -/
def Houses (d : Disk Content) (dir : String) : Prop := dir ∈ d.dirs ↔ d.Occupied dir

variable {d' : Disk Content} {dir : String}

theorem Houses.write (h : d.Houses dir) : (d.write p c).Houses dir := by
  have hdirs : dir ∈ (d.write p c).dirs ↔ p.dir = dir ∨ dir ∈ d.dirs := by
    by_cases hp : p.dir ∈ d.dirs
    · have hmem : p.dir = dir → dir ∈ d.dirs := fun hdir => hdir ▸ hp
      simpa [Disk.write, hp] using hmem
    · simp [Disk.write, hp, eq_comm]
  rw [Houses, hdirs, show dir ∈ d.dirs ↔ _ from h]
  simp [Occupied, Disk.write]

/-- Once files have been removed, the directory can go if the last file was among them. -/
theorem Houses.rmdir_isSome_iff (h : d.Houses dir) (hdirs : d'.dirs = d.dirs) :
    (d'.rmdir dir).isSome ↔ d.Occupied dir ∧ ¬ d'.Occupied dir := by
  have hsome : (d'.rmdir dir).isSome ↔ dir ∈ d'.dirs ∧ ∀ f ∈ d'.files, f.1.dir ≠ dir := by
    rw [Disk.rmdir]
    split_ifs with hgone
    · exact iff_of_true rfl hgone
    · exact iff_of_false Bool.false_ne_true hgone
  rw [hsome, hdirs, show dir ∈ d.dirs ↔ _ from h]
  simp [Occupied]

/-- What is left in either case. -/
theorem Houses.rmdir (h : d.Houses dir) (hdirs : d'.dirs = d.dirs)
    (hsub : d'.Occupied dir → d.Occupied dir) : ((d'.rmdir dir).getD d').Houses dir := by
  cases hgone : d'.rmdir dir with
  | some e =>
    obtain ⟨-, hlast⟩ := (h.rmdir_isSome_iff hdirs).mp (by simp [hgone])
    obtain ⟨-, he⟩ := Option.ite_none_right_eq_some.mp hgone
    obtain rfl := Option.some.inj he
    exact iff_of_false (by simp) hlast
  | none =>
    rw [Option.getD_none, Houses, hdirs, show dir ∈ d.dirs ↔ _ from h]
    refine ⟨fun hfull => ?_, hsub⟩
    by_contra hlast
    simpa [hgone] using (h.rmdir_isSome_iff hdirs).mpr ⟨hfull, hlast⟩

end Disk

end Store
