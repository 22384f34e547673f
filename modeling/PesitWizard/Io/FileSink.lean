import PesitWizard.Io.Stream
import PesitWizard.Library.Disk
import PesitWizard.Library.FilePath

/-! Files that are received under a temporary name and renamed when they are complete. -/

namespace PesitWizard.Io

open PesitWizard.Core Library

abbrev FileSystem := Disk FilePath Bytes

def partPath (path : FilePath) : FilePath :=
  path.withFileName (path.fileName.getD "" ++ ".part") (by
    intro h
    have hlength := congrArg String.length h
    simp [String.length_append] at hlength)

namespace FileSink

def setLen (content : Bytes) (n : ℕ) : Bytes := content.take n ++ List.replicate (n - content.length) 0

def create (disk : FileSystem) (path : FilePath) (resumeFrom : Option Position) : FileSystem × ℕ :=
  let (disk, file) := disk.openFile (partPath path) []
  (disk.write file (match resumeFrom with
    | some p => setLen (disk.content file) p.fileOffset
    | none => []), file)

def finish (disk : FileSystem) (path : FilePath) : Option FileSystem := disk.rename (partPath path) path

lemma create_keeps (disk : FileSystem) (path : FilePath) (p : Option Position) :
    disk.Keeps (create disk path p).1 :=
  (disk.keeps_openFile (partPath path) []).trans (Disk.keeps_write _ _ _)

lemma create_names (disk : FileSystem) (path : FilePath) (p : Option Position) :
    (create disk path p).1.names (partPath path) = some (create disk path p).2 :=
  disk.names_openFile (partPath path) []

lemma create_file_or (disk : FileSystem) (path : FilePath) (p : Option Position) :
    disk.names (partPath path) = some (create disk path p).2 ∨ (create disk path p).2 = disk.next :=
  disk.openFile_names_or (partPath path) []

end FileSink

lemma append_part_inj {a b : String} (h : a ++ ".part" = b ++ ".part") : a = b := by
  have hlist := congrArg String.toList h
  rw [String.toList_append, String.toList_append] at hlist
  exact String.toList_injective (List.append_cancel_right hlist)

lemma partPath_names_of_some {p : FilePath} {n : String} (h : p.fileName = some n) :
    (partPath p).names = p.names.dropLast ++ [n ++ ".part"] := by
  simp only [partPath, FilePath.withFileName, h, Option.isSome_some, if_true, Option.getD_some]

lemma partPath_names_of_none {p : FilePath} (h : p.fileName = none) :
    (partPath p).names = p.names ++ ["" ++ ".part"] := by
  simp [partPath, FilePath.withFileName, h]

lemma partPath_injective : Function.Injective partPath := by
  intro p q h
  have habsolute : p.absolute = q.absolute := by
    change (partPath p).absolute = (partPath q).absolute
    rw [h]
  have hnames := congrArg FilePath.names h
  cases hp : p.fileName with
  | some n =>
    rw [partPath_names_of_some hp] at hnames
    cases hq : q.fileName with
    | some m =>
      rw [partPath_names_of_some hq] at hnames
      obtain ⟨hinit, hlast⟩ := List.append_inj' hnames rfl
      obtain rfl := append_part_inj (List.singleton_inj.mp hlast)
      exact FilePath.ext habsolute
        (by rw [FilePath.fileName_eq_some hp, FilePath.fileName_eq_some hq, hinit])
    | none =>
      rw [partPath_names_of_none hq] at hnames
      obtain ⟨-, hlast⟩ := List.append_inj' hnames rfl
      exact absurd (append_part_inj (List.singleton_inj.mp hlast)) (FilePath.fileName_proper hp)
  | none =>
    rw [partPath_names_of_none hp] at hnames
    cases hq : q.fileName with
    | some m =>
      rw [partPath_names_of_some hq] at hnames
      obtain ⟨-, hlast⟩ := List.append_inj' hnames rfl
      exact absurd (append_part_inj (List.singleton_inj.mp hlast)).symm (FilePath.fileName_proper hq)
    | none =>
      rw [partPath_names_of_none hq] at hnames
      exact FilePath.ext habsolute (List.append_inj' hnames rfl).1

section Locations

variable {cwd : List String}

lemma append_part_ne (n : String) : n ++ ".part" ≠ ".." := by
  intro h
  have hlength := congrArg String.length h
  have hpart : (".part" : String).length = 5 := rfl
  have hup : (".." : String).length = 2 := rfl
  rw [String.length_append, hpart, hup] at hlength
  omega

lemma locate_partPath (cwd : List String) (p : FilePath) :
    (∃ init n, n ≠ "" ∧ p.locate cwd = init ++ [n] ∧ (partPath p).locate cwd = init ++ [n ++ ".part"]) ∨
      (partPath p).locate cwd = p.locate cwd ++ ["" ++ ".part"] := by
  cases hp : p.fileName with
  | some n =>
    refine .inl ⟨_, n, FilePath.fileName_proper hp, FilePath.locate_concat (FilePath.fileName_eq_some hp)
      (FilePath.fileName_ne hp), ?_⟩
    exact FilePath.locate_concat (partPath_names_of_some hp) (append_part_ne n)
  | none => exact .inr (FilePath.locate_concat (partPath_names_of_none hp) (append_part_ne ""))

/-- Files in two places have their temporary files in two places. -/
lemma locate_partPath_injective {p q : FilePath}
    (h : (partPath p).locate cwd = (partPath q).locate cwd) :
    p.locate cwd = q.locate cwd := by
  rcases locate_partPath cwd p with ⟨init, n, hn, hp, hpart⟩ | hpart <;>
    rcases locate_partPath cwd q with ⟨init', m, hm, hq, hpart'⟩ | hpart' <;> rw [hpart, hpart'] at h <;>
    obtain ⟨hinit, hlast⟩ := List.append_inj' h rfl
  · rw [hp, hq, hinit, append_part_inj (List.singleton_inj.mp hlast)]
  · exact absurd (append_part_inj (List.singleton_inj.mp hlast)) hn
  · exact absurd (append_part_inj (List.singleton_inj.mp hlast)).symm hm
  · exact hinit

end Locations

end PesitWizard.Io
