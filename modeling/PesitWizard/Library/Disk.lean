import Mathlib.Data.Nat.Basic
import Mathlib.Tactic.Common

/-! Disks: names of files, and files that stay what they are when they get another name. -/

namespace PesitWizard.Library

structure Disk (P C : Type) where
  names : P → Option ℕ
  content : ℕ → C
  next : ℕ
  bound : ∀ p i, names p = some i → i < next
  single : ∀ p q i, names p = some i → names q = some i → p = q

namespace Disk

variable {P C : Type}

def blank (c : C) : Disk P C where
  names _ := none
  content _ := c
  next := 0
  bound := by simp
  single := by simp

def read (d : Disk P C) (p : P) : Option C := (d.names p).map d.content

def isFile (d : Disk P C) (p : P) : Bool := (d.names p).isSome

def write (d : Disk P C) (i : ℕ) (c : C) : Disk P C :=
  { d with content := fun j => if j = i then c else d.content j }

structure Keeps (d d' : Disk P C) : Prop where
  grows : d.next ≤ d'.next
  names : ∀ i q, i < d.next → d'.names q = some i → d.names q = some i

lemma Keeps.refl (d : Disk P C) : d.Keeps d := ⟨le_rfl, fun _ _ _ h => h⟩

lemma Keeps.trans {d d' d'' : Disk P C} (h : d.Keeps d') (h' : d'.Keeps d'') : d.Keeps d'' :=
  ⟨le_trans h.grows h'.grows, fun i q hi hq =>
    h.names i q hi (h'.names i q (lt_of_lt_of_le hi h.grows) hq)⟩

lemma keeps_write (d : Disk P C) (i : ℕ) (c : C) : d.Keeps (d.write i c) := ⟨le_rfl, fun _ _ _ h => h⟩

section Names

variable [DecidableEq P]

def named (d : Disk P C) (p : P) (file : Option ℕ) : P → Option ℕ :=
  fun q => if q = p then file else d.names q

lemma names_of_named {d : Disk P C} {p q : P} {file : Option ℕ} {i : ℕ} (h : d.named p file q = some i) :
    q = p ∧ file = some i ∨ q ≠ p ∧ d.names q = some i := by
  rw [named] at h
  split at h
  · exact .inl ⟨by assumption, h⟩
  · exact .inr ⟨by assumption, h⟩

def link (d : Disk P C) (p : P) (c : C) : Disk P C where
  names := d.named p (some d.next)
  content j := if j = d.next then c else d.content j
  next := d.next + 1
  bound q i h := by
    rcases names_of_named h with ⟨-, h⟩ | ⟨-, h⟩
    · cases h
      exact Nat.lt_succ_self _
    · exact Nat.lt_succ_of_lt (d.bound q i h)
  single q r i hq hr := by
    rcases names_of_named hq with ⟨hqp, hq⟩ | ⟨-, hq⟩ <;>
      rcases names_of_named hr with ⟨hrp, hr⟩ | ⟨-, hr⟩
    · rw [hqp, hrp]
    · cases hq
      exact absurd (d.bound r _ hr) (lt_irrefl _)
    · cases hr
      exact absurd (d.bound q _ hq) (lt_irrefl _)
    · exact d.single q r i hq hr

def openFile (d : Disk P C) (p : P) (c : C) : Disk P C × ℕ :=
  match d.names p with
  | some i => (d, i)
  | none => (d.link p c, d.next)

def remove (d : Disk P C) (p : P) : Disk P C where
  names := d.named p none
  content := d.content
  next := d.next
  bound q i h := by
    rcases names_of_named h with ⟨-, h⟩ | ⟨-, h⟩
    · cases h
    · exact d.bound q i h
  single q r i hq hr := by
    rcases names_of_named hq with ⟨-, hq⟩ | ⟨-, hq⟩
    · cases hq
    · rcases names_of_named hr with ⟨-, hr⟩ | ⟨-, hr⟩
      · cases hr
      · exact d.single q r i hq hr

def renamed (d : Disk P C) (p q : P) : P → Option ℕ :=
  fun x => if x = q then d.names p else if x = p then none else d.names x

lemma names_of_renamed {d : Disk P C} {p q x : P} {i : ℕ} (h : d.renamed p q x = some i) :
    x = q ∧ d.names p = some i ∨ x ≠ q ∧ x ≠ p ∧ d.names x = some i := by
  rw [renamed] at h
  split at h
  · exact .inl ⟨by assumption, h⟩
  · split at h
    · cases h
    · exact .inr ⟨by assumption, by assumption, h⟩

def rename (d : Disk P C) (p q : P) : Option (Disk P C) :=
  if d.isFile p then some
    { names := d.renamed p q
      content := d.content
      next := d.next
      bound := by
        intro x i h
        obtain ⟨-, h⟩ | ⟨-, -, h⟩ := names_of_renamed h
        · exact d.bound p i h
        · exact d.bound x i h
      single := by
        intro x y i hx hy
        obtain ⟨hxq, hxi⟩ | ⟨-, hxp, hxi⟩ := names_of_renamed hx
        · obtain ⟨hyq, -⟩ | ⟨-, hyp, hyi⟩ := names_of_renamed hy
          · rw [hxq, hyq]
          · exact absurd (d.single y p i hyi hxi) hyp
        · obtain ⟨-, hyi⟩ | ⟨-, -, hyi⟩ := names_of_renamed hy
          · exact absurd (d.single x p i hxi hyi) hxp
          · exact d.single x y i hxi hyi }
  else none

lemma keeps_link (d : Disk P C) (p : P) (c : C) : d.Keeps (d.link p c) := by
  refine ⟨Nat.le_succ _, fun i q hi h => ?_⟩
  rcases names_of_named h with ⟨-, h⟩ | ⟨-, h⟩
  · cases h
    exact absurd hi (lt_irrefl _)
  · exact h

lemma keeps_remove (d : Disk P C) (p : P) : d.Keeps (d.remove p) := by
  refine ⟨le_rfl, fun i q _ h => ?_⟩
  rcases names_of_named h with ⟨-, h⟩ | ⟨-, h⟩
  · cases h
  · exact h

lemma keeps_openFile (d : Disk P C) (p : P) (c : C) : d.Keeps (d.openFile p c).1 := by
  rw [openFile]
  split
  · exact .refl d
  · exact d.keeps_link p c

lemma names_openFile (d : Disk P C) (p : P) (c : C) :
    (d.openFile p c).1.names p = some (d.openFile p c).2 := by
  rw [openFile]
  split
  · assumption
  · simp [link, named]

lemma openFile_names_or (d : Disk P C) (p : P) (c : C) :
    d.names p = some (d.openFile p c).2 ∨ (d.openFile p c).2 = d.next := by
  rw [openFile]
  split
  · exact .inl (by assumption)
  · exact .inr rfl

lemma rename_eq_some {d d' : Disk P C} {p q : P} (h : d.rename p q = some d') :
    d.isFile p = true ∧ d'.names = d.renamed p q ∧ d'.content = d.content ∧ d'.next = d.next := by
  rw [rename] at h
  split at h
  · cases h
    exact ⟨by assumption, rfl, rfl, rfl⟩
  · cases h

lemma read_rename_of_ne {d d' : Disk P C} {p q x : P} (h : d.rename p q = some d')
    (hp : x ≠ p) (hq : x ≠ q) :
    d'.read x = d.read x := by
  obtain ⟨-, hnames, hcontent, -⟩ := rename_eq_some h
  simp only [read, hnames, hcontent, renamed, if_neg hp, if_neg hq]

lemma read_rename_self {d d' : Disk P C} {p q : P} (h : d.rename p q = some d') :
    d'.read q = d.read p := by
  obtain ⟨-, hnames, hcontent, -⟩ := rename_eq_some h
  simp only [read, hnames, hcontent, renamed, if_true]

lemma names_openFile_of_ne {d : Disk P C} {p q : P} (h : q ≠ p) (c : C) :
    (d.openFile p c).1.names q = d.names q := by
  rw [openFile]
  split
  · rfl
  · simp [link, named, h]

lemma content_openFile {d : Disk P C} {i : ℕ} (hi : i < d.next) (p : P) (c : C) :
    (d.openFile p c).1.content i = d.content i := by
  rw [openFile]
  split
  · rfl
  · simp [link, Nat.ne_of_lt hi]

lemma names_rename_of_ne {d d' : Disk P C} {p q x : P} (h : d.rename p q = some d')
    (hp : x ≠ p) (hq : x ≠ q) :
    d'.names x = d.names x := by
  obtain ⟨-, hnames, -, -⟩ := rename_eq_some h
  rw [hnames, renamed, if_neg hq, if_neg hp]

lemma names_remove_of_ne (d : Disk P C) {p q : P} (h : q ≠ p) : (d.remove p).names q = d.names q := by
  simp [remove, named, h]

lemma read_remove_of_ne (d : Disk P C) {p q : P} (h : q ≠ p) : (d.remove p).read q = d.read q :=
  congrArg (Option.map d.content) (d.names_remove_of_ne h)

lemma read_remove_self (d : Disk P C) (p : P) :
    (d.remove p).read p = none := by simp [read, remove, named]

/-- A file that is opened to be written anew, which cuts what it holds. -/
def truncate (d : Disk P C) (p : P) (c : C) : Disk P C × ℕ :=
  ((d.openFile p c).1.write (d.openFile p c).2 c, (d.openFile p c).2)

lemma names_truncate (d : Disk P C) (p : P) (c : C) :
    (d.truncate p c).1.names p = some (d.truncate p c).2 :=
  d.names_openFile p c

lemma content_truncate (d : Disk P C) (p : P) (c : C) :
    (d.truncate p c).1.content (d.truncate p c).2 = c := if_pos rfl

lemma names_truncate_of_ne {d : Disk P C} {p q : P} (h : q ≠ p) (c : C) :
    (d.truncate p c).1.names q = d.names q :=
  names_openFile_of_ne h c

lemma truncate_ne {d : Disk P C} {p q : P} {i : ℕ} (h : q ≠ p) (c : C) (hi : d.names q = some i) :
    i ≠ (d.truncate p c).2 := by
  rintro rfl
  exact h ((d.truncate p c).1.single q p _ ((names_truncate_of_ne h c).trans hi) (d.names_truncate p c))

lemma content_truncate_of_ne {d : Disk P C} {p q : P} {i : ℕ} (h : q ≠ p) (c : C)
    (hi : d.names q = some i) :
    (d.truncate p c).1.content i = d.content i :=
  (if_neg (truncate_ne h c hi)).trans (content_openFile (d.bound q i hi) p c)

lemma read_truncate_of_ne {d : Disk P C} {p q : P} (h : q ≠ p) (c : C) :
    (d.truncate p c).1.read q = d.read q := by
  rw [read, read, names_truncate_of_ne h c]
  cases hi : d.names q with
  | none => rfl
  | some i => rw [Option.map_some, Option.map_some, content_truncate_of_ne h c hi]

end Names

lemma read_write_of_ne {d : Disk P C} {p : P} {i : ℕ} (h : d.names p ≠ some i) (c : C) :
    (d.write i c).read p = d.read p := by
  cases hp : d.names p with
  | none => simp [read, write, hp]
  | some j =>
    have hj : j ≠ i := by
      rintro rfl
      exact h hp
    simp [read, write, hp, hj]

lemma isSome_read (d : Disk P C) (p : P) : (d.read p).isSome = d.isFile p := by
  rw [read, isFile, Option.isSome_map]

end Disk

end PesitWizard.Library
