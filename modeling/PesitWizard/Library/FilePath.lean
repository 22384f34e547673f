import Mathlib.Data.List.Basic
import Mathlib.Tactic.Common

/-! Paths of files as lists of names. -/

namespace PesitWizard.Library

structure FilePath where
  absolute : Bool
  names : List String
  proper : ∀ n ∈ names, n ≠ ""

namespace FilePath

@[ext] lemma ext {p q : FilePath} (habsolute : p.absolute = q.absolute) (hnames : p.names = q.names) :
    p = q := by
  obtain ⟨a, l, hl⟩ := p
  obtain ⟨b, m, hm⟩ := q
  obtain rfl : a = b := habsolute
  obtain rfl : l = m := hnames
  rfl

-- names are compared by their characters, so that the comparison of computed paths can be evaluated
instance : DecidableEq FilePath := fun p q =>
  decidable_of_iff (p.absolute = q.absolute ∧ p.names.map String.toList = q.names.map String.toList)
    ⟨fun h => ext h.1 ((List.map_injective_iff.mpr fun _ _ => String.toList_injective) h.2),
      fun h => ⟨congrArg absolute h, by rw [h]⟩⟩

def ofString (s : String) : FilePath where
  absolute := s.toList.head? == some '/'
  names := ((s.toList.splitOn '/').map String.ofList).filter fun n => n ≠ "" ∧ n ≠ "."
  proper n hn := by
    have h := (List.mem_filter.mp hn).2
    simp only [ne_eq, decide_eq_true_eq] at h
    exact h.1

def display (p : FilePath) : String := (if p.absolute then "/" else "") ++ String.intercalate "/" p.names

def join (p q : FilePath) : FilePath :=
  if q.absolute then q
  else
    { p with
      names := p.names ++ q.names
      proper := fun n hn => (List.mem_append.mp hn).elim (p.proper n) (q.proper n) }

lemma names_join (p : FilePath) {q : FilePath} (h : q.absolute = false) :
    (p.join q).names = p.names ++ q.names := by
  rw [join, if_neg (by simp [h])]

def down (place : List String) (name : String) : List String :=
  if name = ".." then place.dropLast else place ++ [name]

/-- The names that lead from the root to a file in a file system without links, seen from a working
directory. Paths are kept as they are written, so two of them may lead to one file. -/
def locate (cwd : List String) (p : FilePath) : List String :=
  ((if p.absolute then [] else cwd) ++ p.names).foldl down []

lemma foldl_down {names : List String} (h : ∀ n ∈ names, n ≠ "..") (place : List String) :
    names.foldl down place = place ++ names := by
  induction names generalizing place with
  | nil => exact (List.append_nil place).symm
  | cons n names ih =>
    rw [List.forall_mem_cons] at h
    rw [List.foldl_cons, ih h.2, down, if_neg h.1, List.append_assoc, List.singleton_append]

lemma locate_join {cwd : List String} {p q : FilePath} (hq : q.absolute = false)
    (h : ∀ n ∈ q.names, n ≠ "..") :
    (p.join q).locate cwd = p.locate cwd ++ q.names := by
  have habsolute : (p.join q).absolute = p.absolute := by rw [join, if_neg (by simp [hq])]
  rw [locate, locate, habsolute, names_join p hq, ← List.append_assoc, List.foldl_append, foldl_down h]

lemma locate_concat {cwd init : List String} {n : String} {p : FilePath} (h : p.names = init ++ [n])
    (hn : n ≠ "..") :
    p.locate cwd = ((if p.absolute then [] else cwd) ++ init).foldl down [] ++ [n] := by
  rw [locate, h, ← List.append_assoc, List.foldl_append, List.foldl_cons,
    List.foldl_nil, down, if_neg hn]

def fileName (p : FilePath) : Option String := p.names.getLast?.filter fun n => n ≠ ".."

def withFileName (p : FilePath) (name : String) (h : name ≠ "") : FilePath where
  absolute := p.absolute
  names := (if p.fileName.isSome then p.names.dropLast else p.names) ++ [name]
  proper n hn := by
    rcases List.mem_append.mp hn with hn | hn
    · split at hn
      · exact p.proper n (List.dropLast_subset _ hn)
      · exact p.proper n hn
    · rw [List.mem_singleton.mp hn]
      exact h

lemma fileName_eq_some {p : FilePath} {n : String} (h : p.fileName = some n) :
    p.names = p.names.dropLast ++ [n] := by
  obtain ⟨hlast, -⟩ := Option.filter_eq_some_iff.mp h
  obtain ⟨init, hinit⟩ := List.getLast?_eq_some_iff.mp hlast
  rw [hinit, List.dropLast_concat]

lemma fileName_ne {p : FilePath} {n : String} (h : p.fileName = some n) : n ≠ ".." := by
  obtain ⟨-, hn⟩ := Option.filter_eq_some_iff.mp h
  exact of_decide_eq_true hn

lemma fileName_proper {p : FilePath} {n : String} (h : p.fileName = some n) : n ≠ "" := by
  obtain ⟨hlast, -⟩ := Option.filter_eq_some_iff.mp h
  exact p.proper n (List.mem_of_getLast? hlast)

/-- A file name without what follows its last dot, unless that is its first character. -/
def stem (name : String) : String :=
  match name.toList.reverse.dropWhile (· ≠ '.') with
  | _ :: c :: cs => .ofList (c :: cs).reverse
  | _ => name

lemma withName_ne (name extension : String) : name ++ "." ++ extension ≠ "" := by
  intro h
  have := congrArg String.toList h
  simp at this

def withExtension (p : FilePath) (extension : String) : FilePath :=
  match p.fileName with
  | some name => p.withFileName (stem name ++ "." ++ extension) (withName_ne _ _)
  | none => p

lemma withExtension_eq {p : FilePath} {name : String} (h : p.fileName = some name) (extension : String) :
    (p.withExtension extension).absolute = p.absolute ∧
      (p.withExtension extension).names = p.names.dropLast ++ [stem name ++ "." ++ extension] := by
  rw [withExtension]
  split
  · rename_i other hother
    obtain rfl := Option.some.inj (hother.symm.trans h)
    exact ⟨rfl, by simp only [withFileName, hother, Option.isSome_some, if_true]⟩
  · rename_i hnone
    rw [hnone] at h
    cases h

end FilePath

end PesitWizard.Library
