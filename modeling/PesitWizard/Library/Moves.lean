import Mathlib.Logic.Relation
import Mathlib.Tactic.Common

/-! Systems that make one move after the other, where a move may be impossible in a state. -/

namespace PesitWizard.Library

variable {S M : Type} (step : S → M → Option S)

/-- One move, in a state in which it meets a condition. -/
def Steps (Ok : S → M → Prop) (s s' : S) : Prop := ∃ m, Ok s m ∧ step s m = some s'

/-- Any number of moves that all meet the condition. -/
def Moves (Ok : S → M → Prop) : S → S → Prop := Relation.ReflTransGen (Steps step Ok)

def after (s : S) (m : M) : S := (step s m).getD s

variable {step} {Ok : S → M → Prop} {s s' : S}

lemma Moves.invariant {I : S → Prop} (hstep : ∀ s m s', I s → Ok s m → step s m = some s' → I s')
    (h : Moves step Ok s s') (hs : I s) : I s' := by
  induction h with
  | refl => exact hs
  | tail _ hlast ih =>
    obtain ⟨m, hok, hm⟩ := hlast
    exact hstep _ m _ ih hok hm

lemma steps_after {m : M} (hok : Ok s m) (hm : (step s m).isSome = true) :
    Steps step Ok s (after step s m) := by
  obtain ⟨u, hu⟩ := Option.isSome_iff_exists.mp hm
  exact ⟨m, hok, by rw [after, hu, Option.getD_some]⟩

lemma moves_foldl_of (ms : List M) (hok : ∀ s, ∀ m ∈ ms, Ok s m) (s : S) :
    Moves step Ok s (ms.foldl (after step) s) := by
  induction ms generalizing s with
  | nil => exact .refl
  | cons m ms ih =>
    refine .trans ?_ (ih (fun s m hm => hok s m (List.mem_cons_of_mem _ hm)) _)
    cases hm : step s m with
    | none =>
      rw [after, hm]
      exact .refl
    | some u => exact .single (steps_after (hok s m List.mem_cons_self) (by rw [hm]; rfl))

lemma moves_foldl (ms : List M) (s : S) : Moves step (fun _ _ => True) s (ms.foldl (after step) s) :=
  moves_foldl_of ms (fun _ _ _ => trivial) s

/-- A condition on every move of a list and the state in which it is made. -/
def Each {I : Type} (next : S → I → S) (P : S → I → Prop) : S → List I → Prop
  | _, [] => True
  | s, i :: is => P s i ∧ Each next P (next s i) is

section Each

variable {I : Type} {next : S → I → S} {P Q : S → I → Prop}

lemma each_iff (Inv Bad : S → Prop) (hbad : ∀ s i, Bad s → Bad (next s i))
    (hstep : ∀ s i, Inv s → ¬ Bad (next s i) → (P s i ↔ Q s i) ∧ Inv (next s i)) {s : S}
    {is : List I} (hs : Inv s) (hgood : ¬ Bad (is.foldl next s)) :
    Each next P s is ↔ Each next Q s is := by
  have hfold (is : List I) (s : S) (h : Bad s) : Bad (is.foldl next s) := by
    induction is generalizing s with
    | nil => exact h
    | cons i is ih => exact ih _ (hbad s i h)
  induction is generalizing s with
  | nil => exact Iff.rfl
  | cons i is ih =>
    obtain ⟨hiff, hinv⟩ := hstep s i hs (fun h => hgood (hfold is _ h))
    exact and_congr hiff (ih hinv hgood)

/-- What no move restores holds after a list of moves if each move in turn meets the
condition that keeps it. -/
lemma kept_iff (Inv : S → Prop) {Good : S → Prop} (hback : ∀ s i, Good (next s i) → Good s)
    (hstep : ∀ s i, Inv s → Good s → (Good (next s i) ↔ P s i) ∧ (P s i → Inv (next s i)))
    {s : S} (is : List I) (hs : Inv s) (hgood : Good s) : Good (is.foldl next s) ↔ Each next P s is := by
  have hfirst (is : List I) (s : S) (h : Good (is.foldl next s)) : Good s := by
    induction is generalizing s with
    | nil => exact h
    | cons i is ih => exact hback s i (ih _ h)
  induction is generalizing s with
  | nil => exact iff_of_true hgood trivial
  | cons i is ih =>
    obtain ⟨hiff, hinv⟩ := hstep s i hs hgood
    constructor
    · intro h
      have hnext := hfirst is _ h
      have hp := hiff.mp hnext
      exact ⟨hp, (ih (hinv hp) hnext).mp h⟩
    · rintro ⟨hp, hrest⟩
      exact (ih (hinv hp) (hiff.mpr hp)).mpr hrest

lemma each_append {s : S} {is js : List I} :
    Each next P s (is ++ js) ↔ Each next P s is ∧ Each next P (is.foldl next s) js := by
  induction is generalizing s with
  | nil => exact ⟨fun h => ⟨trivial, h⟩, fun h => h.2⟩
  | cons i is ih => exact (and_congr Iff.rfl ih).trans and_assoc.symm

/-- A condition on the state after every move holds after every first part of the moves. -/
lemma each_foldl {A : S → Prop} {s : S} {is js : List I}
    (h : Each next (fun s i => A (next s i)) s is) (hs : A s) (hjs : js <+: is) :
    A (js.foldl next s) := by
  obtain ⟨rest, rfl⟩ := hjs
  have hfirst := (each_append.mp h).1
  clear h
  induction js generalizing s with
  | nil => exact hs
  | cons j js ih => exact ih hfirst.1 hfirst.2

/-- What each move of the kind that there is keeps exactly under a condition holds all along exactly if
each move in turn meets it. -/
lemma prefixes_iff_of {E : S → I → Prop} (Inv Good : S → Prop)
    (hinv : ∀ s i, Inv s → E s i → Inv (next s i))
    (hstep : ∀ s i, Inv s → Good s → E s i → (Good (next s i) ↔ P s i)) {s : S} (is : List I)
    (hs : Inv s) (hgood : Good s) (henv : Each next E s is) :
    (∀ js, js <+: is → Good (js.foldl next s)) ↔ Each next P s is := by
  induction is generalizing s with
  | nil =>
    refine iff_of_true ?_ trivial
    intro js hjs
    rw [List.prefix_nil.mp hjs]
    exact hgood
  | cons i is ih =>
    have hiff := hstep s i hs hgood henv.1
    constructor
    · intro h
      have hnext := h [i] ⟨is, rfl⟩
      refine ⟨hiff.mp hnext, (ih (hinv s i hs henv.1) hnext henv.2).mp ?_⟩
      intro js hjs
      exact h (i :: js) (List.cons_prefix_cons.mpr ⟨rfl, hjs⟩)
    · rintro ⟨hp, hrest⟩ js hjs
      cases js with
      | nil => exact hgood
      | cons j js =>
        obtain ⟨rfl, htail⟩ := List.cons_prefix_cons.mp hjs
        exact (ih (hinv s j hs henv.1) (hiff.mpr hp) henv.2).mpr hrest js htail

lemma prefixes_iff (Inv Good : S → Prop) (hinv : ∀ s i, Inv s → Inv (next s i))
    (hstep : ∀ s i, Inv s → Good s → (Good (next s i) ↔ P s i)) {s : S} (is : List I) (hs : Inv s)
    (hgood : Good s) :
    (∀ js, js <+: is → Good (js.foldl next s)) ↔ Each next P s is := by
  have henv : Each next (fun _ _ => True) s is := by
    clear hs hgood
    induction is generalizing s with
    | nil => trivial
    | cons i is ih => exact ⟨trivial, ih⟩
  exact prefixes_iff_of Inv Good (fun s i h _ => hinv s i h)
    (fun s i h hg _ => hstep s i h hg) is hs hgood henv

lemma moves_foldl_of_each {ms : List M} {s : S} (h : Each (after step) Ok s ms) :
    Moves step Ok s (ms.foldl (after step) s) := by
  induction ms generalizing s with
  | nil => exact .refl
  | cons m ms ih =>
    refine .trans ?_ (ih h.2)
    cases hm : step s m with
    | none =>
      rw [after, hm]
      exact .refl
    | some u => exact .single (steps_after h.1 (by rw [hm]; rfl))

end Each

end PesitWizard.Library
