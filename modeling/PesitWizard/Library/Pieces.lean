import Mathlib.Data.List.Forall2
import Mathlib.Tactic.Common

/-! Lists cut into pieces, one for each symbol of a pattern, with the relation between a symbol and the
pieces that it takes as a parameter. -/

namespace PesitWizard.Library

variable {α β : Type} {fits : α → List β → Prop}

/-- A cut of the list into pieces that the symbols of the pattern take, in their order. -/
def InPieces (fits : α → List β → Prop) (pattern : List α) (xs : List β) : Prop :=
  ∃ pieces : List (List β), pieces.flatten = xs ∧ List.Forall₂ fits pattern pieces

namespace InPieces

lemma nil_iff {xs : List β} : InPieces fits [] xs ↔ xs = [] := by
  constructor
  · rintro ⟨pieces, rfl, h⟩
    rw [List.forall₂_nil_left_iff.mp h, List.flatten_nil]
  · rintro rfl
    exact ⟨[], rfl, List.Forall₂.nil⟩

lemma cons_iff {a : α} {pattern : List α} {xs : List β} :
    InPieces fits (a :: pattern) xs ↔ ∃ piece rest, xs = piece ++ rest ∧ fits a piece ∧
    InPieces fits pattern rest := by
  constructor
  · rintro ⟨pieces, rfl, h⟩
    obtain ⟨piece, pieces, hpiece, hrest, rfl⟩ := List.forall₂_cons_left_iff.mp h
    exact ⟨piece, pieces.flatten, List.flatten_cons, hpiece, pieces, rfl, hrest⟩
  · rintro ⟨piece, rest, rfl, hpiece, pieces, rfl, hrest⟩
    exact ⟨piece :: pieces, List.flatten_cons, List.Forall₂.cons hpiece hrest⟩

/-- A symbol that takes every piece takes nothing of the list, or its first entry and then goes on. -/
lemma any_cons_iff {a : α} (hany : ∀ piece, fits a piece) {pattern : List α} {x : β} {xs : List β} :
    InPieces fits (a :: pattern) (x :: xs) ↔
      InPieces fits pattern (x :: xs) ∨ InPieces fits (a :: pattern) xs := by
  constructor
  · intro h
    obtain ⟨piece, rest, hxs, -, hrest⟩ := cons_iff.mp h
    cases piece with
    | nil =>
      rw [List.nil_append] at hxs
      exact .inl (hxs ▸ hrest)
    | cons y piece =>
      obtain ⟨-, rfl⟩ := List.cons.inj hxs
      exact .inr (cons_iff.mpr ⟨piece, rest, rfl, hany piece, hrest⟩)
  · rintro (h | h)
    · exact cons_iff.mpr ⟨[], x :: xs, rfl, hany [], h⟩
    · obtain ⟨piece, rest, rfl, -, hrest⟩ := cons_iff.mp h
      exact cons_iff.mpr ⟨x :: piece, rest, rfl, hany (x :: piece), hrest⟩

lemma any_nil_iff {a : α} (hany : ∀ piece, fits a piece) {pattern : List α} :
    InPieces fits (a :: pattern) [] ↔ InPieces fits pattern [] := by
  constructor
  · intro h
    obtain ⟨piece, rest, hxs, -, hrest⟩ := cons_iff.mp h
    obtain ⟨-, rfl⟩ := List.append_eq_nil_iff.mp hxs.symm
    exact hrest
  · intro h
    exact cons_iff.mpr ⟨[], [], rfl, hany [], h⟩

/-- A symbol that takes single entries takes the first one. -/
lemma one_cons_iff {a : α} {r : β → Prop} (hone : ∀ piece, fits a piece ↔ ∃ x, piece = [x] ∧ r x)
    {pattern : List α} {x : β} {xs : List β} :
    InPieces fits (a :: pattern) (x :: xs) ↔ r x ∧ InPieces fits pattern xs := by
  constructor
  · intro h
    obtain ⟨piece, rest, hxs, hpiece, hrest⟩ := cons_iff.mp h
    obtain ⟨y, rfl, hy⟩ := (hone piece).mp hpiece
    obtain ⟨rfl, rfl⟩ := List.cons.inj hxs
    exact ⟨hy, hrest⟩
  · rintro ⟨hx, hrest⟩
    exact cons_iff.mpr ⟨[x], xs, rfl, (hone [x]).mpr ⟨x, rfl, hx⟩, hrest⟩

lemma not_one_nil {a : α} {r : β → Prop} (hone : ∀ piece, fits a piece ↔ ∃ x, piece = [x] ∧ r x)
    {pattern : List α} :
    ¬ InPieces fits (a :: pattern) [] := by
  intro h
  obtain ⟨piece, rest, hxs, hpiece, -⟩ := cons_iff.mp h
  obtain ⟨y, rfl, -⟩ := (hone piece).mp hpiece
  cases hxs

end InPieces

end PesitWizard.Library
