import Mathlib.Logic.Function.Basic
import Mathlib.Tactic.Common

/-! Resources that have one owner each, and that are handed on, taken up and given up. -/

namespace PesitWizard.Library

/-- No two owners own the same thing. -/
def Sole {O R : Type} (owns : O → Option R) : Prop :=
  ∀ o o' x, owns o = some x → owns o' = some x → o = o'

/-- What is live has exactly one owner, and nothing else is owned. -/
structure Linear {O R : Type} (owns : O → Option R) (live : R → Prop) : Prop where
  apart : Sole owns
  covers : ∀ x, live x ↔ ∃ o, owns o = some x

variable {O R : Type} {owns : O → Option R} {live live' : R → Prop} {o o' : O} {x : R}

lemma sole_empty : Sole (fun _ : O => (none : Option R)) := by
  intro o o' x h
  cases h

lemma Linear.congr (h : Linear owns live) (hlive : ∀ y, live' y ↔ live y) : Linear owns live' :=
  ⟨h.apart, fun y => (hlive y).trans (h.covers y)⟩

variable [DecidableEq O]

section Updates

lemma update_none_eq_some {o p : O} {y : R} :
    Function.update owns o none p = some y ↔ p ≠ o ∧ owns p = some y := by
  by_cases hp : p = o
  · subst hp
    simp
  · simp [hp]

lemma update_some_eq_some {o p : O} {y : R} :
    Function.update owns o (some x) p = some y ↔ p = o ∧ x = y ∨ p ≠ o ∧ owns p = some y := by
  by_cases hp : p = o
  · subst hp
    simp
  · simp [hp]

end Updates

lemma Sole.drop (h : Sole owns) (o : O) : Sole (Function.update owns o none) := by
  intro p q y hp hq
  exact h p q y (update_none_eq_some.mp hp).2 (update_none_eq_some.mp hq).2

lemma Sole.take (h : Sole owns) (hx : ∀ p, owns p ≠ some x) (o : O) :
    Sole (Function.update owns o (some x)) := by
  intro p q y hp hq
  rcases update_some_eq_some.mp hp with ⟨rfl, rfl⟩ | ⟨-, hp⟩
  · rcases update_some_eq_some.mp hq with ⟨rfl, -⟩ | ⟨-, hq⟩
    · rfl
    · exact absurd hq (hx q)
  · rcases update_some_eq_some.mp hq with ⟨-, rfl⟩ | ⟨-, hq⟩
    · exact absurd hp (hx p)
    · exact h p q y hp hq

lemma Sole.fresh (h : Sole owns) (ho : owns o = some x) (p : O) :
    Function.update owns o none p ≠ some x := by
  intro hp
  obtain ⟨hne, hp⟩ := update_none_eq_some.mp hp
  exact hne (h p o x hp ho)

/-- A thing goes from one owner to another. -/
lemma Sole.hand (h : Sole owns) (ho : owns o = some x) (o' : O) :
    Sole (Function.update (Function.update owns o none) o' (some x)) := (h.drop o).take (h.fresh ho) o'

namespace Linear

/-- What an owner gives up is no longer live. -/
lemma drop (h : Linear owns live) (ho : owns o = some x) (hlive : ∀ y, live' y ↔ live y ∧ y ≠ x) :
    Linear (Function.update owns o none) live' := by
  refine ⟨h.apart.drop o, fun y => ?_⟩
  rw [hlive, h.covers]
  constructor
  · rintro ⟨⟨p, hp⟩, hne⟩
    refine ⟨p, update_none_eq_some.mpr ⟨?_, hp⟩⟩
    rintro rfl
    exact hne (Option.some.inj (hp.symm.trans ho))
  · rintro ⟨p, hp⟩
    obtain ⟨hne, hy⟩ := update_none_eq_some.mp hp
    refine ⟨⟨p, hy⟩, ?_⟩
    rintro rfl
    exact hne (h.apart p o y hy ho)

lemma drop_none (h : Linear owns live) (ho : owns o = none) :
    Linear (Function.update owns o none) live := by
  rw [Function.update_eq_self_iff.mpr ho.symm]
  exact h

lemma take (h : Linear owns live) (ho : owns o = none) (hx : ¬ live x)
    (hlive : ∀ y, live' y ↔ live y ∨ y = x) :
    Linear (Function.update owns o (some x)) live' := by
  have hunowned : ∀ p, owns p ≠ some x := fun p hp => hx ((h.covers x).mpr ⟨p, hp⟩)
  refine ⟨h.apart.take hunowned o, fun y => ?_⟩
  rw [hlive, h.covers]
  constructor
  · rintro (⟨p, hp⟩ | rfl)
    · refine ⟨p, update_some_eq_some.mpr (.inr ⟨?_, hp⟩)⟩
      rintro rfl
      rw [ho] at hp
      cases hp
    · exact ⟨o, update_some_eq_some.mpr (.inl ⟨rfl, rfl⟩)⟩
  · rintro ⟨p, hp⟩
    rcases update_some_eq_some.mp hp with ⟨-, rfl⟩ | ⟨-, hp⟩
    · exact .inr rfl
    · exact .inl ⟨p, hp⟩

lemma hand (h : Linear owns live) (ho : owns o = some x) (ho' : owns o' = none) :
    Linear (Function.update (Function.update owns o none) o' (some x)) live := by
  have hdrop : Linear (Function.update owns o none) fun y => live y ∧ y ≠ x := h.drop ho fun y => Iff.rfl
  have hfree : Function.update owns o none o' = none := by
    by_cases hoo : o' = o
    · subst hoo
      exact Function.update_self ..
    · rw [Function.update_of_ne hoo, ho']
  have hx : live x := (h.covers x).mpr ⟨o, ho⟩
  refine hdrop.take hfree (fun hx => hx.2 rfl) fun y => ?_
  by_cases hy : y = x
  · subst hy
    simpa using hx
  · simp [hy]

end Linear

end PesitWizard.Library
