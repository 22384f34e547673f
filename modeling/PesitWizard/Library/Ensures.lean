import Mathlib.Tactic.Common

/-! What holds of the result of a computation that may fail. -/

namespace PesitWizard.Library

variable {ε α β : Type}

def Ensures (r : Except ε α) (P : α → Prop) : Prop := ∀ a, r = .ok a → P a

namespace Ensures

variable {P : α → Prop} {Q : β → Prop}

lemma ok {a : α} (h : P a) : Ensures (.ok a : Except ε α) P := by
  intro b hb
  cases hb
  exact h

lemma error (e : ε) : Ensures (.error e : Except ε α) P := by
  intro b hb
  cases hb

lemma bind {x : Except ε α} {f : α → Except ε β} (h : ∀ a, x = .ok a → Ensures (f a) Q) :
    Ensures (x >>= f) Q := by
  intro b hb
  cases x with
  | error e => cases hb
  | ok a => exact h a rfl b hb

lemma ite {c : Prop} [Decidable c] {x y : Except ε α} (hx : c → Ensures x P) (hy : ¬ c → Ensures y P) :
    Ensures (if c then x else y) P := by
  by_cases h : c
  · rw [if_pos h]
    exact hx h
  · rw [if_neg h]
    exact hy h

lemma mono {R : α → Prop} {x : Except ε α} (h : Ensures x P) (himp : ∀ a, P a → R a) : Ensures x R :=
  fun a ha => himp a (h a ha)

lemma map {x : Except ε α} {f : α → β} (h : Ensures x fun a => Q (f a)) : Ensures (x.map f) Q := by
  intro b hb
  cases x with
  | error e => cases hb
  | ok a =>
    cases hb
    exact h a rfl

end Ensures

/-- What is left after a computation that leaves everything as it was if it fails. -/
def settle (a : α) : Except ε α → α
  | .ok b => b
  | .error _ => a

lemma Ensures.settled {P : α → Prop} {x : Except ε α} {a : α} (hx : Ensures x P) (ha : P a) :
    P (settle a x) := by
  cases x with
  | error e => exact ha
  | ok b => exact hx b rfl

end PesitWizard.Library
