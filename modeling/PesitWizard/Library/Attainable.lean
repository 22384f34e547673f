import Mathlib.Tactic.Common
import Mathlib.Logic.Relation

/-! What some run of a system reaches, and how many steps that takes at most. -/

namespace PesitWizard.Library

variable {α : Type} {step : α → α → Prop} {P Q : α → Prop}

inductive Attainable (step : α → α → Prop) (P : α → Prop) : ℕ → α → Prop
  | now {n a} : P a → Attainable step P n a
  | later {n a b} : step a b → Attainable step P n b → Attainable step P (n + 1) a

namespace Attainable

variable {n m : ℕ} {a : α}

lemma le (h : Attainable step P n a) (hle : n ≤ m) : Attainable step P m a := by
  induction h generalizing m with
  | now hp => exact .now hp
  | later hstep _ ih =>
    obtain ⟨k, rfl⟩ := Nat.exists_eq_add_of_le' (Nat.one_le_of_lt hle)
    exact .later hstep (ih (Nat.le_of_succ_le_succ hle))

lemma trans (h : Attainable step Q n a) (hq : ∀ b, Q b → Attainable step P m b) :
    Attainable step P (n + m) a := by
  induction h with
  | now hb => exact (hq _ hb).le (Nat.le_add_left _ _)
  | later hstep _ ih =>
    rw [Nat.succ_add]
    exact .later hstep ih

lemma reaches (h : Attainable step P n a) : ∃ b, Relation.ReflTransGen step a b ∧ P b := by
  induction h with
  | now hp => exact ⟨_, .refl, hp⟩
  | later hstep _ ih =>
    obtain ⟨b, hb, hp⟩ := ih
    exact ⟨b, hb.head hstep, hp⟩

/-- As long as a measure can be lowered by at most `k` steps at a time, the end is near. -/
lemma of_measure (μ : α → ℕ) (inv : α → Prop) (k : ℕ)
    (h : ∀ a, inv a → P a ∨ Attainable step (fun b => inv b ∧ μ b < μ a) k a) (ha : inv a) :
    Attainable step P (k * μ a) a := by
  induction hμ : μ a using Nat.strongRecOn generalizing a with
  | ind x ih =>
    rcases h a ha with hp | hnear
    · exact .now hp
    · obtain ⟨c, -, -, hc⟩ := hnear.reaches
      obtain ⟨y, rfl⟩ := Nat.exists_eq_add_of_lt (Nat.zero_lt_of_lt (hμ ▸ hc))
      rw [Nat.zero_add, Nat.mul_succ, Nat.add_comm]
      refine hnear.trans fun b hb => ?_
      have hlt : μ b < 0 + y + 1 := hμ ▸ hb.2
      exact (ih _ hlt hb.1 rfl).le (Nat.mul_le_mul_left k (by omega))

end Attainable

end PesitWizard.Library
