import Mathlib.Tactic.Common
import Mathlib.Logic.Relation

/-! What every run of a system reaches after finitely many steps, whatever the choices on the way. -/

namespace PesitWizard.Library

variable {α : Type} {step : α → α → Prop} {P : α → Prop}

inductive Inevitable (step : α → α → Prop) (P : α → Prop) : α → Prop
  | now {a} : P a → Inevitable step P a
  | later {a} : (∃ b, step a b) → (∀ b, step a b → Inevitable step P b) → Inevitable step P a

namespace Inevitable

lemma of_measure {β : Type} {lt : β → β → Prop} (hwf : WellFounded lt) (μ : α → β) (inv : α → Prop)
    (hstep : ∀ a b, inv a → step a b → inv b ∧ lt (μ b) (μ a)) (hlive : ∀ a, inv a → P a ∨ ∃ b, step a b)
    {a : α} (ha : inv a) : Inevitable step P a := by
  induction hμ : μ a using hwf.induction generalizing a with
  | _ x ih =>
    rcases hlive a ha with hp | hex
    · exact .now hp
    · refine .later hex ?_
      intro b hb
      obtain ⟨hinv, hlt⟩ := hstep a b ha hb
      exact ih _ (hμ ▸ hlt) hinv rfl

lemma mono {Q : α → Prop} {a : α} (h : Inevitable step P a) (hPQ : ∀ b, P b → Q b) :
    Inevitable step Q a := by
  induction h with
  | now hp => exact .now (hPQ _ hp)
  | later hex _ ih => exact .later hex ih

lemma reaches {a : α} (h : Inevitable step P a) : ∃ b, Relation.ReflTransGen step a b ∧ P b := by
  induction h with
  | now hp => exact ⟨_, .refl, hp⟩
  | later hex _ ih =>
    obtain ⟨b, hb⟩ := hex
    obtain ⟨c, hc, hp⟩ := ih b hb
    exact ⟨c, hc.head hb, hp⟩

end Inevitable

end PesitWizard.Library
