import PesitWizard.Core.Units

/-! FPDUs that are well formed for their kind, and that the decoder and the template check say exactly
this of the parameters. -/

namespace PesitWizard.Core

open Library.BigEndian Library.Scan

def Param.WellFormed : Param → Prop
  | .pi p value => value ≠ [] ∧ (p.maxLen = 0 ∨ value.length ≤ p.maxLen)
  | .pgi g items => items ≠ [] ∧ (items.map (fun i => i.1.code)).Pairwise (· < ·) ∧
      (∀ i ∈ items, g.contains i.1 = true ∧ i.2 ≠ []) ∧ ∀ m ∈ g.members, m.2 = true →
      ∃ i ∈ items, i.1 = m.1

instance : DecidablePred Param.WellFormed := fun p => by
  cases p <;> exact inferInstanceAs (Decidable (_ ∧ _))

structure ParamsWellFormed (kind : FpduKind) (params : List Param) : Prop where
  ascending : (params.map Param.code).Pairwise (· < ·)
  allowed : ∀ p ∈ params, p.code ∈ kind.template.map ParamRule.code
  present : ∀ r ∈ kind.template, r.mandatory = true → r.code ∈ params.map Param.code
  each : ∀ p ∈ params, p.WellFormed

instance (kind : FpduKind) (params : List Param) : Decidable (ParamsWellFormed kind params) :=
  decidable_of_iff ((params.map Param.code).Pairwise (· < ·) ∧
      (∀ p ∈ params, p.code ∈ kind.template.map ParamRule.code) ∧
      (∀ r ∈ kind.template, r.mandatory = true → r.code ∈ params.map Param.code) ∧
      ∀ p ∈ params, p.WellFormed)
    ⟨fun h => ⟨h.1, h.2.1, h.2.2.1, h.2.2.2⟩, fun h => ⟨h.1, h.2, h.3, h.4⟩⟩

def Fpdu.WellFormed (f : Fpdu) : Prop :=
  if f.kind.isData then f.params = [] else f.data = [] ∧ ParamsWellFormed f.kind f.params

instance : DecidablePred Fpdu.WellFormed := fun f =>
  inferInstanceAs (Decidable (if f.kind.isData then f.params = []
    else f.data = [] ∧ ParamsWellFormed f.kind f.params))

namespace Fpdu

lemma checkParam_ok_iff (kind : FpduKind) (p : Param) :
    checkParam kind p = .ok () ↔ p.code ∈ kind.template.map ParamRule.code ∧
      match p with
      | .pi q value => q.maxLen = 0 ∨ value.length ≤ q.maxLen
      | .pgi g items => ∀ m ∈ g.members, m.2 = true → ∃ i ∈ items, i.1 = m.1 := by
  have ht : kind.template.any (fun r => r.code == p.code) = true ↔
      p.code ∈ kind.template.map ParamRule.code := by
    simp [List.any_eq_true]
  by_cases h : p.code ∈ kind.template.map ParamRule.code
  · simp only [checkParam, ht.mpr h, h, Bool.not_true, Bool.false_eq_true, if_false, true_and]
    cases p with
    | pi q value =>
      dsimp only
      split
      · simp only [reduceCtorEq, false_iff]
        omega
      · simp only [true_iff]
        omega
    | pgi g items =>
      dsimp only
      split
      · rename_i m hm
        have hmem := List.mem_of_find?_eq_some hm
        have hbad := List.find?_some hm
        simp only [Bool.and_eq_true, Bool.not_eq_true', List.any_eq_false, beq_iff_eq] at hbad
        simp only [reduceCtorEq, false_iff]
        intro hall
        obtain ⟨i, hi, he⟩ := hall m hmem hbad.1
        exact hbad.2 i hi he
      · rename_i hm
        simp only [List.find?_eq_none, Bool.and_eq_true, Bool.not_eq_true',
          List.any_eq_false, beq_iff_eq, not_and, not_forall, not_not] at hm
        simp only [true_iff]
        intro m hmem hman
        obtain ⟨i, hi, he⟩ := hm m hmem hman
        exact ⟨i, hi, he⟩
  · have hf : kind.template.any (fun r => r.code == p.code) = false := by
      rw [← Bool.not_eq_true, ht]
      exact h
    simp [checkParam, hf, h]

lemma checkParams_ok_iff (kind : FpduKind) (params : List Param) :
    checkParams kind params = .ok () ↔ ∀ p ∈ params, checkParam kind p = .ok () := by
  induction params with
  | nil => simp [checkParams]
  | cons p params ih =>
    simp only [checkParams, List.forall_mem_cons, ← ih]
    cases checkParam kind p <;> simp

lemma validateTemplate_ok_iff (f : Fpdu) :
    f.validateTemplate = .ok () ↔ (∀ p ∈ f.params, checkParam f.kind p = .ok ()) ∧
      ∀ r ∈ f.kind.template, r.mandatory = true → r.code ∈ f.params.map Param.code := by
  rw [← checkParams_ok_iff]
  simp only [validateTemplate]
  cases checkParams f.kind f.params with
  | error e => simp
  | ok _ =>
    simp only [true_and]
    split
    · rename_i r hr
      have hmem := List.mem_of_find?_eq_some hr
      have hbad := List.find?_some hr
      simp only [Bool.and_eq_true, Bool.not_eq_true', List.any_eq_false, beq_iff_eq] at hbad
      simp only [reduceCtorEq, false_iff]
      intro hall
      obtain ⟨p, hp, he⟩ := List.mem_map.mp (hall r hmem hbad.1)
      exact hbad.2 p hp he
    · rename_i hr
      simp only [List.find?_eq_none, Bool.and_eq_true, Bool.not_eq_true', List.any_eq_false, beq_iff_eq,
        not_and, not_forall, not_not] at hr
      simp only [true_iff]
      intro r hmem hman
      obtain ⟨p, hp, he⟩ := hr r hmem hman
      exact List.mem_map.mpr ⟨p, hp, he⟩

end Fpdu

end PesitWizard.Core
