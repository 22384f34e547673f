import PesitWizard.Core.WellFormed

/-! The two loops of the strict decoder, as relations between the units read and the parameters built. -/

namespace PesitWizard.Core.Fpdu

open Library.Scan

def itemUnit (i : Pi × Bytes) : UInt8 × Bytes := (i.1.code, i.2)

lemma decodeItem_ok_iff (g : Pgi) (s s' : ItemState) (u : UInt8 × Bytes) :
    decodeItem true g s u = .ok s' ↔ ∃ i : Pi × Bytes, u = itemUnit i ∧ g.contains i.1 = true ∧
      (s.items ≠ [] → s.lastInner < u.1) ∧ s' = ⟨s.items ++ [i], u.1⟩ := by
  obtain ⟨code, value⟩ := u
  simp only [decodeItem]
  constructor
  · intro h
    split at h
    · cases h
    · rename_i pi hpi
      split at h
      · cases h
      · split at h
        · cases h
        · rename_i hc ho
          refine ⟨(pi, value), ?_, by simpa using hc, ?_, (Except.ok.inj h).symm⟩
          · rw [itemUnit, Pi.code_of_fromCode hpi]
          · intro hne
            simpa [hne] using ho
  · rintro ⟨⟨pi, v⟩, hu, hc, hlast, rfl⟩
    obtain ⟨rfl, rfl⟩ := Prod.mk.inj hu
    have ho : ¬ (pi.code ≤ s.lastInner && !s.items.isEmpty) = true := by
      simp only [Bool.and_eq_true, decide_eq_true_eq, Bool.not_eq_true',
        List.isEmpty_eq_false_iff, not_and]
      exact fun hle hne => absurd (hlast hne) (UInt8.not_lt.mpr hle)
    simp only [Pi.fromCode_code, hc, Bool.not_true, Bool.and_false, Bool.false_eq_true, if_false, ho]

lemma decodeItems_complete (g : Pgi) (items : List (Pi × Bytes)) (s : ItemState)
    (hasc : (items.map (fun i => i.1.code)).Pairwise (· < ·)) (hin : ∀ i ∈ items, g.contains i.1 = true)
    (hlast : s.items ≠ [] → ∀ i ∈ items, s.lastInner < i.1.code) :
    ∃ last, (items.map itemUnit).foldlM (decodeItem true g) s = .ok ⟨s.items ++ items, last⟩ := by
  induction items generalizing s with
  | nil => exact ⟨s.lastInner, by simp [pure, Except.pure]⟩
  | cons i items ih =>
    rw [List.map_cons, List.pairwise_cons] at hasc
    have hstep := (decodeItem_ok_iff g s ⟨s.items ++ [i], i.1.code⟩ (itemUnit i)).mpr
      ⟨i, rfl, hin i (by simp), fun hne => hlast hne i (by simp), rfl⟩
    obtain ⟨last, hl⟩ := ih ⟨s.items ++ [i], i.1.code⟩ hasc.2 (fun j hj => hin j (by simp [hj]))
      (fun _ j hj => hasc.1 _ (List.mem_map.mpr ⟨j, hj, rfl⟩))
    refine ⟨last, ?_⟩
    rw [List.map_cons, foldlM_cons_ok]
    exact ⟨_, hstep, by simpa using hl⟩

lemma decodeItems_sound (g : Pgi) (us : List (UInt8 × Bytes)) (s s' : ItemState)
    (h : us.foldlM (decodeItem true g) s = .ok s') :
    ∃ items, us = items.map itemUnit ∧ s'.items = s.items ++ items ∧
      (items.map (fun i => i.1.code)).Pairwise (· < ·) ∧ (∀ i ∈ items, g.contains i.1 = true) ∧
      (s.items ≠ [] → ∀ i ∈ items, s.lastInner < i.1.code) := by
  induction us generalizing s with
  | nil =>
    obtain rfl := Except.ok.inj h
    exact ⟨[], by simp⟩
  | cons u us ih =>
    obtain ⟨s₁, hd, hf⟩ := (foldlM_cons_ok _ _ _ _).mp h
    obtain ⟨i, rfl, hc, hlast, rfl⟩ := (decodeItem_ok_iff g s s₁ u).mp hd
    obtain ⟨items, rfl, hs', hasc, hin, hab⟩ := ih _ hf
    have hab' : ∀ j ∈ items, i.1.code < j.1.code := hab (by simp)
    refine ⟨i :: items, rfl, by simpa using hs', ?_, ?_, ?_⟩
    · rw [List.map_cons, List.pairwise_cons]
      refine ⟨?_, hasc⟩
      intro c hcm
      obtain ⟨j, hj, rfl⟩ := List.mem_map.mp hcm
      exact hab' j hj
    · rw [List.forall_mem_cons]
      exact ⟨hc, hin⟩
    · intro hne
      rw [List.forall_mem_cons]
      exact ⟨hlast hne, fun j hj => UInt8.lt_trans (hlast hne) (hab' j hj)⟩

def ReadAs (u : UInt8 × Bytes) : Param → Prop
  | .pi p value => u = (p.code, value)
  | .pgi g items => u.1 = g.code ∧
      ∃ last, scanAll readUnit (decodeItem true g) u.2 ⟨[], 0⟩ = .ok ⟨items, last⟩

lemma ReadAs.code {u : UInt8 × Bytes} {p : Param} (h : ReadAs u p) : u.1 = p.code := by
  cases p with
  | pi q value => exact congrArg Prod.fst h
  | pgi g items => exact h.1

lemma decodeParam_ok_iff (s s' : ParamState) (u : UInt8 × Bytes) :
    decodeParam true s u = .ok s' ↔ ∃ p, ReadAs u p ∧ (s.params ≠ [] → s.lastCode < u.1) ∧
      s' = ⟨s.params ++ [p], u.1⟩ := by
  have hlate :
      (u.1 ≤ s.lastCode && !s.params.isEmpty) = true ↔ ¬ (s.params ≠ [] → s.lastCode < u.1) := by
    simp only [Bool.and_eq_true, decide_eq_true_eq, Bool.not_eq_true', List.isEmpty_eq_false_iff,
      Classical.not_imp, UInt8.not_lt, and_comm]
  simp only [decodeParam, Bool.and_true]
  by_cases hl : s.params ≠ [] → s.lastCode < u.1
  · have hf : (u.1 ≤ s.lastCode && !s.params.isEmpty) = false := by
      rw [← Bool.not_eq_true, hlate]
      exact not_not.mpr hl
    simp only [hf, Bool.false_eq_true, if_false]
    constructor
    · intro h
      split at h
      · rename_i g hg
        split at h
        · cases h
        · rename_i inner hi
          refine ⟨.pgi g inner.items, ⟨(Pgi.code_of_fromCode hg).symm, inner.lastInner, hi⟩, hl, ?_⟩
          exact (Except.ok.inj h).symm
      · split at h
        · rename_i pi hpi
          refine ⟨.pi pi u.2, ?_, hl, (Except.ok.inj h).symm⟩
          rw [ReadAs, Pi.code_of_fromCode hpi]
        · cases h
    · rintro ⟨p, hp, _, rfl⟩
      cases p with
      | pi q value =>
        obtain rfl : u = (q.code, value) := hp
        simp only [Pgi.fromCode_pi_code, Pi.fromCode_code]
      | pgi g items =>
        obtain ⟨hg, last, hi⟩ := hp
        simp only [hg, Pgi.fromCode_code, hi]
  · simp only [hlate.mpr hl, if_true, reduceCtorEq, false_iff]
    rintro ⟨p, _, h, _⟩
    exact hl h

lemma decodeParams_complete {us : List (UInt8 × Bytes)} {params : List Param}
    (hr : List.Forall₂ ReadAs us params) (s : ParamState)
    (hasc : (params.map Param.code).Pairwise (· < ·))
    (hlast : s.params ≠ [] → ∀ p ∈ params, s.lastCode < p.code) :
    ∃ last, us.foldlM (decodeParam true) s = .ok ⟨s.params ++ params, last⟩ := by
  induction hr generalizing s with
  | nil => exact ⟨s.lastCode, by simp [pure, Except.pure]⟩
  | @cons u p us params hp _ ih =>
    rw [List.map_cons, List.pairwise_cons] at hasc
    have hstep := (decodeParam_ok_iff s ⟨s.params ++ [p], u.1⟩ u).mpr
      ⟨p, hp, fun hne => hp.code ▸ hlast hne p (by simp), rfl⟩
    obtain ⟨last, hl⟩ := ih ⟨s.params ++ [p], u.1⟩ hasc.2
      (fun _ q hq => hp.code ▸ hasc.1 _ (List.mem_map.mpr ⟨q, hq, rfl⟩))
    refine ⟨last, ?_⟩
    rw [foldlM_cons_ok]
    exact ⟨_, hstep, by simpa using hl⟩

lemma decodeParams_sound (us : List (UInt8 × Bytes)) (s s' : ParamState)
    (h : us.foldlM (decodeParam true) s = .ok s') :
    ∃ params, List.Forall₂ ReadAs us params ∧ s'.params = s.params ++ params ∧
      (params.map Param.code).Pairwise (· < ·) ∧
      (s.params ≠ [] → ∀ p ∈ params, s.lastCode < p.code) := by
  induction us generalizing s with
  | nil =>
    obtain rfl := Except.ok.inj h
    exact ⟨[], by simp⟩
  | cons u us ih =>
    obtain ⟨s₁, hd, hf⟩ := (foldlM_cons_ok _ _ _ _).mp h
    obtain ⟨p, hp, hlast, rfl⟩ := (decodeParam_ok_iff s s₁ u).mp hd
    obtain ⟨params, hr, hs', hasc, hab⟩ := ih _ hf
    have hab' : ∀ q ∈ params, p.code < q.code := hp.code ▸ hab (by simp)
    refine ⟨p :: params, .cons hp hr, by simpa using hs', ?_, ?_⟩
    · rw [List.map_cons, List.pairwise_cons]
      refine ⟨?_, hasc⟩
      intro c hcm
      obtain ⟨q, hq, rfl⟩ := List.mem_map.mp hcm
      exact hab' q hq
    · intro hne
      rw [List.forall_mem_cons]
      exact ⟨hp.code ▸ hlast hne, fun q hq => UInt8.lt_trans (hp.code ▸ hlast hne) (hab' q hq)⟩

end PesitWizard.Core.Fpdu
