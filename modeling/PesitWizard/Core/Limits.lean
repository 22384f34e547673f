import PesitWizard.Core.Canonical

/-! The lengths of the values that the strict decoder lets through. -/

namespace PesitWizard.Core

open Library.Scan

/-- The value is not longer than the parameter allows. -/
def Pi.Fits (pi : Pi) (value : Bytes) : Prop := pi.maxLen ≠ 0 → value.length ≤ pi.maxLen

instance (pi : Pi) (value : Bytes) : Decidable (pi.Fits value) := inferInstanceAs (Decidable (_ → _))

namespace Fpdu

/-- Every value, at top level and inside the groups, is within its limit. -/
def Bounded (f : Fpdu) : Prop :=
  (∀ pi value, .pi pi value ∈ f.params → pi.Fits value) ∧
    ∀ g items, .pgi g items ∈ f.params → ∀ i ∈ items, i.1.Fits i.2

def unitFits (u : UInt8 × Bytes) : Bool :=
  match Pi.fromCode u.1 with
  | some pi => pi.Fits u.2
  | none => true

def itemsFit (value : Bytes) : Bool := allUnits (fun _ u => unitFits u) value.length value

def groupFits (u : UInt8 × Bytes) : Bool := (Pgi.fromCode u.1).isNone || itemsFit u.2

def groupsFit : Bytes → Bool
  | _ :: _ :: phase :: typeCode :: _ :: _ :: body =>
    match FpduKind.fromCodes phase typeCode with
    | some kind => kind.isData || allUnits (fun _ u => groupFits u) body.length body
    | none => true
  | _ => true

lemma allUnits_iff (test : UInt8 × Bytes → Bool) {xs : Bytes} {us : List (UInt8 × Bytes)}
    (hc : Chunks readUnit xs us) {n : ℕ} (hn : xs.length ≤ n) :
    allUnits (fun _ u => test u) n xs = true ↔ ∀ u ∈ us, test u = true := by
  induction hc generalizing n with
  | nil => cases n <;> simp [allUnits]
  | @cons xs rest u us hx hread hc ih =>
    obtain ⟨m, hm, ha⟩ := allUnits_chunk (fun _ u => test u) hread hn
    rw [ha, Bool.and_eq_true, ih hm, List.forall_mem_cons]

lemma decode_params {b : Bytes} {f : Fpdu} (h : decode b = .ok f) :
    ∃ b0 b1 body, b = b0 :: b1 :: f.kind.phase :: f.kind.typeCode :: f.idDst :: f.idSrc :: body ∧
      (f.kind.isData = true ∧ f.params = [] ∨ f.kind.isData = false ∧ ∃ us, Chunks readUnit body us ∧
        List.Forall₂ ReadAs us f.params ∧ ∀ p ∈ f.params, checkParam f.kind p = .ok ()) := by
  match b with
  | [] | [_] | [_, _] | [_, _, _] | [_, _, _, _] | [_, _, _, _, _] => simp [decode, decodeWith] at h
  | b0 :: b1 :: b2 :: b3 :: b4 :: b5 :: body =>
    simp only [decode, decodeWith] at h
    split at h
    · cases h
    · split at h
      · cases h
      · rename_i kind hk
        obtain ⟨rfl, rfl⟩ := FpduKind.codes_of_fromCodes hk
        by_cases hd : kind.isData
        · rw [if_pos hd] at h
          obtain rfl := Except.ok.inj h
          exact ⟨b0, b1, body, rfl, .inl ⟨hd, rfl⟩⟩
        · rw [if_neg hd] at h
          split at h
          · cases h
          · rename_i s hs
            simp only [if_true] at h
            split at h
            · cases h
            · rename_i hval
              obtain rfl := Except.ok.inj h
              obtain ⟨us, hc, hf⟩ := scanAll_ok readUnit_consumes hs
              obtain ⟨params, hr, hp, -, -⟩ := decodeParams_sound us _ _ hf
              obtain rfl : s.params = params := by simpa using hp
              exact ⟨b0, b1, body, rfl,
                .inr ⟨by simpa using hd, us, hc, hr, ((validateTemplate_ok_iff _).mp hval).1⟩⟩

lemma groupFits_pi (pi : Pi) (value : Bytes) : groupFits (pi.code, value) = true := by
  rw [groupFits, Pgi.fromCode_pi_code]
  rfl

lemma groupFits_iff {u : UInt8 × Bytes} {g : Pgi} {items : List (Pi × Bytes)}
    (h : ReadAs u (.pgi g items)) :
    groupFits u = true ↔ ∀ i ∈ items, i.1.Fits i.2 := by
  obtain ⟨hg, last, hs⟩ := h
  obtain ⟨us, hc, hf⟩ := scanAll_ok readUnit_consumes hs
  obtain ⟨items', rfl, hi, -⟩ := decodeItems_sound g us _ _ hf
  obtain rfl : items = items' := by simpa using hi
  rw [groupFits, hg, Pgi.fromCode_code, Option.isNone_some, Bool.false_or, itemsFit,
    allUnits_iff unitFits hc (Nat.le_refl _), List.forall_mem_map]
  have hunit : ∀ i : Pi × Bytes, unitFits (itemUnit i) = true ↔ i.1.Fits i.2 := by
    intro i
    rw [unitFits, itemUnit, Pi.fromCode_code]
    exact decide_eq_true_iff
  exact forall₂_congr fun i _ => hunit i

lemma groups_iff {us : List (UInt8 × Bytes)} {params : List Param} (h : List.Forall₂ ReadAs us params) :
    (∀ u ∈ us, groupFits u = true) ↔ ∀ g items, .pgi g items ∈ params → ∀ i ∈ items, i.1.Fits i.2 := by
  induction h with
  | nil => simp
  | @cons u p us params hp _ ih =>
    rw [List.forall_mem_cons, ih]
    cases p with
    | pi pi value =>
      obtain rfl : u = (pi.code, value) := hp
      simp [groupFits_pi]
    | pgi g items =>
      rw [groupFits_iff hp]
      constructor
      · rintro ⟨hu, hrest⟩ g' items' hmem
        rcases List.mem_cons.mp hmem with hmem | hmem
        · obtain ⟨rfl, rfl⟩ := Param.pgi.inj hmem
          exact hu
        · exact hrest g' items' hmem
      · intro hall
        exact ⟨hall g items List.mem_cons_self, fun g' items' hmem =>
          hall g' items' (List.mem_cons_of_mem _ hmem)⟩

/-- The values at top level are always within their limits; those inside the groups are not checked. -/
theorem decode_bounded_iff (b : Bytes) (f : Fpdu) (h : decode b = .ok f) :
    f.Bounded ↔ groupsFit b = true := by
  obtain ⟨b0, b1, body, rfl, hparams⟩ := decode_params h
  rw [groupsFit, FpduKind.fromCodes_codes]
  dsimp only
  rcases hparams with ⟨hdata, hnil⟩ | ⟨hdata, us, hc, hr, hcheck⟩
  · simp [Bounded, hdata, hnil]
  · rw [hdata, Bool.false_or, allUnits_iff groupFits hc (Nat.le_refl _), groups_iff hr]
    refine ⟨fun hb => hb.2, fun hg => ⟨?_, hg⟩⟩
    intro pi value hmem hmax
    exact ((checkParam_ok_iff f.kind _).mp (hcheck _ hmem)).2.resolve_left hmax

theorem decode_bounded_sampleCreate :
    decode (sampleCreate.header ++ sampleCreate.body) = .ok sampleCreate ∧
    sampleCreate.Bounded := by
  have hdecode := decode_encoded (f := sampleCreate) (by decide) (by decide)
  exact ⟨hdecode, (decode_bounded_iff _ _ hdecode).mpr (by decide +kernel)⟩

def longReservation : Fpdu :=
  { sampleCreate with
    params := sampleCreate.params.set 5 (.pgi .physicalAttributes [(.maxReservation, [1, 0, 0, 0, 0])]) }

theorem decode_unbounded :
    decode (longReservation.header ++ longReservation.body) = .ok longReservation ∧
    ¬ longReservation.Bounded := by
  refine ⟨decode_encoded (by decide) (by decide), ?_⟩
  rintro ⟨-, hgroups⟩
  have hlen :=
    hgroups .physicalAttributes [(.maxReservation, [1, 0, 0, 0, 0])] (by decide) _
      (List.mem_singleton.mpr rfl)
  exact absurd (hlen (by decide)) (by decide)

end Fpdu

end PesitWizard.Core
