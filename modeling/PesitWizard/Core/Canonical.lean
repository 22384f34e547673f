import PesitWizard.Core.RoundTrip

/-! The decoder keeps no more than the canonical encoding says: re-encoding what it accepts shortens the
length indicators and changes nothing else. -/

namespace PesitWizard.Core.Fpdu

open Library.BigEndian Library.Scan

def liShortest : Bytes → Bool
  | _ :: li :: hi :: lo :: _ => li != 0xFF || 255 ≤ ofBe16 hi lo
  | _ => true

def allUnits (test : Bytes → UInt8 × Bytes → Bool) : ℕ → Bytes → Bool
  | 0, _ => true
  | n + 1, xs =>
    if xs.isEmpty then true
    else
      match readUnit xs with
      | .error _ => true
      | .ok (u, rest) => test xs u && allUnits test n rest

def itemsShortest (value : Bytes) : Bool :=
  allUnits (fun xs _ => liShortest xs && true) value.length value

def groupShortest (u : UInt8 × Bytes) : Bool := (Pgi.fromCode u.1).isNone || itemsShortest u.2

def paramsShortest (body : Bytes) : Bool :=
  allUnits (fun xs u => liShortest xs && groupShortest u) body.length body

def lisShortest : Bytes → Bool
  | _ :: _ :: phase :: typeCode :: _ :: _ :: body =>
    match FpduKind.fromCodes phase typeCode with
    | some kind => kind.isData || paramsShortest body
    | none => true
  | _ => true

lemma allUnits_chunk (test : Bytes → UInt8 × Bytes → Bool) {xs rest : Bytes} {u : UInt8 × Bytes}
    (hr : readUnit xs = .ok (u, rest)) {n : ℕ} (hn : xs.length ≤ n) :
    ∃ m, rest.length ≤ m ∧ allUnits test n xs = (test xs u && allUnits test m rest) := by
  have hlt := readUnit_consumes _ _ _ hr
  cases n with
  | zero => omega
  | succ n =>
    have hne : xs.isEmpty = false := by
      cases xs with
      | nil => simp at hlt
      | cons x xs => rfl
    exact ⟨n, by omega, by simp [allUnits, hne, hr]⟩

lemma liShortest_unitBytes {code : UInt8} {value rest : Bytes} (hlen : value.length < 65536) :
    liShortest (unitBytes (code, value) ++ rest) = true := by
  rcases Nat.lt_or_ge value.length 255 with h | h
  · rw [unitBytes_short code h]
    have hli : UInt8.ofNat value.length ≠ 0xFF := by
      intro he
      have hn := congrArg UInt8.toNat he
      rw [UInt8.toNat_ofNat'] at hn
      simp at hn
      omega
    match hv : value ++ rest with
    | [] => simp [liShortest, hv]
    | [_] => simp [liShortest, hv]
    | _ :: _ :: _ => simp [liShortest, hv, hli]
  · rw [unitBytes_long code h]
    simp [liShortest, be16, ofBe16_be16 hlen, h]

lemma liShortest_extended {code : UInt8} {value rest : Bytes} (hlen : value.length < 255) :
    liShortest (code :: 0xFF :: (be16 value.length ++ value) ++ rest) = false := by
  simp [liShortest, be16, ofBe16_be16 (by omega : value.length < 65536), hlen]

/-- What re-encoding may do to a unit: its content gets no longer, and stays the same exactly when `same`
says so. -/
def Reencodes (same : UInt8 × Bytes → Bool) (u v : UInt8 × Bytes) : Prop :=
  v.1 = u.1 ∧ v.2 ≠ [] ∧ v.2.length ≤ u.2.length ∧ (v.2 = u.2 ↔ same u = true)

lemma unitBytes_injective {u v : UInt8 × Bytes} (hu : u.2 ≠ []) (hv : v.2 ≠ [])
    (hul : u.2.length < 65536) (hvl : v.2.length < 65536) (h : unitBytes u = unitBytes v) : u = v := by
  have hr : readUnit (unitBytes u ++ []) = .ok (u, []) := readUnit_unitBytes hu hul []
  have hr' : readUnit (unitBytes v ++ []) = .ok (v, []) := readUnit_unitBytes hv hvl []
  rw [h, hr'] at hr
  exact (Prod.mk.inj (Except.ok.inj hr)).1.symm

lemma reencode_units (same : UInt8 × Bytes → Bool) {xs : Bytes} {us vs : List (UInt8 × Bytes)}
    (hc : Chunks readUnit xs us) (hr : List.Forall₂ (Reencodes same) us vs) {n : ℕ}
    (hn : xs.length ≤ n) :
    (vs.flatMap unitBytes).length ≤ xs.length ∧
      (vs.flatMap unitBytes = xs ↔ allUnits (fun xs u => liShortest xs && same u) n xs = true) := by
  induction hc generalizing vs n with
  | nil =>
    cases hr
    cases n <;> simp [allUnits]
  | @cons xs rest u us hx hread hc ih =>
    cases hr with
    | @cons _ v _ vs huv hvs =>
      obtain ⟨m, hm, ha⟩ := allUnits_chunk (fun xs u => liShortest xs && same u) hread hn
      obtain ⟨hlen, hiff⟩ := ih hvs hm
      obtain ⟨hcode, hvne, hvlen, hsame⟩ := huv
      obtain ⟨code, value⟩ := u
      obtain ⟨hune, hul, hform⟩ := readUnit_ok hread
      have hunit : (unitBytes v).length ≤ (unitBytes (code, value)).length := by
        rw [unitBytes_length, unitBytes_length]
        exact unitLen_mono hvlen
      have htotal := readUnit_length hread
      rw [List.flatMap_cons, List.length_append, ha]
      refine ⟨by omega, ?_⟩
      rcases hform with he | ⟨hs, he⟩
      · -- the unit is in the form the writer gives it
        rw [he, liShortest_unitBytes hul, Bool.true_and, Bool.and_eq_true, ← hsame, ← hiff]
        constructor
        · intro h
          have hl := congrArg List.length h
          simp only [List.length_append] at hl
          obtain ⟨h₁, h₂⟩ := List.append_inj h (by omega)
          obtain rfl := unitBytes_injective hvne hune (by simp only at hvlen; omega) hul h₁
          exact ⟨rfl, h₂⟩
        · rintro ⟨h₁, h₂⟩
          obtain rfl : v = (code, value) := Prod.ext hcode h₁
          rw [h₂]
      · -- an extended length indicator is two bytes longer than needed
        have hlong : xs.length = (unitBytes (code, value)).length + 2 + rest.length := by
          rw [he, unitBytes_short _ hs]
          simp only [List.cons_append, List.length_cons, List.length_append, be16_length]
          omega
        have hl : liShortest xs = false := he ▸ liShortest_extended hs
        simp only [hl, Bool.false_and, Bool.false_eq_true, iff_false]
        intro h
        have := congrArg List.length h
        simp only [List.length_append] at this
        omega

lemma reencodes_refl {xs : Bytes} {us : List (UInt8 × Bytes)} (hc : Chunks readUnit xs us) :
    List.Forall₂ (Reencodes (fun _ => true)) us us := by
  induction hc with
  | nil => exact .nil
  | @cons _ _ u _ _ hread _ ih =>
    obtain ⟨hne, _, _⟩ := @readUnit_ok _ _ u.1 u.2 hread
    exact .cons ⟨rfl, hne, Nat.le_refl _, by simp⟩ ih

def Shaped : Param → Prop
  | .pi _ value => value ≠ []
  | .pgi g items => items ≠ [] ∧ (items.map (fun i => i.1.code)).Pairwise (· < ·) ∧
      ∀ i ∈ items, g.contains i.1 = true ∧ i.2 ≠ []

lemma readAs_reencodes {u : UInt8 × Bytes} {p : Param} (hne : u.2 ≠ []) (hr : ReadAs u p) :
    Reencodes groupShortest u (paramUnit p) ∧ Shaped p := by
  cases p with
  | pi q value =>
    obtain rfl : u = (q.code, value) := hr
    exact ⟨⟨rfl, hne, Nat.le_refl _, by simp [paramUnit, groupShortest, Pgi.fromCode_pi_code]⟩, hne⟩
  | pgi g items =>
    obtain ⟨hg, last, hs⟩ := hr
    obtain ⟨us, hc, hf⟩ := scanAll_ok readUnit_consumes hs
    obtain ⟨items', rfl, hi, hasc, hin, _⟩ := decodeItems_sound g us _ _ hf
    obtain rfl : items = items' := by simpa using hi
    obtain ⟨hlen, hiff⟩ := reencode_units (fun _ => true) hc (reencodes_refl hc) (Nat.le_refl _)
    have hitems : items ≠ [] := by
      rintro rfl
      generalize u.2 = value at hc hne
      cases hc
      exact hne rfl
    have hvals : ∀ i ∈ items, i.2 ≠ [] := by
      intro i hi
      have hmem : ∀ us vs, List.Forall₂ (Reencodes (fun _ => true)) us vs → ∀ v ∈ vs, v.2 ≠ [] := by
        intro us vs h
        induction h with
        | nil => simp
        | cons huv _ ih => exact List.forall_mem_cons.mpr ⟨huv.2.1, ih⟩
      exact hmem _ _ (reencodes_refl hc) (itemUnit i) (List.mem_map.mpr ⟨i, hi, rfl⟩)
    refine ⟨⟨hg.symm, itemsBytes_ne_nil hitems, hlen, ?_⟩, hitems, hasc, fun i hi =>
      ⟨hin i hi, hvals i hi⟩⟩
    rw [groupShortest, hg, Pgi.fromCode_code]
    exact hiff

lemma paramUnits_reencode {xs : Bytes} {us : List (UInt8 × Bytes)} {params : List Param}
    (hc : Chunks readUnit xs us) (hr : List.Forall₂ ReadAs us params) :
    List.Forall₂ (Reencodes groupShortest) us (params.map paramUnit) ∧ ∀ p ∈ params, Shaped p := by
  induction hr generalizing xs with
  | nil => exact ⟨.nil, by simp⟩
  | @cons u p us params hp _ ih =>
    cases hc with
    | cons hx hread hc =>
      obtain ⟨hne, _, _⟩ := @readUnit_ok _ _ u.1 u.2 hread
      obtain ⟨h₁, h₂⟩ := readAs_reencodes hne hp
      obtain ⟨h₃, h₄⟩ := ih hc
      exact ⟨.cons h₁ h₃, List.forall_mem_cons.mpr ⟨h₂, h₄⟩⟩

lemma decode_ok {b : Bytes} {f : Fpdu} (h : decode b = .ok f) :
    ∃ body, b = be16 b.length ++ [f.kind.phase, f.kind.typeCode, f.idDst, f.idSrc] ++ body ∧
    b.length < 65536 ∧
      f.WellFormed ∧ f.body.length ≤ body.length ∧ (f.body = body ↔ lisShortest b = true) := by
  match b with
  | [] | [_] | [_, _] | [_, _, _] | [_, _, _, _] | [_, _, _, _, _] => simp [decode, decodeWith] at h
  | b0 :: b1 :: b2 :: b3 :: b4 :: b5 :: body =>
    simp only [decode, decodeWith] at h
    split at h
    · cases h
    · rename_i hdecl
      rw [not_not] at hdecl
      split at h
      · cases h
      · rename_i kind hk
        obtain ⟨rfl, rfl⟩ := FpduKind.codes_of_fromCodes hk
        have hb : (b0 :: b1 :: kind.phase :: kind.typeCode :: b4 :: b5 :: body).length < 65536 :=
          hdecl ▸ ofBe16_lt b0 b1
        refine ⟨body, ?_⟩
        rw [← hdecl, be16_ofBe16]
        by_cases hd : kind.isData
        · rw [if_pos hd] at h
          obtain rfl := Except.ok.inj h
          refine ⟨rfl, hdecl ▸ hb, ?_, ?_, ?_⟩ <;> simp [WellFormed, Fpdu.body, lisShortest, hk, hd]
        · rw [if_neg hd] at h
          split at h
          · cases h
          · rename_i s hs
            simp only [if_true] at h
            split at h
            · cases h
            · rename_i hval
              obtain rfl := Except.ok.inj h
              obtain ⟨us, hc, hf⟩ := scanAll_ok readUnit_consumes hs
              obtain ⟨params, hr, hp, hasc, _⟩ := decodeParams_sound us _ _ hf
              obtain rfl : s.params = params := by simpa using hp
              obtain ⟨hre, hwf⟩ := paramUnits_reencode hc hr
              obtain ⟨hlen, hiff⟩ := reencode_units groupShortest hc hre (Nat.le_refl _)
              obtain ⟨hcheck, hpresent⟩ := (validateTemplate_ok_iff _).mp hval
              refine ⟨rfl, hdecl ▸ hb, ?_, ?_, ?_⟩
              · simp only [WellFormed, hd, Bool.false_eq_true, if_false, true_and]
                refine ⟨hasc, fun p hp => ((checkParam_ok_iff _ _).mp (hcheck p hp)).1, hpresent, ?_⟩
                intro p hp
                have h₁ := hwf p hp
                have h₂ := ((checkParam_ok_iff _ _).mp (hcheck p hp)).2
                cases p with
                | pi q value => exact ⟨h₁, h₂⟩
                | pgi g items => exact ⟨h₁.1, h₁.2.1, h₁.2.2, h₂⟩
              · simpa only [Fpdu.body, hd, Bool.false_eq_true, if_false, paramsBytes] using hlen
              · simpa only [Fpdu.body, hd, Bool.false_eq_true, if_false, lisShortest, hk, Bool.false_or,
                  paramsBytes, paramsShortest] using hiff

theorem decode_normal_form (b : Bytes) (f : Fpdu) (h : decode b = .ok f) :
    ∃ b', f.encode = .ok b' ∧ b'.length ≤ b.length ∧ decode b' = .ok f ∧
    (b' = b ↔ lisShortest b = true) := by
  obtain ⟨body, hb, hlt, hwf, hlen, hiff⟩ := decode_ok h
  have hblen : b.length = 6 + body.length := by
    have := congrArg List.length hb
    simp only [List.length_append, be16_length, List.length_cons, List.length_nil] at this
    omega
  have hflen : f.encodedLen = 6 + f.body.length := by
    rw [encodedLen_eq, header]
    simp only [List.length_append, be16_length, List.length_cons, List.length_nil]
  refine ⟨f.header ++ f.body, ?_, ?_, decode_encoded hwf (by omega), ?_⟩
  · simpa [encode] using encodeInto_ok hwf (by omega) []
  · rw [← encodedLen_eq]
    omega
  · rw [← hiff]
    constructor
    · intro he
      rw [hb, header] at he
      exact (List.append_inj he (by simp)).2
    · intro he
      have hl : f.encodedLen = b.length := by rw [hflen, hblen, he]
      rw [hb, header, hl, he]

def extendedAckWrite : Bytes := [0, 18, 0xC0, 0x36, 1, 0, 2, 0xFF, 0, 3, 0, 0, 0, 18, 0xFF, 0, 1, 0]

def sampleAckWrite : Fpdu := ⟨.ackWrite, 1, 0, [.pi .diag [0, 0, 0], .pi .restartPoint [0]], []⟩

theorem decode_normal_form_extendedAckWrite : decode extendedAckWrite = .ok sampleAckWrite ∧
    ∃ b', sampleAckWrite.encode = .ok b' ∧ b'.length ≤ extendedAckWrite.length ∧
    decode b' = .ok sampleAckWrite ∧
      (b' = extendedAckWrite ↔ lisShortest extendedAckWrite = true) :=
  ⟨by decide, decode_normal_form extendedAckWrite sampleAckWrite (by decide)⟩

end PesitWizard.Core.Fpdu
