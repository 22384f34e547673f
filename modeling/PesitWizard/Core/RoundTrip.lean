import Mathlib.Data.List.Forall2
import PesitWizard.Core.DecodeLoop

/-! Encoding a well-formed FPDU and decoding the bytes gives the FPDU back. -/

namespace PesitWizard.Core.Fpdu

open Library.BigEndian Library.Scan

def itemsBytes (items : List (Pi × Bytes)) : Bytes := (items.map itemUnit).flatMap unitBytes

def paramUnit : Param → UInt8 × Bytes
  | .pi p value => (p.code, value)
  | .pgi g items => (g.code, itemsBytes items)

def paramsBytes (params : List Param) : Bytes := (params.map paramUnit).flatMap unitBytes

lemma itemsBytes_length (items : List (Pi × Bytes)) :
    (itemsBytes items).length = (items.map (fun i => unitLen i.2.length)).sum := by
  simp [itemsBytes, List.length_flatMap, List.map_map, Function.comp_def, unitBytes_length, itemUnit]

lemma paramsBytes_length (params : List Param) :
    (paramsBytes params).length = (params.map paramLen).sum := by
  rw [paramsBytes, List.length_flatMap, List.map_map]
  congr 2
  funext p
  cases p <;> simp [paramUnit, paramLen, unitBytes_length, itemsBytes_length]

lemma encodeItems_ok (items : List (Pi × Bytes)) (inner : Bytes) (h : ∀ i ∈ items, i.2 ≠ []) :
    encodeItems items inner = .ok (inner ++ itemsBytes items) := by
  induction items generalizing inner with
  | nil => simp [encodeItems, itemsBytes]
  | cons i items ih =>
    obtain ⟨pi, value⟩ := i
    rw [List.forall_mem_cons] at h
    simp only [encodeItems, List.isEmpty_iff, h.1, if_false]
    rw [ih _ h.2, pushUnit_eq]
    simp [itemsBytes, itemUnit]

def Filled : Param → Prop
  | .pi _ value => value ≠ []
  | .pgi _ items => ∀ i ∈ items, i.2 ≠ []

lemma encodeItems_filled {items : List (Pi × Bytes)} {inner b : Bytes}
    (h : encodeItems items inner = .ok b) :
    ∀ i ∈ items, i.2 ≠ [] := by
  induction items generalizing inner with
  | nil => simp
  | cons i items ih =>
    obtain ⟨pi, value⟩ := i
    rw [encodeItems] at h
    split at h
    · cases h
    · rename_i hne
      rw [List.forall_mem_cons]
      exact ⟨by simpa using hne, ih h⟩

lemma encodeParams_filled {params : List Param} {out b : Bytes} (h : encodeParams params out = .ok b) :
    ∀ p ∈ params, Filled p := by
  induction params generalizing out with
  | nil => simp
  | cons p params ih =>
    rw [List.forall_mem_cons]
    cases p with
    | pi q value =>
      rw [encodeParams] at h
      split at h
      · cases h
      · rename_i hne
        exact ⟨by simpa [Filled] using hne, ih h⟩
    | pgi g items =>
      rw [encodeParams] at h
      split at h
      · cases h
      · rename_i inner hinner
        exact ⟨encodeItems_filled hinner, ih h⟩

lemma encodeParams_eq {params : List Param} (h : ∀ p ∈ params, Filled p) (out : Bytes) :
    encodeParams params out = .ok (out ++ paramsBytes params) := by
  induction params generalizing out with
  | nil => simp [encodeParams, paramsBytes]
  | cons p params ih =>
    rw [List.forall_mem_cons] at h
    cases p with
    | pi q value =>
      have hne : value ≠ [] := h.1
      simp only [encodeParams, List.isEmpty_iff, hne, if_false]
      rw [ih h.2, pushUnit_eq]
      simp [paramsBytes, paramUnit]
    | pgi g items =>
      simp only [encodeParams, encodeItems_ok items [] h.1]
      rw [ih h.2, pushUnit_eq]
      simp [paramsBytes, paramUnit]

def header (f : Fpdu) : Bytes := be16 f.encodedLen ++ [f.kind.phase, f.kind.typeCode, f.idDst, f.idSrc]

def body (f : Fpdu) : Bytes := if f.kind.isData then f.data else paramsBytes f.params

lemma encodedLen_eq (f : Fpdu) : f.encodedLen = (f.header ++ f.body).length := by
  by_cases h : f.kind.isData <;>
    simp [encodedLen, header, body, h, headerLen, paramsBytes_length] <;> omega

def Encodable (f : Fpdu) : Prop :=
  f.encodedLen ≤ maxFpduLen ∧ (¬ f.kind.isData → ∀ p ∈ f.params, Filled p)

lemma encodeInto_encodable {f : Fpdu} (h : f.Encodable) (out : Bytes) :
    f.encodeInto out = .ok (out ++ (f.header ++ f.body)) := by
  simp only [encodeInto]
  rw [if_neg (Nat.not_lt.mpr h.1)]
  by_cases hk : f.kind.isData
  · simp [header, body, hk]
  · rw [if_neg hk, encodeParams_eq (h.2 hk)]
    simp [header, body, hk]

lemma encodeInto_iff {f : Fpdu} {out b : Bytes} :
    f.encodeInto out = .ok b ↔ f.Encodable ∧ b = out ++ (f.header ++ f.body) := by
  constructor
  · intro h
    have henc : f.Encodable := by
      simp only [encodeInto] at h
      split at h
      · cases h
      · rename_i hlen
        refine ⟨Nat.not_lt.mp hlen, ?_⟩
        intro hk
        rw [if_neg hk] at h
        exact encodeParams_filled h
    rw [encodeInto_encodable henc] at h
    exact ⟨henc, (Except.ok.inj h).symm⟩
  · rintro ⟨h, rfl⟩
    exact encodeInto_encodable h out

lemma filled_of_wellFormed {p : Param} (h : p.WellFormed) : Filled p := by
  cases p with
  | pi q value => exact h.1
  | pgi g items => exact fun i hi => (h.2.2.1 i hi).2

lemma encodeInto_ok {f : Fpdu} (hwf : f.WellFormed) (hlen : f.encodedLen ≤ 65535) (out : Bytes) :
    f.encodeInto out = .ok (out ++ (f.header ++ f.body)) := by
  refine encodeInto_encodable ⟨hlen, ?_⟩ out
  intro hk
  rw [WellFormed, if_neg hk] at hwf
  exact fun p hp => filled_of_wellFormed (hwf.2.each p hp)

lemma chunks_units {us : List (UInt8 × Bytes)} (hne : ∀ u ∈ us, u.2 ≠ [])
    (hlen : (us.flatMap unitBytes).length < 65536) : Chunks readUnit (us.flatMap unitBytes) us := by
  refine chunks_flatMap unitBytes (fun u _ => unitBytes_ne_nil u) ?_
  intro u hu rest
  have hsub : List.Sublist (unitBytes u) (us.map unitBytes).flatten :=
    List.sublist_flatten_of_mem (List.mem_map.mpr ⟨u, hu, rfl⟩)
  have hle := hsub.length_le
  rw [unitBytes_length, ← List.flatMap_def] at hle
  exact readUnit_unitBytes (hne u hu) (by have := le_unitLen u.2.length; omega) rest

lemma itemsBytes_ne_nil {items : List (Pi × Bytes)} (h : items ≠ []) : itemsBytes items ≠ [] := by
  cases items with
  | nil => exact absurd rfl h
  | cons i items => simp [itemsBytes, unitBytes_ne_nil]

lemma paramUnit_ne_nil {p : Param} (h : p.WellFormed) : (paramUnit p).2 ≠ [] := by
  cases p with
  | pi q value => exact h.1
  | pgi g items => exact itemsBytes_ne_nil h.1

lemma paramUnit_readAs {p : Param} (hwf : p.WellFormed)
    (hlen : (unitBytes (paramUnit p)).length < 65536) :
    ReadAs (paramUnit p) p := by
  cases p with
  | pi q value => rfl
  | pgi g items =>
    obtain ⟨_, hasc, hin, _⟩ := hwf
    rw [unitBytes_length] at hlen
    have hinner : (itemsBytes items).length < 65536 := by
      have := le_unitLen (itemsBytes items).length
      simp only [paramUnit] at hlen
      omega
    obtain ⟨last, hl⟩ :=
      decodeItems_complete g items ⟨[], 0⟩ hasc (fun i hi => (hin i hi).1) (fun h => absurd rfl h)
    refine ⟨rfl, last, ?_⟩
    simp only [paramUnit]
    rw [itemsBytes, scanAll_of_chunks readUnit_consumes (chunks_units ?_ hinner)]
    · exact hl
    · intro u hu
      obtain ⟨i, hi, rfl⟩ := List.mem_map.mp hu
      exact (hin i hi).2

lemma params_readAs {params : List Param} (hwf : ∀ p ∈ params, p.WellFormed)
    (hlen : (paramsBytes params).length < 65536) :
    List.Forall₂ ReadAs (params.map paramUnit) params := by
  induction params with
  | nil => exact .nil
  | cons p params ih =>
    rw [List.forall_mem_cons] at hwf
    simp only [paramsBytes, List.map_cons, List.flatMap_cons, List.length_append] at hlen
    exact .cons (paramUnit_readAs hwf.1 (by omega)) (ih hwf.2 (by simp only [paramsBytes]; omega))

lemma validateTemplate_ok {f : Fpdu} (h : ParamsWellFormed f.kind f.params) :
    f.validateTemplate = .ok () := by
  refine (validateTemplate_ok_iff f).mpr ⟨?_, h.present⟩
  intro p hp
  refine (checkParam_ok_iff f.kind p).mpr ⟨h.allowed p hp, ?_⟩
  have hw := h.each p hp
  cases p with
  | pi q value => exact hw.2
  | pgi g items => exact hw.2.2.2

lemma decodeItem_lenient {g : Pgi} {s s' : ItemState} {u : UInt8 × Bytes}
    (h : decodeItem true g s u = .ok s') :
    decodeItem false g s u = .ok s' := by
  simp only [decodeItem, Bool.true_and, Bool.false_and, Bool.false_eq_true, if_false] at h ⊢
  split at h
  · cases h
  · split at h
    · cases h
    · split at h
      · cases h
      · exact h

lemma decodeParam_lenient {s s' : ParamState} {u : UInt8 × Bytes} (h : decodeParam true s u = .ok s') :
    decodeParam false s u = .ok s' := by
  simp only [decodeParam, Bool.and_true, Bool.and_false, Bool.false_eq_true, if_false] at h ⊢
  split at h
  · cases h
  · rename_i hlate
    simp only [if_neg hlate]
    cases hg : Pgi.fromCode u.1 with
    | none => simpa only [hg] using h
    | some g =>
      simp only [hg] at h ⊢
      cases hi : scanAll readUnit (decodeItem true g) u.2 ⟨[], 0⟩ with
      | error e => simp [hi] at h
      | ok inner =>
        rw [scanAll_mono (fun _ _ _ => decodeItem_lenient) hi]
        simpa only [hi] using h

lemma scanAll_params {params : List Param} (hasc : (params.map Param.code).Pairwise (· < ·))
    (hread : ∀ p ∈ params, (paramUnit p).2 ≠ [] ∧ ReadAs (paramUnit p) p)
    (hlen : (paramsBytes params).length < 65536) (strict : Bool) :
    ∃ last, scanAll readUnit (decodeParam strict) (paramsBytes params) ⟨[], 0⟩ = .ok ⟨params, last⟩ := by
  have hforall : List.Forall₂ ReadAs (params.map paramUnit) params := by
    rw [List.forall₂_map_left_iff, List.forall₂_same]
    exact fun p hp => (hread p hp).2
  obtain ⟨last, hl⟩ := decodeParams_complete hforall ⟨[], 0⟩ hasc (fun h => absurd rfl h)
  have hc : Chunks readUnit (paramsBytes params) (params.map paramUnit) := by
    refine chunks_units ?_ hlen
    intro u hu
    obtain ⟨p, hm, rfl⟩ := List.mem_map.mp hu
    exact (hread p hm).1
  rw [← scanAll_of_chunks readUnit_consumes hc, List.nil_append] at hl
  cases strict with
  | true => exact ⟨last, hl⟩
  | false => exact ⟨last, scanAll_mono (fun _ _ _ => decodeParam_lenient) hl⟩

lemma decodeWith_framed {f : Fpdu} (hkind : f.kind.isData = false) (hdata : f.data = [])
    (hasc : (f.params.map Param.code).Pairwise (· < ·))
    (hread : ∀ p ∈ f.params, (paramUnit p).2 ≠ [] ∧ ReadAs (paramUnit p) p) (hlen : f.encodedLen ≤ 65535)
    (strict : Bool) :
    decodeWith (f.header ++ f.body) strict =
      if strict then
        match f.validateTemplate with
        | .error e => .error e
        | .ok _ => .ok f
      else .ok f := by
  have hbe : ofBe16 (UInt8.ofNat (f.encodedLen / 256)) (UInt8.ofNat f.encodedLen) = f.encodedLen :=
    ofBe16_be16 (by omega)
  have htotal := encodedLen_eq f
  simp only [header, be16, List.cons_append, List.nil_append, List.length_cons] at htotal
  simp only [decodeWith, header, be16, List.cons_append, List.nil_append, hbe, List.length_cons,
    FpduKind.fromCodes_codes]
  rw [if_neg (not_not.mpr htotal)]
  obtain ⟨kind, idDst, idSrc, params, data⟩ := f
  obtain rfl : data = [] := hdata
  simp only at hkind hasc hread
  simp only [hkind, Bool.false_eq_true, if_false, body] at htotal ⊢
  obtain ⟨last, hl⟩ := scanAll_params hasc hread (by omega) strict
  rewrite [hl]
  cases strict
  · rfl
  · rfl

lemma decode_framed {f : Fpdu} (hkind : f.kind.isData = false) (hdata : f.data = [])
    (hasc : (f.params.map Param.code).Pairwise (· < ·))
    (hread : ∀ p ∈ f.params, (paramUnit p).2 ≠ [] ∧ ReadAs (paramUnit p) p)
    (hlen : f.encodedLen ≤ 65535) :
    decode (f.header ++ f.body) =
      match f.validateTemplate with
      | .error e => .error e
      | .ok _ => .ok f :=
  decodeWith_framed hkind hdata hasc hread hlen true

lemma decodeWith_data {f : Fpdu} (hkind : f.kind.isData = true) (hparams : f.params = [])
    (hlen : f.encodedLen ≤ 65535) (strict : Bool) : decodeWith (f.header ++ f.body) strict = .ok f := by
  have hbe : ofBe16 (UInt8.ofNat (f.encodedLen / 256)) (UInt8.ofNat f.encodedLen) = f.encodedLen :=
    ofBe16_be16 (by omega)
  have htotal := encodedLen_eq f
  simp only [header, be16, List.cons_append, List.nil_append, List.length_cons] at htotal
  simp only [decodeWith, header, be16, List.cons_append, List.nil_append, hbe, List.length_cons,
    FpduKind.fromCodes_codes]
  rw [if_neg (not_not.mpr htotal)]
  obtain ⟨kind, idDst, idSrc, params, data⟩ := f
  obtain rfl : params = [] := hparams
  simp only at hkind
  simp [hkind, body]

lemma decode_encoded {f : Fpdu} (hwf : f.WellFormed) (hlen : f.encodedLen ≤ 65535) :
    decode (f.header ++ f.body) = .ok f := by
  by_cases h : f.kind.isData
  · rw [WellFormed, if_pos h] at hwf
    exact decodeWith_data h hwf hlen true
  · simp only [WellFormed, h, Bool.false_eq_true, if_false] at hwf
    obtain ⟨hdata, hp⟩ := hwf
    have hb : (paramsBytes f.params).length < 65536 := by
      have htotal := encodedLen_eq f
      simp only [header, be16, body, h, Bool.false_eq_true, if_false, List.cons_append, List.nil_append,
        List.length_cons] at htotal
      omega
    have hread := params_readAs hp.each hb
    rw [List.forall₂_map_left_iff, List.forall₂_same] at hread
    rw [decode_framed (by simpa using h) hdata hp.ascending
      (fun p hm => ⟨paramUnit_ne_nil (hp.each p hm), hread p hm⟩) hlen, validateTemplate_ok hp]

lemma decodeWith_lenient {bytes : Bytes} {f : Fpdu} (h : decode bytes = .ok f) :
    decodeWith bytes false = .ok f := by
  simp only [decode, decodeWith] at h ⊢
  split at h
  · split at h
    · cases h
    · rename_i hlen
      rw [if_neg hlen]
      split at h
      · cases h
      · rename_i kind hk
        split at h
        · rename_i hd
          simpa [hk, hd] using h
        · rename_i hd
          split at h
          · cases h
          · rename_i s hs
            rw [scanAll_mono (fun _ _ _ => decodeParam_lenient) hs]
            simp only [if_true] at h
            split at h
            · cases h
            · simpa [hk, hd] using h
  · cases h

def lengthField : Bytes → ℕ
  | hi :: lo :: _ => ofBe16 hi lo
  | _ => 0

theorem decode_encode (f : Fpdu) (hwf : f.WellFormed) (hlen : f.encodedLen ≤ 65535) :
    ∃ b, f.encode = .ok b ∧ b.length = f.encodedLen ∧ lengthField b = f.encodedLen ∧
    decode b = .ok f := by
  refine ⟨f.header ++ f.body, ?_, (encodedLen_eq f).symm, ofBe16_be16 (by omega),
    decode_encoded hwf hlen⟩
  simpa [encode] using encodeInto_ok hwf hlen []

def sampleCreate : Fpdu :=
  ⟨.create, 0x62, 0,
    [.pgi .fileId [(.fileType, [0]), (.fileName, [0x50, 0x57])], .pi .transferId [0x12, 0x34],
      .pi .priority [0], .pi .maxEntitySize [0x80, 0],
      .pgi .logicalAttributes [(.articleFormat, [0x80]), (.articleLength, [0x10, 0])],
      .pgi .physicalAttributes [(.maxReservation, [5])],
      .pgi .historicalAttributes [(.creationDate, [0x32, 0x36])]], []⟩

theorem decode_encode_sampleCreate : sampleCreate.WellFormed ∧ sampleCreate.encodedLen ≤ 65535 ∧
    ∃ b, sampleCreate.encode = .ok b ∧ b.length = sampleCreate.encodedLen ∧
      lengthField b = sampleCreate.encodedLen ∧ decode b = .ok sampleCreate :=
  ⟨by decide, by decide, decode_encode sampleCreate (by decide) (by decide)⟩

end PesitWizard.Core.Fpdu
