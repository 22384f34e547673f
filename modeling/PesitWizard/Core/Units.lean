import PesitWizard.Core.Fpdu

/-! PI and PGI units on the wire: what the writer emits is what the reader takes, and the reader also
takes the extended length indicator of a short value. -/

namespace PesitWizard.Core

open Library.BigEndian Library.Scan

def unitBytes (u : UInt8 × Bytes) : Bytes := pushUnit [] u.1 u.2

lemma pushUnit_eq (out : Bytes) (code : UInt8) (value : Bytes) :
    pushUnit out code value = out ++ unitBytes (code, value) := by
  by_cases h : value.length < 255 <;> simp [pushUnit, unitBytes, h]

lemma unitBytes_short (code : UInt8) {value : Bytes} (h : value.length < 255) :
    unitBytes (code, value) = code :: UInt8.ofNat value.length :: value := by
  simp [unitBytes, pushUnit, h]

lemma unitBytes_long (code : UInt8) {value : Bytes} (h : 255 ≤ value.length) :
    unitBytes (code, value) = code :: 0xFF :: (be16 value.length ++ value) := by
  simp [unitBytes, pushUnit, Nat.not_lt.mpr h]

lemma unitBytes_length (u : UInt8 × Bytes) : (unitBytes u).length = unitLen u.2.length := by
  obtain ⟨code, value⟩ := u
  rcases Nat.lt_or_ge value.length 255 with h | h
  · simp [unitBytes_short code h, unitLen, h]
    omega
  · simp [unitBytes_long code h, unitLen, Nat.not_lt.mpr h]
    omega

lemma unitBytes_ne_nil (u : UInt8 × Bytes) : unitBytes u ≠ [] := by
  intro h
  have hl := unitBytes_length u
  rw [h, unitLen] at hl
  simp only [List.length_nil] at hl
  omega

lemma le_unitLen (n : ℕ) : n ≤ unitLen n := by
  simp only [unitLen]
  omega

lemma unitLen_mono {m n : ℕ} (h : m ≤ n) : unitLen m ≤ unitLen n := by
  simp only [unitLen]
  split <;> split <;> omega

lemma readUnit_unitBytes {code : UInt8} {value : Bytes} (hne : value ≠ []) (hlen : value.length < 65536)
    (rest : Bytes) : readUnit (unitBytes (code, value) ++ rest) = .ok ((code, value), rest) := by
  have hpos : value.length ≠ 0 := by simpa using hne
  rcases Nat.lt_or_ge value.length 255 with h | h
  · have hli : UInt8.ofNat value.length ≠ 0xFF := by
      intro he
      have hn := congrArg UInt8.toNat he
      rw [UInt8.toNat_ofNat'] at hn
      simp at hn
      omega
    have hnat : (UInt8.ofNat value.length).toNat = value.length := by
      rw [UInt8.toNat_ofNat']
      omega
    rw [unitBytes_short code h]
    simp only [List.cons_append, readUnit, hli, if_false, hnat, if_neg hpos, List.length_append]
    rw [if_neg (by omega), List.take_left, List.drop_left]
  · rw [unitBytes_long code h]
    simp only [List.cons_append, be16, List.nil_append, readUnit, if_true, ofBe16_be16 hlen, if_neg hpos,
      List.length_append]
    rw [if_neg (by omega), List.take_left, List.drop_left]

lemma readUnit_ok {xs rest : Bytes} {code : UInt8} {value : Bytes}
    (h : readUnit xs = .ok ((code, value), rest)) :
    value ≠ [] ∧ value.length < 65536 ∧ (xs = unitBytes (code, value) ++ rest ∨
      (value.length < 255 ∧ xs = code :: 0xFF :: (be16 value.length ++ value) ++ rest)) := by
  match xs with
  | [] => simp [readUnit] at h
  | [_] => simp [readUnit] at h
  | c :: li :: ys =>
    by_cases hli : li = 0xFF
    · match ys with
      | [] => simp [readUnit, hli] at h
      | [_] => simp [readUnit, hli] at h
      | hi :: lo :: zs =>
        simp only [readUnit, hli, if_true] at h
        split at h
        · cases h
        · split at h
          · cases h
          · rename_i hz hlt
            simp only [Except.ok.injEq, Prod.mk.injEq] at h
            obtain ⟨⟨rfl, rfl⟩, rfl⟩ := h
            have hlen : (zs.take (ofBe16 hi lo)).length = ofBe16 hi lo := by
              rw [List.length_take]
              omega
            have hb := ofBe16_lt hi lo
            have hsplit :
                c :: li :: hi :: lo :: zs = c :: 0xFF :: (be16 (zs.take (ofBe16 hi lo)).length ++
                zs.take (ofBe16 hi lo)) ++ zs.drop (ofBe16 hi lo) := by
              simp [hli, hlen, be16_ofBe16]
            refine ⟨?_, by omega, ?_⟩
            · intro he
              rw [he] at hlen
              exact hz hlen.symm
            · rcases Nat.lt_or_ge (zs.take (ofBe16 hi lo)).length 255 with hs | hs
              · exact Or.inr ⟨hs, hsplit⟩
              · exact Or.inl (by rw [unitBytes_long _ hs]; exact hsplit)
    · simp only [readUnit, hli, if_false] at h
      split at h
      · cases h
      · split at h
        · cases h
        · rename_i hz hlt
          simp only [Except.ok.injEq, Prod.mk.injEq] at h
          obtain ⟨⟨rfl, rfl⟩, rfl⟩ := h
          have hlen : (ys.take li.toNat).length = li.toNat := by
            rw [List.length_take]
            omega
          have hlt' : li.toNat < 255 := by
            have hb := li.toNat_lt
            have hne : li.toNat ≠ 255 := fun he => hli (UInt8.toNat_inj.mp he)
            omega
          refine ⟨?_, by omega, Or.inl ?_⟩
          · intro he
            rw [he] at hlen
            exact hz hlen.symm
          · rw [unitBytes_short _ (by omega), hlen]
            simp

lemma readUnit_consumes : Consumes readUnit := by
  intro xs u rest h
  obtain ⟨code, value⟩ := u
  obtain ⟨_, _, he | ⟨_, he⟩⟩ := readUnit_ok h
  · have hpos := List.length_pos_of_ne_nil (unitBytes_ne_nil (code, value))
    rw [he, List.length_append]
    omega
  · rw [he]
    simp only [List.cons_append, List.length_cons, List.length_append]
    omega

lemma readUnit_length {xs rest : Bytes} {u : UInt8 × Bytes} (h : readUnit xs = .ok (u, rest)) :
    (unitBytes u).length + rest.length ≤ xs.length := by
  obtain ⟨code, value⟩ := u
  obtain ⟨_, _, he | ⟨hs, he⟩⟩ := readUnit_ok h
  · have hlen := congrArg List.length he
    rw [List.length_append] at hlen
    exact Nat.le_of_eq hlen.symm
  · rw [he, unitBytes_short _ hs]
    simp only [List.cons_append, List.length_cons, List.length_append, be16_length]
    omega

end PesitWizard.Core
