import PesitWizard.Core.Crc

/-! The reference computation of the check bytes, in 16-bit additions and subtractions. Where the
arithmetic of the reference would overflow the result is none. -/

namespace PesitWizard.Core.Crc

namespace ConnectExpress

def addU16 (a b : UInt16) : Option UInt16 := if a.toNat + b.toNat < 65536 then some (a + b) else none

def subU16 (a b : UInt16) : Option UInt16 := if b.toNat ≤ a.toNat then some (a - b) else none

def mulU16 (a b : UInt16) : Option UInt16 := if a.toNat * b.toNat < 65536 then some (a * b) else none

def reduce (s : UInt16) : Option UInt16 := if 0xFE < s then subU16 s 0xFF else some s

def step (s : UInt16 × UInt16) (b : UInt8) : Option (UInt16 × UInt16) := do
  let s1 ← addU16 s.1 b.toUInt16
  let s1 ← reduce s1
  let s2 ← addU16 s.2 s1
  let s2 ← reduce s2
  pure (s1, s2)

/-- The difference of two residues as a byte, where a negative one wraps around and loses one. -/
def difference (a b : UInt16) : Option UInt8 :=
  if b ≤ a then (subU16 a b).map UInt16.toUInt8 else some ((a - b).toUInt8 - 1)

def cx (msg : Bytes) : Option Bytes := do
  let s ← (msg ++ [0, 0]).foldlM step (0, 0)
  let s1 := s.1 % 255
  let s2 := s.2 % 255
  let c0 ← difference s1 s2
  let s1b ← mulU16 2 s1
  let s1b := s1b % 255
  let c1 ← difference s2 s1b
  pure [c0, c1]

lemma addU16_ok {a b : UInt16} (h : a.toNat + b.toNat < 65536) :
    ∃ c, addU16 a b = some c ∧ c.toNat = a.toNat + b.toNat := by
  refine ⟨a + b, by rw [addU16, if_pos h], ?_⟩
  rw [UInt16.toNat_add]
  exact Nat.mod_eq_of_lt h

lemma subU16_ok {a b : UInt16} (h : b.toNat ≤ a.toNat) :
    ∃ c, subU16 a b = some c ∧ c.toNat = a.toNat - b.toNat := by
  refine ⟨a - b, by rw [subU16, if_pos h], ?_⟩
  exact UInt16.toNat_sub_of_le _ _ h

lemma mulU16_ok {a b : UInt16} (h : a.toNat * b.toNat < 65536) :
    ∃ c, mulU16 a b = some c ∧ c.toNat = a.toNat * b.toNat := by
  refine ⟨a * b, by rw [mulU16, if_pos h], ?_⟩
  rw [UInt16.toNat_mul]
  exact Nat.mod_eq_of_lt h

/-- Below 510 one conditional subtraction is the residue modulo 255. -/
lemma reduce_ok {s : UInt16} (h : s.toNat < 510) : ∃ c, reduce s = some c ∧ c.toNat = s.toNat % 255 := by
  by_cases hs : 0xFE < s
  · have hle : (0xFF : UInt16).toNat ≤ s.toNat := by
      have hlt := UInt16.lt_iff_toNat_lt.mp hs
      exact hlt
    obtain ⟨c, hc, hn⟩ := subU16_ok hle
    refine ⟨c, by rw [reduce, if_pos hs, hc], ?_⟩
    simp only [UInt16.reduceToNat] at hn hle
    omega
  · refine ⟨s, by rw [reduce, if_neg hs], ?_⟩
    have hle := UInt16.le_iff_toNat_le.mp (UInt16.not_lt.mp hs)
    simp only [UInt16.reduceToNat] at hle
    omega

lemma step_ok {s : UInt16 × UInt16} (h1 : s.1.toNat < 255) (h2 : s.2.toNat < 255) (b : UInt8) :
    ∃ t, step s b = some t ∧ t.1.toNat = (s.1.toNat + b.toNat) % 255 ∧
      t.2.toNat = (s.2.toNat + (s.1.toNat + b.toNat) % 255) % 255 := by
  have hb := b.toNat_lt
  obtain ⟨x, hx, hxn⟩ := addU16_ok (a := s.1) (b := b.toUInt16) (by rw [UInt8.toNat_toUInt16]; omega)
  rw [UInt8.toNat_toUInt16] at hxn
  obtain ⟨s1, hs1, hn1⟩ := reduce_ok (s := x) (by omega)
  obtain ⟨y, hy, hyn⟩ := addU16_ok (a := s.2) (b := s1) (by omega)
  obtain ⟨s2, hs2, hn2⟩ := reduce_ok (s := y) (by omega)
  refine ⟨(s1, s2), by simp [step, hx, hs1, hy, hs2], ?_, ?_⟩
  · rw [hn1, hxn]
  · rw [hn2, hyn, hn1, hxn]

/-- The reference keeps the sums of the code. -/
lemma steps_ok (bytes : Bytes) :
    ∃ t, bytes.foldlM step (0, 0) = some t ∧ t.1.toNat = (sums bytes).1 ∧
    t.2.toNat = (sums bytes).2 := by
  induction bytes using List.reverseRecOn with
  | nil => exact ⟨(0, 0), rfl, rfl, rfl⟩
  | append_singleton bytes b ih =>
    obtain ⟨s, hs, h1, h2⟩ := ih
    obtain ⟨hlt1, hlt2⟩ := sums_lt bytes
    obtain ⟨t, ht, ht1, ht2⟩ := step_ok (s := s) (by omega) (by omega) b
    refine ⟨t, by simp [List.foldlM_append, hs, ht], ?_, ?_⟩
    · rw [ht1, sums_snoc, h1]
    · rw [ht2, sums_snoc, h1, h2]

lemma difference_ok {a b : UInt16} (ha : a.toNat < 255) (hb : b.toNat < 255) :
    difference a b = some (UInt8.ofNat ((a.toNat + 255 - b.toNat) % 255)) := by
  by_cases hle : b ≤ a
  · have hn := UInt16.le_iff_toNat_le.mp hle
    obtain ⟨c, hc, hcn⟩ := subU16_ok hn
    rw [difference, if_pos hle, hc, Option.map_some, Option.some.injEq, ← UInt8.toNat_inj,
      UInt16.toNat_toUInt8, UInt8.toNat_ofNat', hcn]
    omega
  · have hn : a.toNat < b.toNat := UInt16.lt_iff_toNat_lt.mp (UInt16.not_le.mp hle)
    rw [difference, if_neg hle, Option.some.injEq, ← UInt8.toNat_inj, UInt8.toNat_sub,
      UInt16.toNat_toUInt8, UInt16.toNat_sub, UInt8.toNat_ofNat']
    simp only [UInt8.reduceToNat]
    omega

theorem cx_eq (msg : Bytes) : cx msg = some (compute msg) := by
  obtain ⟨s, hs, h1, h2⟩ := steps_ok (msg ++ [0, 0])
  obtain ⟨hlt1, hlt2⟩ := sums_lt (msg ++ [0, 0])
  have hm1 : (s.1 % 255).toNat = (sums (msg ++ [0, 0])).1 := by
    rw [UInt16.toNat_mod, h1]
    exact Nat.mod_eq_of_lt hlt1
  have hm2 : (s.2 % 255).toNat = (sums (msg ++ [0, 0])).2 := by
    rw [UInt16.toNat_mod, h2]
    exact Nat.mod_eq_of_lt hlt2
  have htwo : (2 : UInt16).toNat = 2 := rfl
  obtain ⟨m, hm, hmn⟩ := mulU16_ok (a := 2) (b := s.1 % 255) (by rw [htwo]; omega)
  have hb : (m % 255).toNat = 2 * (sums (msg ++ [0, 0])).1 % 255 := by
    rw [UInt16.toNat_mod, hmn, hm1]
    rfl
  have hc0 := difference_ok (a := s.1 % 255) (b := s.2 % 255) (by omega) (by omega)
  have hc1 := difference_ok (a := s.2 % 255) (b := m % 255) (by omega) (by omega)
  have hy : ((sums (msg ++ [0, 0])).2 + 255 - 2 * (sums (msg ++ [0, 0])).1 % 255) % 255 =
      ((sums (msg ++ [0, 0])).2 + 2 * (255 - (sums (msg ++ [0, 0])).1)) % 255 := by
    omega
  rw [hm1, hm2] at hc0
  rw [hm2, hb, hy] at hc1
  simp only [cx, hs, hm, hc0, hc1, compute, Option.bind_eq_bind, Option.bind_some, Option.pure_def]

end ConnectExpress

end PesitWizard.Core.Crc
