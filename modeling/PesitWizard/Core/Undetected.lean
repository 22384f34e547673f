import Mathlib.Data.ZMod.Basic
import PesitWizard.Core.Crc
import PesitWizard.Library.Fletcher

/-! Which changes of a message the check bytes miss: the two sums of the code are the running sums of the
bytes in the integers modulo 255, so a change is missed exactly when it moves neither. -/

namespace PesitWizard.Core.Crc

open Library.Fletcher

def residue (b : UInt8) : ZMod 255 := (b.toNat : ZMod 255)

def residues (bytes : Bytes) : List (ZMod 255) := bytes.map residue

@[simp] lemma residues_length (bytes : Bytes) : (residues bytes).length = bytes.length :=
  List.length_map ..

lemma sums_cast (bytes : Bytes) :
    (((sums bytes).1 : ZMod 255), ((sums bytes).2 : ZMod 255)) = run (residues bytes) := by
  induction bytes using List.reverseRecOn with
  | nil => rfl
  | append_singleton bytes b ih =>
    have hstep : run (residues (bytes ++ [b])) =
        ((run (residues bytes)).1 + residue b,
        (run (residues bytes)).2 + ((run (residues bytes)).1 + residue b)) := by
      simp [run, residues]
    rw [hstep, ← ih, sums_snoc]
    simp [residue]

lemma eq_zero_of_cast {n : ℕ} (hn : n < 255) : (n : ZMod 255) = 0 ↔ n = 0 := by
  rw [ZMod.natCast_eq_zero_iff]
  exact ⟨fun h => Nat.eq_zero_of_dvd_of_lt h hn, fun h => h ▸ dvd_zero 255⟩

lemma verify_iff {bytes : Bytes} (hlen : crcLen ≤ bytes.length) :
    verify bytes = true ↔ (residues bytes).sum = 0 ∧ weighted (residues bytes) = 0 := by
  obtain ⟨h1, h2⟩ := sums_lt bytes
  have hc := sums_cast bytes
  rw [run_eq, Prod.mk.injEq] at hc
  rw [verify, if_neg (by omega), ← hc.1, ← hc.2, eq_zero_of_cast h1, eq_zero_of_cast h2]
  simp

lemma crcLen_le_of_verify {bytes : Bytes} (h : verify bytes = true) : crcLen ≤ bytes.length := by
  by_contra hlen
  rw [verify, if_pos (by omega)] at h
  cases h

/-- Two bytes have one residue when they are equal, or are 0 and 255. -/
lemma residue_eq_iff (a b : UInt8) :
    residue a = residue b ↔ a = b ∨ a = 0 ∧ b = 255 ∨ a = 255 ∧ b = 0 := by
  have ha := a.toNat_lt
  have hb := b.toNat_lt
  simp only [residue, ZMod.natCast_eq_natCast_iff', ← UInt8.toNat_inj, UInt8.reduceToNat]
  omega

lemma residues_set (bytes : Bytes) (i : ℕ) (b : UInt8) :
    residues (bytes.set i b) = (residues bytes).set i (residue b) :=
  List.map_set

lemma residues_exchange (bytes : Bytes) {i j : ℕ} (hi : i < bytes.length) (hj : j < bytes.length) :
    residues (exchange bytes i j hi hj) = exchange (residues bytes) i j (by simpa) (by simpa) := by
  simp [exchange, residues, List.map_set]

/-- A replaced byte is missed exactly when old and new byte have one residue. -/
lemma verify_set {v : Bytes} (hv : verify v = true) {i : ℕ} (hi : i < v.length) (b : UInt8) :
    verify (v.set i b) = true ↔ residue b = residue v[i] := by
  have hlen := crcLen_le_of_verify hv
  rw [verify_iff hlen] at hv
  have hi' : i < (residues v).length := by simpa
  have hget : (residues v)[i] = residue v[i] := List.getElem_map ..
  rw [verify_iff (by rwa [List.length_set]), residues_set, sum_set hi', weighted_set hi', hv.1,
    hv.2, hget, zero_add, zero_add, sub_eq_zero]
  constructor
  · exact And.left
  · intro h
    exact ⟨h, by rw [h, sub_self, mul_zero]⟩

lemma verify_exchange {v : Bytes} (hv : verify v = true) {i j : ℕ} (hij : i < j) (hj : j < v.length) :
    verify (exchange v i j (hij.trans hj) hj) = true ↔
      (255 : ℤ) ∣ ((j : ℤ) - i) * ((v[i].toNat : ℤ) - v[j].toNat) := by
  have hlen := crcLen_le_of_verify hv
  rw [verify_iff hlen] at hv
  have hi' : i < (residues v).length := by simpa using hij.trans hj
  have hj' : j < (residues v).length := by simpa
  have hgi : (residues v)[i] = residue v[i] := List.getElem_map ..
  have hgj : (residues v)[j] = residue v[j] := List.getElem_map ..
  have hcast : ((((j : ℤ) - i) * ((v[i].toNat : ℤ) - v[j].toNat) : ℤ) : ZMod 255) =
      ((j : ZMod 255) - i) * (residue v[i] - residue v[j]) := by
    simp [residue]
  rw [verify_iff (by simpa [exchange]), residues_exchange, sum_exchange hij hi' hj',
    weighted_exchange hij hi' hj', hv.1, hv.2, hgi, hgj, zero_sub, neg_eq_zero, ← hcast,
    ZMod.intCast_zmod_eq_zero_iff_dvd]
  simp

theorem undetected_changes :
    (∀ m : Bytes, verify (m ++ compute m) = true) ∧
    ∀ v : Bytes, verify v = true →
      (∀ (i : ℕ) (hi : i < v.length) (b : UInt8), b ≠ v[i] →
        (verify (v.set i b) = true ↔ v[i] = 0 ∧ b = 255 ∨ v[i] = 255 ∧ b = 0)) ∧
      ∀ (i j : ℕ) (hij : i < j) (hj : j < v.length),
        (verify (exchange v i j (hij.trans hj) hj) = true ↔
          (255 : ℤ) ∣ ((j : ℤ) - i) * ((v[i].toNat : ℤ) - v[j].toNat)) := by
  refine ⟨verify_compute, ?_⟩
  intro v hv
  constructor
  · intro i hi b hb
    rw [verify_set hv hi, eq_comm, residue_eq_iff]
    constructor
    · rintro (h | h)
      · exact absurd h.symm hb
      · exact h
    · exact Or.inr
  · intro i j hij hj
    exact verify_exchange hv hij hj

theorem undetected_changes_short :
    verify ([1, 255, 2] ++ compute [1, 255, 2]) = true ∧
    verify (([1, 255, 2] ++ compute [1, 255, 2]).set 1 0) = true ∧
    ¬ verify (([1, 255, 2] ++ compute [1, 255, 2]).set 0 3) = true := by
  have hv := undetected_changes.1 [1, 255, 2]
  have hone := (undetected_changes.2 _ hv).1 1 (by decide) 0 (by decide)
  have hzero := (undetected_changes.2 _ hv).1 0 (by decide) 3 (by decide)
  exact ⟨hv, hone.mpr (by decide), fun h => absurd (hzero.mp h) (by decide)⟩

end PesitWizard.Core.Crc
