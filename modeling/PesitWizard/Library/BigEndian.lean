import Mathlib.Tactic.Common
import Mathlib.Data.List.Basic
import Mathlib.Data.List.Induction
import Mathlib.Algebra.GroupWithZero.Nat

/-! Big-endian numbers: two bytes, and any number of bytes. -/

namespace PesitWizard.Library.BigEndian

def be16 (n : ℕ) : List UInt8 := [UInt8.ofNat (n / 256), UInt8.ofNat n]

def ofBe16 (hi lo : UInt8) : ℕ := hi.toNat * 256 + lo.toNat

@[simp] lemma be16_length (n : ℕ) : (be16 n).length = 2 := rfl

lemma ofBe16_lt (hi lo : UInt8) : ofBe16 hi lo < 65536 := by
  have h := hi.toNat_lt
  have h' := lo.toNat_lt
  simp only [ofBe16]
  omega

lemma ofBe16_be16 {n : ℕ} (hn : n < 65536) : ofBe16 (UInt8.ofNat (n / 256)) (UInt8.ofNat n) = n := by
  simp only [ofBe16, UInt8.toNat_ofNat']
  omega

lemma be16_ofBe16 (hi lo : UInt8) : be16 (ofBe16 hi lo) = [hi, lo] := by
  have h := hi.toNat_lt
  have h' := lo.toNat_lt
  simp only [be16, List.cons.injEq, and_true, ← UInt8.toNat_inj, UInt8.toNat_ofNat', ofBe16]
  omega

def beBytes : ℕ → ℕ → List UInt8
  | 0, _ => []
  | k + 1, n => beBytes k (n / 256) ++ [UInt8.ofNat n]

def ofBeBytes (bytes : List UInt8) : ℕ := bytes.foldl (fun acc b => acc * 256 + b.toNat) 0

@[simp] lemma beBytes_length (k n : ℕ) : (beBytes k n).length = k := by
  induction k generalizing n with
  | zero => rfl
  | succ k ih => simp [beBytes, ih]

lemma ofBeBytes_snoc (bytes : List UInt8) (b : UInt8) :
    ofBeBytes (bytes ++ [b]) = ofBeBytes bytes * 256 + b.toNat := by
  simp [ofBeBytes]

lemma ofBeBytes_beBytes (k n : ℕ) : ofBeBytes (beBytes k n) = n % 256 ^ k := by
  induction k generalizing n with
  | zero => simp [beBytes, ofBeBytes, Nat.mod_one]
  | succ k ih =>
    have hmul : n % 256 ^ (k + 1) = n % 256 + 256 * (n / 256 % 256 ^ k) := by
      rw [pow_succ' 256 k, Nat.mod_mul]
    rw [beBytes, ofBeBytes_snoc, ih, UInt8.toNat_ofNat', hmul]
    omega

lemma beBytes_of_lt {j n : ℕ} (k : ℕ) (hn : n < 256 ^ j) :
    beBytes (k + j) n = List.replicate k 0 ++ beBytes j n := by
  induction j generalizing n with
  | zero =>
    obtain rfl : n = 0 := by simpa using hn
    simp only [Nat.add_zero, beBytes, List.append_nil]
    induction k with
    | zero => rfl
    | succ k ih =>
      rw [beBytes, ih, List.replicate_succ']
      rfl
  | succ j ih =>
    have hlt : n / 256 < 256 ^ j := by
      rw [pow_succ'] at hn
      exact Nat.div_lt_of_lt_mul hn
    rw [← Nat.add_assoc, beBytes, ih hlt, beBytes, List.append_assoc]

lemma beBytes_head {j n : ℕ} (hlo : 256 ^ j ≤ n) (hhi : n < 256 ^ (j + 1)) :
    ∃ b rest, beBytes (j + 1) n = b :: rest ∧ b ≠ 0 := by
  induction j generalizing n with
  | zero =>
    refine ⟨UInt8.ofNat n, [], rfl, ?_⟩
    intro h
    have := congrArg UInt8.toNat h
    simp only [UInt8.toNat_ofNat', UInt8.toNat_zero] at this
    simp only [pow_zero, zero_add, pow_one] at hlo hhi
    omega
  | succ j ih =>
    have hlo' : 256 ^ j ≤ n / 256 := by
      rw [pow_succ] at hlo
      omega
    have hhi' : n / 256 < 256 ^ (j + 1) := by
      rw [pow_succ'] at hhi
      exact Nat.div_lt_of_lt_mul hhi
    obtain ⟨b, rest, hb, hne⟩ := ih hlo' hhi'
    exact ⟨b, rest ++ [UInt8.ofNat n], by rw [beBytes, hb]; rfl, hne⟩

lemma ofBeBytes_lt (bytes : List UInt8) : ofBeBytes bytes < 256 ^ bytes.length := by
  induction bytes using List.reverseRecOn with
  | nil => exact Nat.one_pos
  | append_singleton bytes b ih =>
    have hb := b.toNat_lt
    rw [ofBeBytes_snoc, List.length_append, List.length_singleton, pow_succ]
    omega

lemma beBytes_ofBeBytes (bytes : List UInt8) : beBytes bytes.length (ofBeBytes bytes) = bytes := by
  induction bytes using List.reverseRecOn with
  | nil => rfl
  | append_singleton bytes b ih =>
    have hb := b.toNat_lt
    have hdiv : (ofBeBytes bytes * 256 + b.toNat) / 256 = ofBeBytes bytes := by omega
    have hlast : UInt8.ofNat (ofBeBytes bytes * 256 + b.toNat) = b := by
      rw [← UInt8.toNat_inj, UInt8.toNat_ofNat']
      omega
    rw [ofBeBytes_snoc, List.length_append, List.length_singleton, beBytes, hdiv, ih, hlast]

lemma le_ofBeBytes_cons {b : UInt8} (hb : b ≠ 0) (rest : List UInt8) :
    256 ^ rest.length ≤ ofBeBytes (b :: rest) := by
  have hpos : 0 < b.toNat := Nat.pos_of_ne_zero fun h => hb (UInt8.toNat_inj.mp h)
  induction rest using List.reverseRecOn with
  | nil =>
    rw [List.length_nil, pow_zero]
    simpa [ofBeBytes] using Nat.succ_le_of_lt hpos
  | append_singleton rest c ih =>
    rw [← List.cons_append, ofBeBytes_snoc, List.length_append, List.length_singleton, pow_succ]
    omega

end PesitWizard.Library.BigEndian
