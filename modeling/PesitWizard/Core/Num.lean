import Mathlib.Data.Nat.Log
import Mathlib.Data.List.Induction
import PesitWizard.Core.Diag

/-! Numeric parameter values: big-endian, as short as possible. -/

namespace PesitWizard.Core

open Library.BigEndian

def encodeNum (value : ℕ) : Bytes :=
  let bytes := beBytes 8 value
  bytes.drop ((bytes.findIdx? (· ≠ 0)).getD 7)

def decodeNum (bytes : Bytes) : ℕ := bytes.foldl (fun acc b => acc * 256 % 2 ^ 64 + b.toNat) 0

lemma decodeNum_eq (bytes : Bytes) : decodeNum bytes = ofBeBytes bytes % 2 ^ 64 := by
  induction bytes using List.reverseRecOn with
  | nil => rfl
  | append_singleton bytes b ih =>
    have hb := b.toNat_lt
    simp only [decodeNum] at ih
    rw [decodeNum, List.foldl_append, ih, ofBeBytes_snoc]
    simp only [List.foldl_cons, List.foldl_nil]
    omega

lemma findIdx_zeros (k : ℕ) (b : UInt8) (rest : Bytes) (hb : b ≠ 0) :
    (List.replicate k 0 ++ b :: rest).findIdx? (· ≠ 0) = some k := by
  simp [List.findIdx?_append, List.findIdx?_cons, hb]

lemma encodeNum_eq {j n : ℕ} (hj : j < 8) (hlo : 256 ^ j ≤ n) (hhi : n < 256 ^ (j + 1)) :
    encodeNum n = beBytes (j + 1) n := by
  obtain ⟨k, hk⟩ : ∃ k, 8 = k + (j + 1) := ⟨7 - j, by omega⟩
  obtain ⟨b, rest, hb, hne⟩ := beBytes_head hlo hhi
  have hbytes : beBytes 8 n = List.replicate k 0 ++ b :: rest := by rw [hk, beBytes_of_lt k hhi, hb]
  simp only [encodeNum]
  rw [hbytes, findIdx_zeros k b rest hne, hb]
  simp

lemma encodeNum_zero : encodeNum 0 = [0] := by decide

lemma encodeNum_width {n : ℕ} (hn : n < 2 ^ 64) (h0 : n ≠ 0) :
    ∃ j, j < 8 ∧ 256 ^ j ≤ n ∧ n < 256 ^ (j + 1) ∧ encodeNum n = beBytes (j + 1) n := by
  have hlog := Nat.pow_log_le_self 256 h0
  have hlt := Nat.lt_pow_succ_log_self (by decide : 1 < 256) n
  have h8 : Nat.log 256 n < 8 := Nat.log_lt_of_lt_pow h0 (by simpa using hn)
  exact ⟨_, h8, hlog, hlt, encodeNum_eq h8 hlog hlt⟩

lemma decodeNum_encodeNum {n : ℕ} (hn : n < 2 ^ 64) : decodeNum (encodeNum n) = n := by
  rcases Nat.eq_zero_or_pos n with rfl | h0
  · decide
  · obtain ⟨j, -, -, hhi, he⟩ := encodeNum_width hn h0.ne'
    rw [decodeNum_eq, he, ofBeBytes_beBytes, Nat.mod_eq_of_lt hhi, Nat.mod_eq_of_lt hn]

lemma encodeNum_ne_nil {n : ℕ} (hn : n < 2 ^ 64) : encodeNum n ≠ [] := by
  rcases Nat.eq_zero_or_pos n with rfl | h0
  · decide
  · obtain ⟨j, -, -, -, he⟩ := encodeNum_width hn h0.ne'
    intro h
    have := congrArg List.length h
    simp [he] at this

lemma encodeNum_length_le {n : ℕ} (k : ℕ) (hn : n < 2 ^ 64) :
    (encodeNum n).length ≤ k + 1 ↔ n < 256 ^ (k + 1) := by
  rcases Nat.eq_zero_or_pos n with rfl | h0
  · have hpos : 0 < 256 ^ (k + 1) := Nat.pow_pos (by decide)
    simp [encodeNum_zero, hpos]
  · obtain ⟨j, -, hlo, hhi, he⟩ := encodeNum_width hn h0.ne'
    rw [he, beBytes_length]
    constructor
    · intro h
      exact hhi.trans_le (Nat.pow_le_pow_right (by decide) h)
    · intro h
      have := (Nat.pow_lt_pow_iff_right (by decide : 1 < 256)).mp (hlo.trans_lt h)
      omega

lemma decodeNum_of_length_le {bytes : Bytes} (h : bytes.length ≤ 8) :
    decodeNum bytes = ofBeBytes bytes := by
  have hlt := (ofBeBytes_lt bytes).trans_le (Nat.pow_le_pow_right (by decide) h)
  rw [decodeNum_eq, Nat.mod_eq_of_lt (by simpa using hlt)]

lemma decodeNum_lt (bytes : Bytes) : decodeNum bytes < 2 ^ 64 := by
  rw [decodeNum_eq]
  exact Nat.mod_lt _ (by decide)

/-- No shorter bytes are read as the number, and no others of the same length. -/
def Shortest (n : ℕ) (bytes : Bytes) : Prop :=
  bytes ≠ [] ∧ decodeNum bytes = n ∧ ∀ b, b ≠ [] → decodeNum b = n → b = bytes ∨ bytes.length < b.length

/-- Between one byte and eight, and a zero at the front only where it is all there is. -/
def Minimal (bytes : Bytes) : Prop :=
  1 ≤ bytes.length ∧ bytes.length ≤ 8 ∧ (bytes.head? = some 0 → bytes = [0])

lemma shortest_zero : Shortest 0 [0] := by
  refine ⟨List.cons_ne_nil _ _, rfl, ?_⟩
  intro b hb h
  match b with
  | [x] =>
    have hx : decodeNum [x] = x.toNat := by simp [decodeNum]
    rw [hx] at h
    obtain rfl : x = 0 := UInt8.toNat_inj.mp h
    exact .inl rfl
  | x :: y :: rest => exact .inr (by simp)

lemma shortest_encodeNum {n : ℕ} (hn : n < 2 ^ 64) : Shortest n (encodeNum n) := by
  rcases Nat.eq_zero_or_pos n with rfl | h0
  · exact encodeNum_zero ▸ shortest_zero
  · obtain ⟨j, hj, hlo, -, he⟩ := encodeNum_width hn h0.ne'
    refine ⟨encodeNum_ne_nil hn, decodeNum_encodeNum hn, ?_⟩
    intro b _ hb
    rw [he, beBytes_length]
    rcases Nat.lt_or_ge (j + 1) b.length with hlong | hshort
    · exact .inr hlong
    · rw [decodeNum_of_length_le (by omega)] at hb
      have hlen : b.length = j + 1 := by
        have hlt := (Nat.pow_lt_pow_iff_right (by decide : 1 < 256)).mp
          ((hb ▸ hlo).trans_lt (ofBeBytes_lt b))
        omega
      left
      rw [← hb, ← hlen, beBytes_ofBeBytes]

lemma minimal_encodeNum {n : ℕ} (hn : n < 2 ^ 64) : Minimal (encodeNum n) := by
  refine ⟨List.length_pos_iff.mpr (encodeNum_ne_nil hn),
    (encodeNum_length_le 7 hn).mpr (by simpa using hn), ?_⟩
  intro hhead
  rcases Nat.eq_zero_or_pos n with rfl | h0
  · exact encodeNum_zero
  · obtain ⟨j, -, hlo, hhi, he⟩ := encodeNum_width hn h0.ne'
    obtain ⟨b, rest, hb, hne⟩ := beBytes_head hlo hhi
    rw [he, hb] at hhead
    exact absurd (Option.some.inj hhead) hne

lemma encodeNum_decodeNum {b : Bytes} (h : Minimal b) : encodeNum (decodeNum b) = b := by
  obtain ⟨hpos, hlen, hhead⟩ := h
  cases b with
  | nil => cases hpos
  | cons x rest =>
    by_cases hx : x = 0
    · rw [hhead (by rw [hx]; rfl)]
      decide
    · rw [decodeNum_of_length_le hlen]
      rw [List.length_cons] at hlen
      rw [encodeNum_eq (by omega) (le_ofBeBytes_cons hx rest) (ofBeBytes_lt (x :: rest))]
      exact beBytes_ofBeBytes (x :: rest)

theorem numeric_parameters (n : UInt64) (b : Bytes) :
    decodeNum (encodeNum n.toNat) = n.toNat ∧
      (1 ≤ (encodeNum n.toNat).length ∧ (encodeNum n.toNat).length ≤ 8) ∧
      Shortest n.toNat (encodeNum n.toNat) ∧
      (encodeNum (decodeNum b) = b ↔ Minimal b) := by
  have hn := n.toNat_lt
  have hmin := minimal_encodeNum hn
  refine ⟨decodeNum_encodeNum hn, ⟨hmin.1, hmin.2.1⟩, shortest_encodeNum hn, ?_⟩
  constructor
  · intro h
    rw [← h]
    exact minimal_encodeNum (decodeNum_lt b)
  · exact encodeNum_decodeNum

end PesitWizard.Core
