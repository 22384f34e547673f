import Mathlib.Data.List.Induction
import PesitWizard.Core.Diag

/-! The error-control checksum of PI 1: a Fletcher checksum modulo 255 over the whole FPDU, with the two
check bytes at the end. -/

namespace PesitWizard.Core.Crc

abbrev crcLen : ℕ := 2

def sums (bytes : Bytes) : ℕ × ℕ :=
  bytes.foldl (fun s b => let s1 := (s.1 + b.toNat) % 255; (s1, (s.2 + s1) % 255)) (0, 0)

def compute (fpdu : Bytes) : Bytes :=
  let s := sums (fpdu ++ [0, 0])
  let x := (s.1 + 255 - s.2) % 255
  let y := (s.2 + 2 * (255 - s.1)) % 255
  [UInt8.ofNat x, UInt8.ofNat y]

def verify (fpduWithCrc : Bytes) : Bool :=
  if fpduWithCrc.length < crcLen then false
  else
    let s := sums fpduWithCrc
    s.1 == 0 && s.2 == 0

lemma sums_snoc (bytes : Bytes) (b : UInt8) :
    sums (bytes ++ [b]) = (((sums bytes).1 + b.toNat) % 255,
      ((sums bytes).2 + ((sums bytes).1 + b.toNat) % 255) % 255) := by
  simp [sums]

lemma sums_lt (bytes : Bytes) : (sums bytes).1 < 255 ∧ (sums bytes).2 < 255 := by
  induction bytes using List.reverseRecOn with
  | nil => decide
  | append_singleton bytes b _ =>
    rw [sums_snoc]
    exact ⟨Nat.mod_lt _ (by decide), Nat.mod_lt _ (by decide)⟩

lemma compute_length (fpdu : Bytes) : (compute fpdu).length = crcLen := rfl

lemma compute_eq (fpdu : Bytes) : compute fpdu =
    [UInt8.ofNat ((2 * 255 - (sums fpdu).1 - (sums fpdu).2) % 255), UInt8.ofNat (sums fpdu).2] := by
  obtain ⟨h1, h2⟩ := sums_lt fpdu
  have hz : fpdu ++ [0, 0] = fpdu ++ [0] ++ [0] := by simp
  have hs : sums (fpdu ++ [0, 0]) = ((sums fpdu).1, ((sums fpdu).2 + 2 * (sums fpdu).1) % 255) := by
    rw [hz, sums_snoc, sums_snoc]
    simp only [UInt8.toNat_zero, Nat.add_zero, Nat.mod_eq_of_lt h1, Prod.mk.injEq, true_and]
    omega
  simp only [compute, hs, List.cons.injEq, and_true]
  constructor
  · congr 1
    omega
  · congr 1
    omega

lemma verify_compute (fpdu : Bytes) : verify (fpdu ++ compute fpdu) = true := by
  obtain ⟨h1, h2⟩ := sums_lt fpdu
  have hlen : ¬ (fpdu ++ compute fpdu).length < crcLen := by
    rw [List.length_append, compute_length]
    omega
  simp only [verify, hlen, if_false, Bool.and_eq_true, beq_iff_eq]
  rw [compute_eq, List.append_cons, sums_snoc, sums_snoc]
  generalize (sums fpdu).1 = a, (sums fpdu).2 = b at h1 h2
  have hx : (UInt8.ofNat ((2 * 255 - a - b) % 255)).toNat = (2 * 255 - a - b) % 255 := by
    rw [UInt8.toNat_ofNat']
    omega
  have hy : (UInt8.ofNat b).toNat = b := by
    rw [UInt8.toNat_ofNat']
    omega
  rw [hx, hy]
  omega

end PesitWizard.Core.Crc
