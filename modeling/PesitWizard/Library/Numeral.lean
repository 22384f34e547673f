import Mathlib.Data.List.Induction
import Mathlib.Data.Nat.Digits.Defs
import Mathlib.Tactic.Ring
import PesitWizard.Library.BigEndian

/-! Numbers written in a base, the most significant digit first. -/

namespace PesitWizard.Library.Numeral

def value (b : ℕ) (ds : List ℕ) : ℕ := ds.foldl (fun n d => n * b + d) 0

def trim (ds : List ℕ) : List ℕ := ds.dropWhile fun d => d = 0

@[simp] lemma value_nil (b : ℕ) : value b [] = 0 := rfl

lemma value_concat (b : ℕ) (ds : List ℕ) (d : ℕ) : value b (ds ++ [d]) = value b ds * b + d := by
  simp [value]

lemma value_eq_ofDigits (b : ℕ) (ds : List ℕ) : value b ds = Nat.ofDigits b ds.reverse := by
  induction ds using List.reverseRecOn with
  | nil => rfl
  | append_singleton ds d ih =>
    rw [value_concat, ih, List.reverse_append, List.reverse_singleton, List.singleton_append,
      Nat.ofDigits_cons]
    ring

lemma value_zero_cons (b : ℕ) (ds : List ℕ) : value b (0 :: ds) = value b ds := by
  rw [value_eq_ofDigits, value_eq_ofDigits, Nat.ofDigits_reverse_zero_cons]

lemma value_trim (b : ℕ) (ds : List ℕ) : value b (trim ds) = value b ds := by
  induction ds with
  | nil => rfl
  | cons d ds ih =>
    by_cases hd : d = 0
    · subst hd
      rw [value_zero_cons, ← ih]
      rfl
    · rw [trim, List.dropWhile_cons_of_neg (by simpa using hd)]

lemma trim_subset (ds : List ℕ) : trim ds ⊆ ds := (List.dropWhile_sublist _).subset

lemma trim_ne_zero_cons (ds es : List ℕ) : trim ds ≠ 0 :: es := by
  intro h
  have hne : ds.dropWhile (fun d => d = 0) ≠ [] := by
    rw [← trim, h]
    exact List.cons_ne_nil 0 es
  have hhead := List.head_dropWhile_not (fun d : ℕ => decide (d = 0)) hne
  simp only [← trim.eq_1, h, List.head_cons, decide_true, Bool.true_eq_false] at hhead

lemma digits_value {b : ℕ} (hb : 1 < b) {ds : List ℕ} (hds : ∀ d ∈ ds, d < b) :
    Nat.digits b (value b ds) = (trim ds).reverse := by
  rw [← value_trim, value_eq_ofDigits]
  apply Nat.digits_ofDigits b hb
  · intro d hd
    exact hds d (trim_subset ds (List.mem_reverse.mp hd))
  · intro hne
    rw [List.getLast_reverse]
    have hhead := List.head_dropWhile_not (fun d : ℕ => decide (d = 0)) (by simpa [trim] using hne)
    simpa [trim] using hhead

lemma trim_eq_iff {b : ℕ} (hb : 1 < b) {ds es : List ℕ} (hds : ∀ d ∈ ds, d < b) (hes : ∀ e ∈ es, e < b) :
    trim ds = trim es ↔ value b ds = value b es := by
  constructor
  · intro h
    rw [← value_trim b ds, h, value_trim]
  · intro h
    have hdigits := congrArg (Nat.digits b) h
    rw [digits_value hb hds, digits_value hb hes] at hdigits
    exact List.reverse_injective hdigits

lemma value_bytes (bytes : List UInt8) :
    value 16 (bytes.flatMap fun b => [b.toNat / 16, b.toNat % 16]) = BigEndian.ofBeBytes bytes := by
  induction bytes using List.reverseRecOn with
  | nil => rfl
  | append_singleton bytes b ih =>
    rw [List.flatMap_append, List.flatMap_singleton, BigEndian.ofBeBytes_snoc, ← ih,
      ← List.singleton_append, ← List.append_assoc, value_concat, value_concat]
    omega

end PesitWizard.Library.Numeral
