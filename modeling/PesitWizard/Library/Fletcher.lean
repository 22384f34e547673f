import Mathlib.Algebra.BigOperators.Group.List.Basic
import Mathlib.Data.List.Induction
import Mathlib.Tactic.Ring

/-! Two running sums over a list, as a Fletcher checksum keeps them: the sum of the elements, and the sum
in which each element counts once for every position from its own to the end. -/

namespace PesitWizard.Library.Fletcher

variable {R : Type*} [CommRing R]

def weighted : List R → R
  | [] => 0
  | b :: bs => (bs.length + 1) * b + weighted bs

def run (bs : List R) : R × R := bs.foldl (fun s b => (s.1 + b, s.2 + (s.1 + b))) (0, 0)

lemma weighted_append (xs ys : List R) :
    weighted (xs ++ ys) = weighted xs + ys.length * xs.sum + weighted ys := by
  induction xs with
  | nil => simp [weighted]
  | cons x xs ih =>
    simp only [List.cons_append, weighted, ih, List.length_append, Nat.cast_add, List.sum_cons]
    ring

theorem run_eq (bs : List R) : run bs = (bs.sum, weighted bs) := by
  induction bs using List.reverseRecOn with
  | nil => rfl
  | append_singleton bs b ih =>
    have hstep : run (bs ++ [b]) = ((run bs).1 + b, (run bs).2 + ((run bs).1 + b)) := by simp [run]
    rw [hstep, ih, weighted_append]
    apply Prod.ext
    · simp
    · simp only [weighted, List.length_singleton, List.length_nil, Nat.cast_one, Nat.cast_zero]
      ring

lemma sum_set {bs : List R} {i : ℕ} (hi : i < bs.length) (x : R) :
    (bs.set i x).sum = bs.sum + (x - bs[i]) := by
  induction bs generalizing i with
  | nil => cases hi
  | cons b bs ih =>
    cases i with
    | zero =>
      simp only [List.set_cons_zero, List.sum_cons, List.getElem_cons_zero]
      ring
    | succ i =>
      simp only [List.set_cons_succ, List.sum_cons, List.getElem_cons_succ,
        ih (Nat.lt_of_succ_lt_succ hi)]
      ring

lemma weighted_set {bs : List R} {i : ℕ} (hi : i < bs.length) (x : R) :
    weighted (bs.set i x) = weighted bs + (bs.length - i) * (x - bs[i]) := by
  induction bs generalizing i with
  | nil => cases hi
  | cons b bs ih =>
    cases i with
    | zero =>
      simp only [List.set_cons_zero, weighted, List.getElem_cons_zero, List.length_cons,
        Nat.cast_add, Nat.cast_one, Nat.cast_zero]
      ring
    | succ i =>
      simp only [List.set_cons_succ, weighted, List.getElem_cons_succ, List.length_set,
        List.length_cons, Nat.cast_add, Nat.cast_one, ih (Nat.lt_of_succ_lt_succ hi)]
      ring

def exchange {α : Type*} (xs : List α) (i j : ℕ) (hi : i < xs.length) (hj : j < xs.length) : List α :=
  (xs.set i xs[j]).set j xs[i]

lemma sum_exchange {bs : List R} {i j : ℕ} (hij : i < j) (hi : i < bs.length) (hj : j < bs.length) :
    (exchange bs i j hi hj).sum = bs.sum := by
  rw [exchange, sum_set (by simpa using hj), sum_set hi, List.getElem_set_of_ne (by omega)]
  ring

lemma weighted_exchange {bs : List R} {i j : ℕ} (hij : i < j) (hi : i < bs.length) (hj : j < bs.length) :
    weighted (exchange bs i j hi hj) = weighted bs - (j - i) * (bs[i] - bs[j]) := by
  have hlen : ((bs.set i bs[j]).length : R) = bs.length := by rw [List.length_set]
  rw [exchange, weighted_set (by simpa using hj), weighted_set hi,
    List.getElem_set_of_ne (by omega), hlen]
  ring

end PesitWizard.Library.Fletcher
