import Mathlib.Algebra.Order.Ring.Int
import Mathlib.Tactic.Common

/-! Counters that are kept: numbers drawn one after the other from a row of a table. -/

namespace PesitWizard.App

/-- The value of a counter in its row. A sum past 64 bits is kept as a floating-point number, and this is
no longer read as a number that was drawn. -/
inductive CounterRow
  | missing
  | integer (value : Int64)
  | real

namespace CounterRow

def nextCounter : CounterRow → Option ℕ × CounterRow
  | .missing => (some 1, .integer 1)
  | .integer value =>
    if value = Int64.maxValue then (none, .real) else
      (some (value + 1).toInt.toNat, .integer (value + 1))
  | .real => (none, .real)

def start : CounterRow → Option ℤ
  | .missing => some 0
  | .integer value => some value.toInt
  | .real => none

/-- The value that is read after `i` values before it. -/
def reached (c : CounterRow) (i : ℕ) : Option ℤ :=
  (c.start.map fun value : ℤ => value + (i + 1 : ℕ)).filter fun value => value < 2 ^ 63

lemma reached_of_start {c : CounterRow} {value : ℤ} (h : c.start = some value) (i : ℕ) :
    c.reached i = if value + (i + 1 : ℕ) < 2 ^ 63 then some (value + (i + 1 : ℕ)) else none := by
  simp [reached, h, Option.filter]

lemma toInt_succ {value : Int64} (h : value ≠ Int64.maxValue) :
    (value + 1).toInt = value.toInt + 1 ∧ value.toInt + 1 < 2 ^ 63 := by
  have hle := value.toInt_lt
  have hge := value.le_toInt
  have hne : value.toInt ≠ 2 ^ 63 - 1 := fun heq => h (Int64.toInt_inj.mp heq)
  have hlt : value.toInt + 1 < 2 ^ 63 := by omega
  refine ⟨?_, hlt⟩
  rw [Int64.toInt_add, show (1 : Int64).toInt = 1 from rfl]
  exact Int.bmod_eq_of_le (by omega) (by omega)

lemma nextCounter_fst (c : CounterRow) : c.nextCounter.1 = (c.reached 0).map Int.toNat := by
  cases c with
  | missing => rfl
  | integer value =>
    rw [nextCounter, reached_of_start rfl]
    split
    · rename_i h
      subst h
      rfl
    · rename_i h
      obtain ⟨hsucc, hlt⟩ := toInt_succ h
      rw [Nat.zero_add, Nat.cast_one, if_pos hlt, ← hsucc]
      rfl
  | real => rfl

lemma nextCounter_snd (c : CounterRow) (i : ℕ) : c.nextCounter.2.reached i = c.reached (i + 1) := by
  cases c with
  | missing =>
    have hone : nextCounter .missing = (some 1, .integer 1) := rfl
    rw [hone, reached_of_start (c := .integer 1) rfl, reached_of_start (c := .missing) rfl,
      show (1 : Int64).toInt + (i + 1 : ℕ) = 0 + (i + 1 + 1 : ℕ) by
      rw [show (1 : Int64).toInt = 1 from rfl]; omega]
  | integer value =>
    rw [nextCounter, reached_of_start (c := .integer value) rfl]
    split
    · rename_i h
      subst h
      rw [if_neg (by rw [show Int64.maxValue.toInt = 2 ^ 63 - 1 from rfl]; omega)]
      rfl
    · rename_i h
      obtain ⟨hsucc, -⟩ := toInt_succ h
      rw [reached_of_start rfl, hsucc, show value.toInt + 1 + (i + 1 : ℕ) =
        value.toInt + (i + 1 + 1 : ℕ) by omega]
  | real => rfl

end CounterRow

end PesitWizard.App
