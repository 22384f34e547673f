import PesitWizard.Library.Numeral

/-! Hexadecimal digits as characters, in either case. -/

namespace PesitWizard.Library.Hex

def isDigit (c : Char) : Bool := c.isDigit || ('a' ≤ c && c ≤ 'f') || ('A' ≤ c && c ≤ 'F')

def digit? (c : Char) : Option ℕ :=
  if c.isDigit then some (c.toNat - 48)
  else if 'a' ≤ c ∧ c ≤ 'f' then some (c.toNat - 87)
  else if 'A' ≤ c ∧ c ≤ 'F' then some (c.toNat - 55)
  else none

def value (c : Char) : ℕ := (digit? c).getD 0

def upper (d : ℕ) : Char := if d < 10 then Char.ofNat (48 + d) else Char.ofNat (55 + d)

lemma le_of_isDigit {c : Char} (h : isDigit c = true) : c.toNat < 103 := by
  have hle (a : Char) : c ≤ a ↔ c.toNat ≤ a.toNat := Iff.rfl
  simp only [isDigit, Char.isDigit, Bool.or_eq_true, Bool.and_eq_true, decide_eq_true_eq] at h
  rcases h with (⟨-, h⟩ | ⟨-, h⟩) | ⟨-, h⟩
  · exact Nat.lt_of_le_of_lt (UInt32.le_iff_toNat_le.mp h) (by decide)
  · exact Nat.lt_of_le_of_lt ((hle _).mp h) (by decide)
  · exact Nat.lt_of_le_of_lt ((hle _).mp h) (by decide)

lemma of_isDigit {p : Char → Prop} {c : Char} (hc : isDigit c = true)
    (h : ∀ n < 103, isDigit (Char.ofNat n) = true → p (Char.ofNat n)) : p c := by
  have hp := h c.toNat (le_of_isDigit hc)
  rw [Char.ofNat_toNat] at hp
  exact hp hc

variable {c : Char}

lemma digit?_eq (hc : isDigit c = true) : digit? c = some (value c) := by
  apply of_isDigit hc
  decide

lemma value_lt (hc : isDigit c = true) : value c < 16 := by
  apply of_isDigit hc
  decide

lemma isDigit_toLower (hc : isDigit c = true) : isDigit c.toLower = true := by
  apply of_isDigit hc
  decide

lemma value_toLower (hc : isDigit c = true) : value c.toLower = value c := by
  apply of_isDigit hc
  decide

lemma toUpper_eq (hc : isDigit c = true) : c.toUpper = upper (value c) := by
  apply of_isDigit hc
  decide

lemma isDigit_upper {d : ℕ} (hd : d < 16) : isDigit (upper d) = true := by
  decide +revert

lemma value_upper {d : ℕ} (hd : d < 16) : value (upper d) = d := by
  decide +revert

lemma upper_injective {d e : ℕ} (hd : d < 16) (he : e < 16) (h : upper d = upper e) : d = e := by
  rw [← value_upper hd, h, value_upper he]

def digits (cs : List Char) : List ℕ := (cs.filter isDigit).map value

lemma digits_lt (cs : List Char) : ∀ d ∈ digits cs, d < 16 := by
  intro d hd
  obtain ⟨c, hc, rfl⟩ := List.mem_map.mp hd
  exact value_lt (List.mem_filter.mp hc).2

lemma digits_toLower (cs : List Char) : digits ((cs.filter isDigit).map Char.toLower) = digits cs := by
  induction cs with
  | nil => rfl
  | cons c cs ih =>
    by_cases hc : isDigit c = true
    · rw [List.filter_cons_of_pos hc, List.map_cons, digits,
        List.filter_cons_of_pos (isDigit_toLower hc), List.map_cons,
        value_toLower hc, digits, List.filter_cons_of_pos hc, List.map_cons]
      exact congrArg _ ih
    · rw [List.filter_cons_of_neg hc, ih, digits, digits, List.filter_cons_of_neg hc]

end PesitWizard.Library.Hex
