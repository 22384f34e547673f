import PesitWizard.App.Counter
import PesitWizard.Node.Handler

/-! The identifiers that a node gives to transfers, drawn from one counter for those that it answers and
those that it starts. -/

namespace PesitWizard.Node

open App

def pesitTransferId (c : CounterRow) (requested : ℕ) : ℕ × CounterRow :=
  if requested ≠ 0 then (requested, c)
  else
    let (n, c) := c.nextCounter
    (max (n.getD 1 % 0x00FFFFFF) 1, c)

def pesitId (c : CounterRow) (restart : Bool) (history : ℕ) : ℕ × CounterRow :=
  if restart ∧ history ≠ 0 then (history, c)
  else
    let (n, c) := c.nextCounter
    (max (n.getD 1 % 0x00FFFFFF) 1, c)

/-- Who draws: the side that answers, for a request without an identifier, or the one that
starts transfers. -/
inductive Drawer
  | handler
  | engine (history : ℕ)

def draw (c : CounterRow) : Drawer → ℕ × CounterRow
  | .handler => pesitTransferId c 0
  | .engine history => pesitId c false history

def ids (c : CounterRow) : List Drawer → List ℕ
  | [] => []
  | w :: ws => (draw c w).1 :: ids (draw c w).2 ws

/-- A value of the counter for which the identifier is 1: none that is read, none above 1, and two next
to each other where the remainder starts again. -/
def Collapsed (n : Option ℤ) : Prop := ∀ x ∈ n, x ≤ 1 ∨ x % 0x00FFFFFF ≤ 1

def idOf (n : Option ℤ) : ℕ := max ((n.map Int.toNat).getD 1 % 0x00FFFFFF) 1

lemma draw_eq (c : CounterRow) (w : Drawer) : draw c w = (idOf (c.reached 0), c.nextCounter.2) := by
  have hid : (max (c.nextCounter.1.getD 1 % 0x00FFFFFF) 1, c.nextCounter.2) =
      (idOf (c.reached 0), c.nextCounter.2) := by
    rw [c.nextCounter_fst, idOf]
  cases w with
  | handler => exact hid
  | engine history => exact hid

lemma ids_get (c : CounterRow) (ws : List Drawer) (i : ℕ) :
    (ids c ws)[i]? = if i < ws.length then some (idOf (c.reached i)) else none := by
  induction ws generalizing c i with
  | nil => rfl
  | cons w ws ih =>
    rw [ids, draw_eq]
    cases i with
    | zero => simp
    | succ i => simp [ih, c.nextCounter_snd]

lemma idOf_range (n : Option ℤ) : 1 ≤ idOf n ∧ idOf n ≤ 0xFFFFFF := by
  rw [idOf]
  omega

lemma idOf_eq_one {n : Option ℤ} : idOf n = 1 ↔ Collapsed n := by
  cases n with
  | none => exact iff_of_true rfl fun x hx => by cases hx
  | some x =>
    simp only [idOf, Collapsed, Option.map_some, Option.getD_some, Option.mem_def,
      Option.some.injEq, forall_eq']
    omega

lemma idOf_ne {x y : ℤ} (hx : ¬ Collapsed (some x)) (hy : ¬ Collapsed (some y)) (hlt : x < y)
    (hnear : y - x < 0xFFFFFE) :
    idOf (some x) ≠ idOf (some y) := by
  simp only [Collapsed, Option.mem_def, Option.some.injEq, forall_eq'] at hx hy
  simp only [idOf, Option.map_some, Option.getD_some]
  omega

lemma reached_gap {c : CounterRow} {i j : ℕ} {x y : ℤ} (hx : c.reached i = some x)
    (hy : c.reached j = some y) :
    y - x = (j : ℤ) - i := by
  obtain ⟨hx, -⟩ := Option.filter_eq_some_iff.mp hx
  obtain ⟨hy, -⟩ := Option.filter_eq_some_iff.mp hy
  obtain ⟨v, hv, rfl⟩ := Option.map_eq_some_iff.mp hx
  obtain ⟨v', hv', rfl⟩ := Option.map_eq_some_iff.mp hy
  obtain rfl : v = v' := Option.some.inj (hv.symm.trans hv')
  omega

lemma idOf_ne_iff (c : CounterRow) {i j : ℕ} (hij : i < j) (hnear : j - i < 0xFFFFFE) :
    idOf (c.reached i) ≠ idOf (c.reached j) ↔ ¬ (Collapsed (c.reached i) ∧ Collapsed (c.reached j)) := by
  constructor
  · rintro hne ⟨hi, hj⟩
    exact hne ((idOf_eq_one.mpr hi).trans (idOf_eq_one.mpr hj).symm)
  · intro hnot heq
    have hiff : Collapsed (c.reached i) ↔ Collapsed (c.reached j) := by
      rw [← idOf_eq_one, ← idOf_eq_one, heq]
    have hi : ¬ Collapsed (c.reached i) := fun h => hnot ⟨h, hiff.mp h⟩
    have hj : ¬ Collapsed (c.reached j) := fun h => hi (hiff.mpr h)
    cases hx : c.reached i with
    | none => exact hi (by rw [hx]; exact fun x hx => by cases hx)
    | some x =>
      cases hy : c.reached j with
      | none => exact hj (by rw [hy]; exact fun x hx => by cases hx)
      | some y =>
        have hgap := reached_gap hx hy
        rw [hx] at hi heq
        rw [hy] at hj heq
        exact idOf_ne hi hj (by omega) (by omega) heq

/-- The same counter gives the same identifiers as long as it is far from the end of its range. -/
lemma pesitTransferId_site (s : Site) (requested : ℕ) {value : Int64} (hvalue : value.toInt = s.counter)
    (hend : (s.counter : ℤ) + 1 < 2 ^ 63) :
    (pesitTransferId (.integer value) requested).1 = (s.pesitTransferId requested).1 := by
  rw [pesitTransferId, Site.pesitTransferId]
  split
  · rfl
  · have hfst := CounterRow.nextCounter_fst (.integer value)
    rw [CounterRow.reached_of_start rfl, hvalue, Nat.zero_add, Nat.cast_one, if_pos hend] at hfst
    simp only [hfst]
    rfl

def Apart (l : List ℕ) : Prop := ∀ i j, i < j → j < l.length → j - i < 0xFFFFFE → l[i]? ≠ l[j]?

lemma ids_length (c : CounterRow) (ws : List Drawer) : (ids c ws).length = ws.length := by
  induction ws generalizing c with
  | nil => rfl
  | cons w ws ih => rw [ids, List.length_cons, ih, List.length_cons]

/-- The identifiers are in their range, and two of them close to each other differ exactly if not both
are drawn where the counter gives 1. -/
theorem ids_apart_iff (c : CounterRow) (ws : List Drawer) :
    (∀ id ∈ ids c ws, 1 ≤ id ∧ id ≤ 0xFFFFFF) ∧ Apart (ids c ws) ↔
      ∀ i j, i < j → j < ws.length → j - i < 0xFFFFFE →
      ¬ (Collapsed (c.reached i) ∧ Collapsed (c.reached j)) := by
  have hrange : ∀ id ∈ ids c ws, 1 ≤ id ∧ id ≤ 0xFFFFFF := by
    intro id hid
    obtain ⟨i, hi⟩ := List.mem_iff_getElem?.mp hid
    rw [ids_get] at hi
    split at hi
    · exact Option.some.inj hi ▸ idOf_range _
    · cases hi
  rw [and_iff_right hrange, Apart, ids_length]
  refine forall_congr' fun i => forall_congr' fun j => forall_congr' fun hij => forall_congr' fun hj =>
    forall_congr' fun hnear => ?_
  rw [ids_get, ids_get, if_pos (hij.trans hj), if_pos hj, ne_eq, Option.some_inj]
  exact idOf_ne_iff c hij hnear

/-- A counter that has not been written by anything else repeats itself only where the
remainder starts again. -/
lemma collapsed_pair {c : CounterRow} {x y : ℤ} {i j : ℕ} (hx : c.reached i = some x)
    (hy : c.reached j = some y) (hpos : 0 < x) (hij : i < j) (hnear : j - i < 0xFFFFFE) :
    Collapsed (c.reached i) ∧ Collapsed (c.reached j) ↔ x % 0x00FFFFFF = 0 ∧ j = i + 1 := by
  have hgap := reached_gap hx hy
  simp only [hx, hy, Collapsed, Option.mem_def, Option.some.injEq, forall_eq']
  omega

theorem ids_repeated : ¬ ∀ c ws, (∀ id ∈ ids c ws, 1 ≤ id ∧ id ≤ 0xFFFFFF) ∧ Apart (ids c ws) := by
  intro h
  have happart := (h (.integer 0xFFFFFE) [.handler, .engine 0]).2
  exact absurd (happart 0 1 (by decide) (by decide) (by decide)) (by decide)

end PesitWizard.Node
