import Mathlib.Data.List.Basic
import Mathlib.Order.Lattice
import Mathlib.Order.Nat

/-! Lists in the ascending order of their keys: binary search, and the first element with which
something is found. -/

namespace PesitWizard.Library.Search

variable {α β κ : Type} [LinearOrder κ] (key : α → κ) (k : κ)

def Ascending (l : List α) : Prop := l.Pairwise fun a b => key a < key b

/-- The window is halved until one place is left, without a look at whether the middle is the key. -/
def narrow (l : List α) : ℕ → ℕ → ℕ → ℕ
  | 0, base, _ => base
  | fuel + 1, base, size =>
    if 1 < size then
      let half := size / 2
      let mid := base + half
      narrow l fuel (if l[mid]?.any (fun a => k < key a) then base else mid) (size - half)
    else base

/-- The place of the element with the key, or else the place at which one has to be inserted. -/
def binarySearch (l : List α) : Except ℕ ℕ :=
  let base := narrow key k l l.length 0 l.length
  match l[base]? with
  | none => .error 0
  | some a => if key a = k then .ok base else .error (base + if key a < k then 1 else 0)

variable {key k} {l : List α}

/-- What lies behind the window is above the key, and its first place is not unless it is
the first of all. -/
structure Window (key : α → κ) (k : κ) (l : List α) (base size : ℕ) : Prop where
  inside : base + size ≤ l.length
  low : base = 0 ∨ ∃ a, l[base]? = some a ∧ key a ≤ k
  high : ∀ j a, base + size ≤ j → l[j]? = some a → k < key a

lemma Window.narrow (hl : Ascending key l) {fuel base size : ℕ} (h : Window key k l base size)
    (hpos : 0 < size) (hfuel : size ≤ fuel) :
    Window key k l (Search.narrow key k l fuel base size) 1 := by
  induction fuel generalizing base size with
  | zero => omega
  | succ fuel ih =>
    rw [Search.narrow]
    split
    · rename_i hsize
      have hinside := h.inside
      have hmid : base + size / 2 < l.length := by omega
      refine ih ?_ (by omega) (by omega)
      simp only [List.getElem?_eq_getElem hmid, Option.any_some, decide_eq_true_eq]
      split
      · rename_i hgt
        refine ⟨by omega, h.low, ?_⟩
        intro j a hj ha
        obtain ⟨hjl, rfl⟩ := List.getElem?_eq_some_iff.mp ha
        rcases (show base + size / 2 ≤ j by omega).eq_or_lt with rfl | hlt
        · exact hgt
        · exact hgt.trans (List.pairwise_iff_getElem.mp hl _ _ hmid hjl hlt)
      · rename_i hle
        refine ⟨by omega, .inr ⟨_, List.getElem?_eq_getElem hmid, not_lt.mp hle⟩, ?_⟩
        intro j a hj ha
        exact h.high j a (by omega) ha
    · obtain rfl : size = 1 := by omega
      exact h

lemma window (hl : Ascending key l) (hne : l ≠ []) :
    Window key k l (narrow key k l l.length 0 l.length) 1 := by
  refine Window.narrow hl ⟨by omega, .inl rfl, ?_⟩ (List.length_pos_iff.mpr hne) le_rfl
  intro j a hj ha
  rw [List.getElem?_eq_none (by omega)] at ha
  cases ha

/-- Where a list in ascending order holds the key, or where the key would have to stand in it. -/
inductive Located (key : α → κ) (k : κ) : List α → Except ℕ ℕ → Prop
  | found (xs : List α) (a : α) (ys : List α) :
      (∀ x ∈ xs, key x < k) → key a = k → Located key k (xs ++ a :: ys) (.ok xs.length)
  | missing (xs ys : List α) :
      (∀ x ∈ xs, key x < k) → (∀ y ∈ ys, k < key y) → Located key k (xs ++ ys) (.error xs.length)

lemma Located.split {i : ℕ} (hi : i ≤ l.length) (hlow : ∀ x ∈ l.take i, key x < k)
    (hhigh : ∀ y ∈ l.drop i, k < key y) :
    Located key k l (.error i) := by
  have h := Located.missing (l.take i) (l.drop i) hlow hhigh
  rwa [List.take_append_drop, List.length_take_of_le hi] at h

lemma binarySearch_located (hl : Ascending key l) : Located key k l (binarySearch key k l) := by
  rcases eq_or_ne l [] with rfl | hne
  · exact .missing [] [] (fun x hx => by cases hx) fun y hy => by cases hy
  · obtain ⟨hinside, hlow, hhigh⟩ := window (k := k) hl hne
    rw [binarySearch]
    generalize narrow key k l l.length 0 l.length = base at hinside hlow hhigh ⊢
    have hbase : base < l.length := hinside
    have hbefore : ∀ x ∈ l.take base, key x < key l[base] := by
      intro x hx
      obtain ⟨j, hj, rfl⟩ := List.mem_take_iff_getElem.mp hx
      exact List.pairwise_iff_getElem.mp hl _ _ _ hbase (by omega)
    have hafter : ∀ y ∈ l.drop (base + 1), k < key y := by
      intro y hy
      obtain ⟨j, hj, rfl⟩ := List.mem_drop_iff_getElem.mp hy
      exact hhigh _ _ (by omega) (List.getElem?_eq_getElem _)
    simp only [List.getElem?_eq_getElem hbase]
    split
    · rename_i heq
      have h : Located key k _ (.ok _) :=
        .found (l.take base) l[base] (l.drop (base + 1)) (heq ▸ hbefore) heq
      rwa [← List.drop_eq_getElem_cons hbase, List.take_append_drop,
        List.length_take_of_le hbase.le] at h
    · rename_i hne'
      split
      · rename_i hlt
        refine .split hinside ?_ hafter
        intro x hx
        rw [List.take_succ_eq_append_getElem hbase, List.mem_append, List.mem_singleton] at hx
        rcases hx with hx | rfl
        · exact (hbefore x hx).trans hlt
        · exact hlt
      · rename_i hnlt
        -- nothing is below the key, so the window has not moved
        have hgt : k < key l[base] := lt_of_le_of_ne (not_lt.mp hnlt) (Ne.symm hne')
        obtain rfl : base = 0 := by
          rcases hlow with h0 | ⟨a, ha, hle⟩
          · exact h0
          · rw [List.getElem?_eq_getElem hbase, Option.some_inj] at ha
            exact absurd (ha ▸ hle) (not_le.mpr hgt)
        refine .split (Nat.zero_le _) (fun x hx => by cases hx) ?_
        intro y hy
        rw [List.drop_zero, List.mem_iff_getElem] at hy
        obtain ⟨j, hj, rfl⟩ := hy
        rcases Nat.eq_zero_or_pos j with rfl | hpos
        · exact hgt
        · exact hhigh j _ (by omega) (List.getElem?_eq_getElem hj)

lemma findSome?_ascending (hl : Ascending key l) {f : α → Option β} {b : β} :
    l.findSome? f = some b ↔ ∃ a ∈ l, f a = some b ∧ ∀ x ∈ l, key x < key a → f x = none := by
  constructor
  · intro h
    obtain ⟨xs, a, ys, rfl, ha, hxs⟩ := List.findSome?_eq_some_iff.mp h
    refine ⟨a, by simp, ha, ?_⟩
    intro x hx hlt
    rcases List.mem_append.mp hx with hx | hx
    · exact hxs x hx
    · rcases List.mem_cons.mp hx with rfl | hx
      · exact absurd hlt (lt_irrefl _)
      · exact absurd hlt (not_lt.mpr (List.rel_of_pairwise_cons (List.pairwise_append.mp hl).2.1 hx).le)
  · rintro ⟨a, ha, hb, hfirst⟩
    obtain ⟨xs, ys, rfl⟩ := List.append_of_mem ha
    refine List.findSome?_eq_some_iff.mpr ⟨xs, a, ys, rfl, hb, ?_⟩
    intro x hx
    exact hfirst x (List.mem_append_left _ hx)
      ((List.pairwise_append.mp hl).2.2 x hx a List.mem_cons_self)

end PesitWizard.Library.Search
