import Mathlib.Tactic.Common
import Mathlib.Data.List.Basic

/-! Loops of the form "while input is left, read one unit and process it". A reader peels one
unit off the front of the input, a step folds it into a state, and the loop stops at the first
failure of either. -/

namespace PesitWizard.Library.Scan

variable {α β ε σ : Type}

def scan (read : List α → Except ε (β × List α)) (step : σ → β → Except ε σ) :
    ℕ → List α → σ → Except ε σ
  | _, [], s => .ok s
  -- a reader that consumes input never gets here when the fuel is the length of the input
  | 0, _ :: _, s => .ok s
  | n + 1, x :: xs, s =>
    match read (x :: xs) with
    | .error e => .error e
    | .ok (b, rest) =>
      match step s b with
      | .error e => .error e
      | .ok s' => scan read step n rest s'

def scanAll (read : List α → Except ε (β × List α)) (step : σ → β → Except ε σ)
    (xs : List α) (s : σ) : Except ε σ :=
  scan read step xs.length xs s

def Consumes (read : List α → Except ε (β × List α)) : Prop :=
  ∀ xs b rest, read xs = .ok (b, rest) → rest.length < xs.length

inductive Chunks (read : List α → Except ε (β × List α)) : List α → List β → Prop
  | nil : Chunks read [] []
  | cons {xs rest b bs} :
    xs ≠ [] → read xs = .ok (b, rest) → Chunks read rest bs → Chunks read xs (b :: bs)

variable {read : List α → Except ε (β × List α)} {step : σ → β → Except ε σ}

lemma foldlM_cons_ok (s t : σ) (b : β) (bs : List β) :
    (b :: bs).foldlM step s = .ok t ↔ ∃ s', step s b = .ok s' ∧ bs.foldlM step s' = .ok t := by
  rw [List.foldlM_cons]
  cases hs : step s b with
  | error e =>
    constructor
    · intro h
      cases h
    · rintro ⟨_, h, _⟩
      cases h
  | ok s' =>
    constructor
    · exact fun h => ⟨s', rfl, h⟩
    · rintro ⟨_, h, ht⟩
      cases h
      exact ht

lemma scan_fuel (hc : Consumes read) (n : ℕ) (xs : List α) (s : σ) (hn : xs.length ≤ n) :
    scan read step n xs s = scanAll read step xs s := by
  induction n using Nat.strongRecOn generalizing xs s with
  | _ n ih =>
    cases xs with
    | nil => cases n <;> rfl
    | cons x xs =>
      cases n with
      | zero => simp at hn
      | succ n =>
        simp only [scanAll, List.length_cons, scan]
        cases hr : read (x :: xs) with
        | error e => rfl
        | ok p =>
          obtain ⟨b, rest⟩ := p
          have hlt : rest.length < xs.length + 1 := hc _ _ _ hr
          dsimp only
          cases step s b with
          | error e => rfl
          | ok s' =>
            dsimp only
            simp only [List.length_cons] at hn
            rw [ih n (by omega) rest s' (by omega)]
            rcases Nat.lt_or_ge xs.length n with h | h
            · exact (ih xs.length (by omega) rest s' (by omega)).symm
            · obtain rfl : xs.length = n := by omega
              exact (ih _ (by omega) rest s' (by omega)).symm

@[simp] lemma scanAll_nil (s : σ) : scanAll read step [] s = .ok s := rfl

lemma scanAll_read (hc : Consumes read) {xs rest : List α} {b : β} (hx : xs ≠ [])
    (hr : read xs = .ok (b, rest)) (s : σ) :
    scanAll read step xs s = (step s b).bind (scanAll read step rest) := by
  cases xs with
  | nil => exact absurd rfl hx
  | cons x xs =>
    have hlt : rest.length < xs.length + 1 := hc _ _ _ hr
    simp only [scanAll, List.length_cons, scan, hr]
    cases step s b with
    | error e => rfl
    | ok s' => exact scan_fuel hc _ _ _ (by omega)

lemma scanAll_error {xs : List α} {e : ε} (hx : xs ≠ []) (hr : read xs = .error e) (s : σ) :
    scanAll read step xs s = .error e := by
  cases xs with
  | nil => exact absurd rfl hx
  | cons x xs => simp [scanAll, scan, hr]

lemma scanAll_of_chunks (hc : Consumes read) {xs : List α} {bs : List β}
    (h : Chunks read xs bs) (s : σ) :
    scanAll read step xs s = bs.foldlM step s := by
  induction h generalizing s with
  | nil => rfl
  | cons hx hr _ ih =>
    rw [scanAll_read hc hx hr, List.foldlM_cons]
    cases step s _ with
    | error e => rfl
    | ok s' => exact ih s'

lemma scanAll_ok (hc : Consumes read) {xs : List α} {s s' : σ} (h : scanAll read step xs s = .ok s') :
    ∃ bs, Chunks read xs bs ∧ bs.foldlM step s = .ok s' := by
  induction hn : xs.length using Nat.strongRecOn generalizing xs s with
  | _ n ih =>
    cases xs with
    | nil => exact ⟨[], .nil, h⟩
    | cons x xs =>
      cases hr : read (x :: xs) with
      | error e => rw [scanAll_error (by simp) hr] at h; cases h
      | ok p =>
        obtain ⟨b, rest⟩ := p
        rw [scanAll_read hc (by simp) hr] at h
        cases hs : step s b with
        | error e => rw [hs] at h; cases h
        | ok s₁ =>
          rw [hs] at h
          obtain ⟨bs, hb, hf⟩ := ih rest.length (hn ▸ hc _ _ _ hr) h rfl
          exact ⟨b :: bs, .cons (by simp) hr hb, (foldlM_cons_ok _ _ _ _).mpr ⟨s₁, hs, hf⟩⟩

lemma scanAll_mono {step' : σ → β → Except ε σ} (hs : ∀ s b s', step s b = .ok s' → step' s b = .ok s')
    {xs : List α} {s t : σ} (h : scanAll read step xs s = .ok t) : scanAll read step' xs s = .ok t := by
  rw [scanAll] at h ⊢
  generalize xs.length = n at h ⊢
  induction n generalizing xs s with
  | zero => cases xs <;> exact h
  | succ n ih =>
    cases xs with
    | nil => exact h
    | cons x xs =>
      simp only [scan] at h ⊢
      cases hr : read (x :: xs) with
      | error e => simp [hr] at h
      | ok p =>
        simp only [hr] at h ⊢
        cases hb : step s p.1 with
        | error e => simp [hb] at h
        | ok s' =>
          simp only [hb, hs _ _ _ hb] at h ⊢
          exact ih h

lemma chunks_flatMap (write : β → List α) {bs : List β}
    (hne : ∀ b ∈ bs, write b ≠ []) (hr : ∀ b ∈ bs, ∀ rest, read (write b ++ rest) = .ok (b, rest)) :
    Chunks read (bs.flatMap write) bs := by
  induction bs with
  | nil => exact .nil
  | cons b bs ih =>
    rw [List.flatMap_cons]
    refine .cons (by simp [hne b (by simp)]) (hr b (by simp) _) (ih ?_ ?_)
    · exact fun c hc => hne c (List.mem_cons_of_mem _ hc)
    · exact fun c hc => hr c (List.mem_cons_of_mem _ hc)

end PesitWizard.Library.Scan
