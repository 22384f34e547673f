import Mathlib.Tactic.Common
import Mathlib.Data.List.Nodup
import Mathlib.Data.List.Induction

/-! Tables of rows in the order in which they came in, one row for each key. -/

namespace PesitWizard.Library

structure Table (κ α : Type) where
  rows : List (κ × α)
  nodup : (rows.map Prod.fst).Nodup

namespace Table

variable {κ α : Type}

@[ext] lemma ext {t u : Table κ α} (h : t.rows = u.rows) : t = u := by
  obtain ⟨l, hl⟩ := t
  obtain ⟨m, hm⟩ := u
  obtain rfl : l = m := h
  rfl

def empty : Table κ α := ⟨[], List.nodup_nil⟩

def keys (t : Table κ α) : List κ := t.rows.map Prod.fst

def docs (t : Table κ α) : List α := t.rows.map Prod.snd

def keepLast (t : Table κ α) (n : ℕ) : Table κ α :=
  ⟨t.rows.drop (t.rows.length - n), ((List.drop_sublist _ _).map Prod.fst).nodup t.nodup⟩

lemma keepLast_rows (t : Table κ α) (n : ℕ) : (t.keepLast n).rows = t.rows.drop (t.rows.length - n) :=
  rfl

variable [DecidableEq κ]

def find (t : Table κ α) (k : κ) : Option α := (t.rows.find? fun r => r.1 = k).map Prod.snd

lemma replace_keys (l : List (κ × α)) (k : κ) (a : α) :
    (l.map fun r => if r.1 = k then (k, a) else r).map Prod.fst = l.map Prod.fst := by
  rw [List.map_map]
  apply List.map_congr_left
  intro r _
  by_cases h : r.1 = k <;> simp [h]

def put (t : Table κ α) (k : κ) (a : α) : Table κ α :=
  if h : k ∈ t.keys then ⟨t.rows.map fun r => if r.1 = k then (k, a) else r, by
    rw [replace_keys]
    exact t.nodup⟩
  else ⟨t.rows ++ [(k, a)], by
    rw [List.map_append, List.nodup_append]
    refine ⟨t.nodup, List.nodup_singleton k, ?_⟩
    intro x hx y hy
    obtain rfl : y = k := by simpa using hy
    rintro rfl
    exact h hx⟩

def erase (t : Table κ α) (k : κ) : Table κ α :=
  ⟨t.rows.filter fun r => r.1 ≠ k, (List.filter_sublist.map Prod.fst).nodup t.nodup⟩

def putAll (t : Table κ α) (l : List (κ × α)) : Table κ α := l.foldl (fun t r => t.put r.1 r.2) t

def lastFor (l : List (κ × α)) (k : κ) : Option α := ((l.filter fun r => r.1 = k).getLast?).map Prod.snd

lemma erase_rows (t : Table κ α) (k : κ) : (t.erase k).rows = t.rows.filter fun r => r.1 ≠ k := rfl

lemma find_eq_some {t : Table κ α} {k : κ} {a : α} : t.find k = some a ↔ (k, a) ∈ t.rows := by
  obtain ⟨l, hl⟩ := t
  simp only [find]
  induction l with
  | nil => simp
  | cons r l ih =>
    rw [List.map_cons, List.nodup_cons] at hl
    by_cases hr : r.1 = k
    · subst hr
      have hnot : ∀ b, (r.1, b) ∉ l := fun b hb => hl.1 (List.mem_map.mpr ⟨_, hb, rfl⟩)
      simp only [decide_true, List.find?_cons_of_pos, Option.map_some, Option.some.injEq, List.mem_cons,
        hnot a, or_false]
      constructor
      · rintro rfl
        rfl
      · rintro h
        rw [← h]
    · rw [List.find?_cons_of_neg (by simpa using hr), ih hl.2, List.mem_cons]
      constructor
      · exact .inr
      · rintro (rfl | h)
        · exact absurd rfl hr
        · exact h

lemma find_eq_none {t : Table κ α} {k : κ} : t.find k = none ↔ k ∉ t.keys := by
  simp only [find, keys, Option.map_eq_none_iff, List.find?_eq_none, decide_eq_true_eq, List.mem_map,
    not_exists, not_and]

lemma mem_keys {t : Table κ α} {k : κ} : k ∈ t.keys ↔ ∃ a, t.find k = some a := by
  rw [← not_iff_not, ← find_eq_none, Option.eq_none_iff_forall_not_mem, not_exists]
  simp [Option.mem_def]

lemma mem_docs {t : Table κ α} {a : α} : a ∈ t.docs ↔ ∃ k, t.find k = some a := by
  simp only [docs, List.mem_map, find_eq_some]
  constructor
  · rintro ⟨r, hr, rfl⟩
    exact ⟨r.1, hr⟩
  · rintro ⟨k, hk⟩
    exact ⟨(k, a), hk, rfl⟩

@[simp] lemma find_empty (k : κ) : (empty : Table κ α).find k = none := rfl

lemma put_rows_of_mem {t : Table κ α} {k : κ} (h : k ∈ t.keys) (a : α) :
    (t.put k a).rows = t.rows.map fun r => if r.1 = k then (k, a) else r := by
  rw [put, dif_pos h]

lemma put_rows_of_not_mem {t : Table κ α} {k : κ} (h : k ∉ t.keys) (a : α) :
    (t.put k a).rows = t.rows ++ [(k, a)] := by
  rw [put, dif_neg h]

lemma put_keys_of_mem {t : Table κ α} {k : κ} (h : k ∈ t.keys) (a : α) : (t.put k a).keys = t.keys := by
  rw [keys, put_rows_of_mem h, replace_keys]
  rfl

lemma put_keys_of_not_mem {t : Table κ α} {k : κ} (h : k ∉ t.keys) (a : α) :
    (t.put k a).keys = t.keys ++ [k] := by
  rw [keys, put_rows_of_not_mem h, List.map_append]
  rfl

lemma mem_put_rows {t : Table κ α} {k : κ} {a : α} {r : κ × α} :
    r ∈ (t.put k a).rows ↔ r = (k, a) ∨ r ∈ t.rows ∧ r.1 ≠ k := by
  by_cases h : k ∈ t.keys
  · rw [put_rows_of_mem h, List.mem_map]
    constructor
    · rintro ⟨s, hs, rfl⟩
      by_cases hk : s.1 = k
      · exact .inl (by simp [hk])
      · exact .inr (by simpa [hk] using hs)
    · rintro (rfl | ⟨hr, hk⟩)
      · obtain ⟨s, hs, rfl⟩ := List.mem_map.mp h
        exact ⟨s, hs, by simp⟩
      · exact ⟨r, hr, by simp [hk]⟩
  · rw [put_rows_of_not_mem h, List.mem_append, List.mem_singleton]
    constructor
    · rintro (hr | rfl)
      · exact .inr ⟨hr, fun hk => h (hk ▸ List.mem_map.mpr ⟨r, hr, rfl⟩)⟩
      · exact .inl rfl
    · rintro (rfl | ⟨hr, -⟩)
      · exact .inr rfl
      · exact .inl hr

@[simp] lemma find_put (t : Table κ α) (k j : κ) (a : α) :
    (t.put k a).find j = if j = k then some a else t.find j := by
  apply Option.ext
  intro b
  rw [find_eq_some, mem_put_rows]
  by_cases h : j = k
  · simp only [h, Prod.mk.injEq, true_and, ne_eq, not_true_eq_false, and_false, or_false, if_true,
      Option.some.injEq]
    exact eq_comm
  · simp [h, find_eq_some]

@[simp] lemma find_erase (t : Table κ α) (k j : κ) :
    (t.erase k).find j = if j = k then none else t.find j := by
  apply Option.ext
  intro b
  rw [find_eq_some]
  by_cases h : j = k <;> simp [erase, h, find_eq_some]

lemma find_put_some {t : Table κ α} {k j : κ} {a b : α} (h : (t.put k a).find j = some b) :
    j = k ∧ b = a ∨ j ≠ k ∧ t.find j = some b := by
  rw [find_put] at h
  split at h
  · exact .inl ⟨by assumption, (Option.some.inj h).symm⟩
  · exact .inr ⟨by assumption, h⟩

lemma find_erase_some {t : Table κ α} {k j : κ} {b : α} (h : (t.erase k).find j = some b) :
    j ≠ k ∧ t.find j = some b := by
  rw [find_erase] at h
  split at h
  · cases h
  · exact ⟨by assumption, h⟩

lemma ext_find {t u : Table κ α} (hkeys : t.keys = u.keys) (hfind : ∀ k, t.find k = u.find k) :
    t = u := by
  apply Table.ext
  apply List.ext_getElem
  · simpa [keys] using congrArg List.length hkeys
  · intro i hi hj
    have hk : t.rows[i].1 = u.rows[i].1 := by
      have := List.getElem_of_eq hkeys (by simpa [keys] using hi)
      simpa [keys] using this
    have ht : t.find t.rows[i].1 = some t.rows[i].2 := find_eq_some.mpr (List.getElem_mem hi)
    have hu : u.find u.rows[i].1 = some u.rows[i].2 := find_eq_some.mpr (List.getElem_mem hj)
    rw [hk, hfind, hu] at ht
    exact Prod.ext hk (Option.some.inj ht).symm

@[simp] lemma putAll_nil (t : Table κ α) : t.putAll [] = t := rfl

@[simp] lemma putAll_cons (t : Table κ α) (r : κ × α) (l : List (κ × α)) :
    t.putAll (r :: l) = (t.put r.1 r.2).putAll l := rfl

lemma putAll_append (t : Table κ α) (l m : List (κ × α)) : t.putAll (l ++ m) = (t.putAll l).putAll m :=
  List.foldl_append

lemma lastFor_concat (l : List (κ × α)) (r : κ × α) (k : κ) :
    lastFor (l ++ [r]) k = if k = r.1 then some r.2 else lastFor l k := by
  by_cases h : k = r.1
  · subst h
    simp [lastFor]
  · simp [lastFor, h, Ne.symm h]

lemma find_putAll (t : Table κ α) (l : List (κ × α)) (k : κ) :
    (t.putAll l).find k = (lastFor l k).or (t.find k) := by
  induction l using List.reverseRecOn with
  | nil => simp [lastFor]
  | append_singleton l r ih =>
    rw [putAll_append, putAll_cons, putAll_nil, find_put, lastFor_concat, ih]
    by_cases h : k = r.1 <;> simp [h]

lemma putAll_keys {t : Table κ α} {l : List (κ × α)} (h : ∀ r ∈ l, r.1 ∈ t.keys) :
    (t.putAll l).keys = t.keys := by
  induction l generalizing t with
  | nil => rfl
  | cons r l ih =>
    have hr : (t.put r.1 r.2).keys = t.keys := put_keys_of_mem (h r List.mem_cons_self) r.2
    rw [putAll_cons, ih, hr]
    intro s hs
    rw [hr]
    exact h s (List.mem_cons_of_mem r hs)

lemma exists_lastFor {l : List (κ × α)} {r : κ × α} (h : r ∈ l) : ∃ a, lastFor l r.1 = some a := by
  have hne : (l.filter fun s => s.1 = r.1) ≠ [] := List.ne_nil_of_mem (List.mem_filter.mpr ⟨h, by simp⟩)
  exact ⟨_, by rw [lastFor, List.getLast?_eq_some_getLast hne, Option.map_some]⟩

lemma mem_of_lastFor {l : List (κ × α)} {k : κ} {a : α} (h : lastFor l k = some a) : (k, a) ∈ l := by
  obtain ⟨r, hr, rfl⟩ := Option.map_eq_some_iff.mp h
  have hmem := List.mem_filter.mp (List.mem_of_getLast? hr)
  obtain rfl : r.1 = k := by simpa using hmem.2
  exact hmem.1

lemma putAll_eq_self_iff {t : Table κ α} {l : List (κ × α)} :
    t.putAll l = t ↔ ∀ k a, lastFor l k = some a → t.find k = some a := by
  constructor
  · intro h k a hl
    rw [← h, find_putAll, hl]
    rfl
  · intro h
    apply ext_find
    · apply putAll_keys
      intro r hr
      obtain ⟨a, ha⟩ := exists_lastFor hr
      exact mem_keys.mpr ⟨a, h r.1 a ha⟩
    · intro k
      rw [find_putAll]
      cases hl : lastFor l k with
      | none => rfl
      | some a => rw [h k a hl]; rfl

lemma putAll_rows (t : Table κ α) : empty.putAll t.rows = t := by
  have hwrite : ∀ (l : List (κ × α)) (u : Table κ α), (∀ r ∈ l, r.1 ∉ u.keys) → (l.map Prod.fst).Nodup →
      (u.putAll l).rows = u.rows ++ l := by
    intro l
    induction l with
    | nil =>
      intro u _ _
      rw [putAll_nil, List.append_nil]
    | cons r l ih =>
      intro u hu hl
      rw [List.map_cons, List.nodup_cons] at hl
      have hr := hu r List.mem_cons_self
      rw [putAll_cons, ih _ _ hl.2]
      · rw [put_rows_of_not_mem hr, List.append_assoc]
        rfl
      · intro s hs
        rw [put_keys_of_not_mem hr, List.mem_append, List.mem_singleton, not_or]
        exact ⟨hu s (List.mem_cons_of_mem r hs), fun h => hl.1 (h ▸ List.mem_map.mpr ⟨s, hs, rfl⟩)⟩
  apply Table.ext
  rw [hwrite t.rows empty (by simp [empty, keys]) t.nodup]
  rfl

lemma lastFor_rows (t : Table κ α) (k : κ) : lastFor t.rows k = t.find k := by
  have h := congrArg (fun u => find u k) (putAll_rows t)
  simpa [find_putAll] using h

end Table

end PesitWizard.Library
