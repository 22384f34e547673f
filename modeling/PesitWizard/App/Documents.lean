import PesitWizard.App.Http

/-! The documents of one type that a table holds, each under its key. -/

namespace PesitWizard.App

open Library

lemma mem_of_mapM {α β : Type} {f : α → Option β} {l : List α} {m : List β} {a : α} {b : β}
    (h : l.mapM f = some m) (ha : a ∈ l) (hb : f a = some b) : b ∈ m := by
  induction l generalizing m with
  | nil => cases ha
  | cons c l ih =>
    rw [List.mapM_cons] at h
    obtain ⟨d, hd, h⟩ := Option.bind_eq_some_iff.mp h
    obtain ⟨ds, hds, h⟩ := Option.bind_eq_some_iff.mp h
    cases h
    rcases List.mem_cons.mp ha with rfl | ha
    · obtain rfl : b = d := Option.some.inj (hb.symm.trans hd)
      exact List.mem_cons_self
    · exact List.mem_cons_of_mem d (ih hds ha)

namespace JsonStore

variable {T : Type} [Document T] {s : JsonStore} {table k k' : String} {x y : T}

def Holds (s : JsonStore) (table k : String) (x : T) : Prop := s.get table k = some (some x)

lemma holds_iff :
    s.Holds table k x ↔ ∃ doc, (s.tables table).find k = some doc ∧ Document.ofValue doc = some x := by
  rw [Holds, get]
  cases (s.tables table).find k with
  | none => simp
  | some doc => simp

lemma Holds.unique (hx : s.Holds table k x) (hy : s.Holds table k y) : x = y :=
  Option.some.inj (Option.some.inj (hx.symm.trans hy))

lemma holds_empty : ¬ empty.Holds table k x := by
  intro h
  obtain ⟨doc, hdoc, -⟩ := holds_iff (T := T).mp h
  cases hdoc

lemma holds_put : (s.put table k' (toValue y)).Holds table k x ↔ k = k' ∧ x = y ∨ k ≠ k' ∧
    s.Holds table k x := by
  rw [holds_iff, holds_iff, put_tables, if_pos rfl, Table.find_put]
  by_cases hk : k = k'
  · simp [hk, Document.ofValue_toValue, eq_comm]
  · simp [hk]

lemma holds_delete : (s.delete table k').Holds table k x ↔ k ≠ k' ∧ s.Holds table k x := by
  rw [holds_iff, holds_iff, delete_tables, if_pos rfl, Table.find_erase]
  by_cases hk : k = k' <;> simp [hk]

lemma holds_other {table' : String} {doc : Value} (h : table ≠ table') :
    (s.put table' k' doc).Holds table k x ↔ s.Holds table k x := by
  rw [holds_iff, holds_iff, put_tables, if_neg h]

lemma fetch_iff : (fetch s table k : Except ApiError (Option T)) = .ok (some x) ↔ s.Holds table k x := by
  simp only [fetch, Holds]
  cases (s.get table k : Option (Option T)) with
  | none => simp
  | some doc => simp

lemma mem_fetchAll {all : List T} (h : fetchAll s table = .ok all) :
    x ∈ all ↔ ∃ k, s.Holds table k x := by
  rw [fetchAll] at h
  cases hall : (s.listAs table : Option (List T)) with
  | none =>
    rw [hall] at h
    cases h
  | some docs =>
    rw [hall] at h
    cases h
    constructor
    · intro hx
      obtain ⟨doc, hdoc, hread⟩ := exists_of_mem_mapM hall hx
      obtain ⟨k, hk⟩ := Table.mem_docs.mp hdoc
      exact ⟨k, holds_iff.mpr ⟨doc, hk, hread⟩⟩
    · rintro ⟨k, hk⟩
      obtain ⟨doc, hdoc, hread⟩ := holds_iff.mp hk
      exact mem_of_mapM hall (Table.mem_docs.mpr ⟨k, hdoc⟩) hread

/-- Every document names the key that it stands under. -/
def KeyedBy (key : T → String) (s : JsonStore) (table : String) : Prop :=
  ∀ k x, s.Holds table k x → key x = k

variable {key : T → String} {f : T → T}

def rewrite (s : JsonStore) (table : String) (key : T → String) (f : T → T) (l : List T) : JsonStore :=
  l.foldl (fun s y => s.put table (key y) (toValue (f y))) s

lemma rewrite_tables (l : List T) (s : JsonStore) :
    (s.rewrite table key f l).tables table = (s.tables table).putAll
    (l.map fun y => (key y, toValue (f y))) := by
  induction l generalizing s with
  | nil => rfl
  | cons y l ih =>
    have hput : (s.put table (key y) (toValue (f y))).tables table = (s.tables table).put (key y)
        (toValue (f y)) := by
      rw [put_tables, if_pos rfl]
    rw [rewrite, List.foldl_cons, ← rewrite, ih, hput]
    rfl

/-- Documents of the table are rewritten one after the other, each under the key that it names. -/
lemma holds_rewrite (hkey : KeyedBy key s table) {l : List T} (hl : ∀ y ∈ l, s.Holds table (key y) y) :
    (s.rewrite table key f l).Holds table k x ↔ ∃ y, s.Holds table k y ∧
    (y ∈ l ∧ x = f y ∨ y ∉ l ∧ x = y) := by
  have hwritten {doc : Value}
      (hdoc : Table.lastFor (l.map fun y => (key y, toValue (f y))) k = some doc) :
      ∃ y ∈ l, key y = k ∧ doc = toValue (f y) := by
    obtain ⟨y, hy, heq⟩ := List.mem_map.mp (Table.mem_of_lastFor hdoc)
    exact ⟨y, hy, congrArg Prod.fst heq, (congrArg Prod.snd heq).symm⟩
  have hrow {y : T} (hy : y ∈ l) :
      ∃ doc, Table.lastFor (l.map fun y => (key y, toValue (f y))) (key y) = some doc :=
    Table.exists_lastFor (List.mem_map_of_mem (f := fun y => (key y, toValue (f y))) hy)
  rw [holds_iff, rewrite_tables, Table.find_putAll]
  cases hlast : Table.lastFor (l.map fun y => (key y, toValue (f y))) k with
  | some doc =>
    obtain ⟨y, hy, rfl, rfl⟩ := hwritten hlast
    simp only [Option.some_or, Option.some.injEq, exists_eq_left', Document.ofValue_toValue]
    constructor
    · rintro rfl
      exact ⟨y, hl y hy, .inl ⟨hy, rfl⟩⟩
    · rintro ⟨y', hy', hcases⟩
      obtain rfl := (hl y hy).unique hy'
      rcases hcases with ⟨-, rfl⟩ | ⟨hnot, -⟩
      · rfl
      · exact absurd hy hnot
  | none =>
    rw [Option.none_or, ← holds_iff]
    constructor
    · intro hx
      refine ⟨x, hx, .inr ⟨fun hin => ?_, rfl⟩⟩
      obtain ⟨doc, hdoc⟩ := hrow hin
      rw [hkey k x hx, hlast] at hdoc
      cases hdoc
    · rintro ⟨y, hy, ⟨hin, -⟩ | ⟨-, rfl⟩⟩
      · obtain ⟨doc, hdoc⟩ := hrow hin
        rw [hkey k y hy, hlast] at hdoc
        cases hdoc
      · exact hy

end JsonStore

end PesitWizard.App
