import Mathlib.Algebra.GroupWithZero.Nat
import PesitWizard.Library.Ranked
import PesitWizard.Library.Table

/-! The rows that the store keeps in the database for one table, and the statements that it runs on them.
The numbers of the rows make of them a table in the order of insertion. -/

namespace PesitWizard.App

open Library Library.Ranked

inductive StoreError
  | sqlite | json
  deriving DecidableEq

structure Row (δ : Type) where
  key : String
  doc : δ
  seq : ℕ

structure Rows (δ : Type) where
  rows : List (Row δ)
  primary : (rows.map Row.key).Nodup

abbrev seqBound : ℕ := 2 ^ 63

def limitTo {α : Type} (limit : UInt64) (l : List α) : List α :=
  if limit.toNat < 2 ^ 63 then l.take limit.toNat else l

namespace Rows

variable {δ : Type}

def empty : Rows δ := ⟨[], List.nodup_nil⟩

def deleteWhere (t : Rows δ) (p : Row δ → Bool) : Rows δ :=
  ⟨t.rows.filter fun r => !p r, (List.filter_sublist.map Row.key).nodup t.primary⟩

def insertOrReplace (t : Rows δ) (r : Row δ) : Rows δ where
  rows := (t.rows.filter fun x => x.key ≠ r.key) ++ [r]
  primary := by
    rw [List.map_append, List.nodup_append]
    refine ⟨(List.filter_sublist.map Row.key).nodup t.primary, List.nodup_singleton _, ?_⟩
    intro k hk j hj
    obtain rfl := List.mem_singleton.mp hj
    obtain ⟨x, hx, rfl⟩ := List.mem_map.mp hk
    simpa using (List.mem_filter.mp hx).2

def selectKey (t : Rows δ) (key : String) : Option (Row δ) := t.rows.find? fun r => r.key = key

def maxSeq (t : Rows δ) : ℕ := (t.rows.map Row.seq).foldr max 0

def put (t : Rows δ) (key : String) (doc : δ) : Except StoreError (Rows δ) :=
  match t.selectKey key with
  | some r => .ok (t.insertOrReplace ⟨key, doc, r.seq⟩)
  | none =>
    if t.maxSeq + 1 < seqBound then .ok (t.insertOrReplace ⟨key, doc, t.maxSeq + 1⟩) else .error .sqlite

def get (t : Rows δ) (key : String) : Option δ := (t.selectKey key).map Row.doc

def delete (t : Rows δ) (key : String) : Bool × Rows δ :=
  let t' := t.deleteWhere fun r => r.key = key
  (decide (t'.rows.length < t.rows.length), t')

def list (t : Rows δ) : List δ := (ascending Row.seq t.rows).map Row.doc

def listRecent (t : Rows δ) (limit : UInt64) : List δ :=
  (limitTo limit (descending Row.seq t.rows)).map Row.doc

def pruneOldest (t : Rows δ) (keep : UInt64) : ℕ × Rows δ :=
  let kept := (limitTo keep (descending Row.seq t.rows)).map Row.seq
  let t' := t.deleteWhere fun r => r.seq ∉ kept
  (t.rows.length - t'.rows.length, t')

def update (t : Rows δ) (key : String) (f : δ → Option δ) : Except StoreError (Bool × Rows δ) :=
  match t.get key with
  | none => .ok (false, t)
  | some doc =>
    match f doc with
    | none => .error .json
    | some doc =>
      match t.put key doc with
      | .error e => .error e
      | .ok t => .ok (true, t)

inductive Op (δ : Type)
  | put (key : String) (doc : δ)
  | delete (key : String)
  | update (key : String) (f : δ → Option δ)
  | pruneOldest (keep : UInt64)

def Op.perform (t : Rows δ) : Op δ → Except StoreError (Rows δ)
  | put key doc => t.put key doc
  | delete key => .ok (t.delete key).2
  | update key f => (t.update key f).map Prod.snd
  | pruneOldest keep => .ok (t.pruneOldest keep).2

def Op.spec (u : Table String δ) : Op δ → Table String δ
  | put key doc => u.put key doc
  | delete key => u.erase key
  | update key f => ((u.find key).bind f).elim u (u.put key)
  | pruneOldest keep => u.keepLast keep.toNat

def run (t : Rows δ) (u : Table String δ) : List (Op δ) → Rows δ × Table String δ
  | [] => (t, u)
  | op :: ops =>
    match op.perform t with
    | .error _ => run t u ops
    | .ok t => run t (op.spec u) ops

structure Refines (t : Rows δ) (u : Table String δ) : Prop where
  nodup : (t.rows.map Row.seq).Nodup
  bounded : ∀ r ∈ t.rows, 0 < r.seq ∧ r.seq < seqBound
  order : (ascending Row.seq t.rows).map (fun r => (r.key, r.doc)) = u.rows

variable {t t' : Rows δ} {u : Table String δ} {key : String}

section Statements

lemma selectKey_eq_some {r : Row δ} : t.selectKey key = some r ↔ r ∈ t.rows ∧ r.key = key := by
  rw [selectKey]
  constructor
  · intro h
    exact ⟨List.mem_of_find?_eq_some h, by simpa using List.find?_some h⟩
  · rintro ⟨hr, rfl⟩
    cases hfind : t.rows.find? fun x => x.key = r.key with
    | none =>
      have := List.find?_eq_none.mp hfind r hr
      simp at this
    | some x =>
      have hx := List.mem_of_find?_eq_some hfind
      have hkey : x.key = r.key := by simpa using List.find?_some hfind
      rw [List.inj_on_of_nodup_map t.primary hx hr hkey]

lemma selectKey_eq_none : t.selectKey key = none ↔ ∀ r ∈ t.rows, r.key ≠ key := by
  rw [selectKey, List.find?_eq_none]
  simp

lemma le_maxSeq {r : Row δ} (h : r ∈ t.rows) : r.seq ≤ t.maxSeq := by
  have hmem : r.seq ∈ t.rows.map Row.seq := List.mem_map_of_mem h
  rw [maxSeq]
  generalize t.rows.map Row.seq = l at hmem
  induction l with
  | nil => cases hmem
  | cons n l ih =>
    rw [List.foldr_cons]
    rcases List.mem_cons.mp hmem with rfl | hmem
    · exact le_max_left _ _
    · exact (ih hmem).trans (le_max_right _ _)

lemma perm_of_mem {r : Row δ} (h : r ∈ t.rows) :
    ((t.rows.filter fun x => x.key ≠ r.key) ++ [r]).Perm t.rows := by
  obtain ⟨l, m, hrows⟩ := List.append_of_mem h
  have hprimary := t.primary
  rw [hrows, List.map_append, List.map_cons, List.nodup_middle, List.nodup_cons,
    ← List.map_append] at hprimary
  have hother : ((l ++ m).filter fun x => x.key ≠ r.key) = l ++ m := by
    rw [List.filter_eq_self]
    intro x hx
    have : x.key ≠ r.key := fun heq => hprimary.1 (heq ▸ List.mem_map_of_mem hx)
    simpa using this
  rw [List.filter_append] at hother
  rw [hrows, List.filter_append, List.filter_cons_of_neg (by simp), hother, List.append_assoc]
  exact (List.perm_append_comm.append_left l).trans (by simp)

end Statements

namespace Refines

lemma find (h : t.Refines u) (key : String) : u.find key = t.get key := by
  apply Option.ext
  intro d
  rw [Table.find_eq_some, ← h.order, get, List.mem_map]
  constructor
  · rintro ⟨r, hr, heq⟩
    obtain ⟨rfl, rfl⟩ := Prod.mk.inj heq
    rw [selectKey_eq_some.mpr ⟨(ascending_perm t.rows).mem_iff.mp hr, rfl⟩]
    rfl
  · intro hd
    obtain ⟨r, hr, rfl⟩ := Option.map_eq_some_iff.mp hd
    obtain ⟨hmem, rfl⟩ := selectKey_eq_some.mp hr
    exact ⟨r, (ascending_perm t.rows).mem_iff.mpr hmem, rfl⟩

lemma list (h : t.Refines u) : t.list = u.docs := by
  rw [Rows.list, Table.docs, ← h.order, List.map_map]
  rfl

lemma length (h : t.Refines u) : u.rows.length = t.rows.length := by
  rw [← h.order, List.length_map, (ascending_perm t.rows).length_eq]

lemma length_lt (h : t.Refines u) : t.rows.length < seqBound :=
  Ranked.length_lt h.nodup (Nat.two_pow_pos 63) h.bounded

lemma limitTo_eq (h : t.Refines u) {α : Type} (limit : UInt64) {l : List α}
    (hl : l.length = t.rows.length) :
    limitTo limit l = l.take limit.toNat := by
  have hlt := h.length_lt
  rw [limitTo]
  split
  · rfl
  · rename_i hlimit
    rw [List.take_of_length_le]
    simp only [seqBound] at hlt
    omega

lemma empty : (Rows.empty : Rows δ).Refines Table.empty := by
  refine ⟨List.nodup_nil, by simp [Rows.empty], ?_⟩
  rw [Rows.empty, ascending_eq .nil .nil]
  rfl

lemma deleteWhere (h : t.Refines u) (p : Row δ → Bool) {v : Table String δ}
    (hv : ((ascending Row.seq t.rows).filter fun r => !p r).map (fun r => (r.key, r.doc)) = v.rows) :
    (t.deleteWhere p).Refines v := by
  refine ⟨(List.filter_sublist.map Row.seq).nodup h.nodup, ?_, ?_⟩
  · intro r hr
    exact h.bounded r (List.mem_filter.mp hr).1
  · rw [Rows.deleteWhere, ascending_filter h.nodup, hv]

lemma delete (h : t.Refines u) (key : String) : (t.delete key).2.Refines (u.erase key) := by
  refine h.deleteWhere _ ?_
  rw [Table.erase_rows, ← h.order, List.filter_map]
  congr 1
  apply List.filter_congr
  intro r _
  simp

lemma pruneOldest (h : t.Refines u) (keep : UInt64) :
    (t.pruneOldest keep).2.Refines (u.keepLast keep.toNat) := by
  have hlen : (ascending Row.seq t.rows).length = t.rows.length := (ascending_perm t.rows).length_eq
  have hkept : (limitTo keep (descending Row.seq t.rows)).map Row.seq =
      (((ascending Row.seq t.rows).drop (t.rows.length - keep.toNat)).map Row.seq).reverse := by
    rw [descending_eq h.nodup, h.limitTo_eq keep (by rw [List.length_reverse, hlen]),
      List.take_reverse, hlen, List.map_reverse]
  refine h.deleteWhere _ ?_
  have hlast := filter_rank_mem_drop (ascending_nodup h.nodup) (t.rows.length - keep.toNat)
  rw [Table.keepLast_rows, h.length, ← h.order, ← List.map_drop, ← hlast, hkept]
  congr 1
  apply List.filter_congr
  intro r _
  simp

lemma insertOrReplace_perm {r : Row δ} (hr : r ∈ t.rows) (doc : δ) :
    (t.rows.map fun x => if x.key = r.key then ⟨r.key, doc, r.seq⟩ else x).Perm
      (t.insertOrReplace ⟨r.key, doc, r.seq⟩).rows := by
  have hperm := ((perm_of_mem hr).map fun x => if x.key = r.key then ⟨r.key, doc, r.seq⟩ else x).symm
  have hothers :
      ((t.rows.filter fun x => x.key ≠ r.key).map fun x => if x.key = r.key then
      ⟨r.key, doc, r.seq⟩ else x) = t.rows.filter fun x => x.key ≠ r.key := by
    refine (List.map_congr_left ?_).trans (List.map_id _)
    intro x hx
    exact if_neg (by simpa using (List.mem_filter.mp hx).2)
  rw [List.map_append, hothers, List.map_singleton, if_pos rfl] at hperm
  exact hperm

lemma put_of_mem (h : t.Refines u) {r : Row δ} (hr : r ∈ t.rows) (doc : δ) :
    (t.insertOrReplace ⟨r.key, doc, r.seq⟩).Refines (u.put r.key doc) := by
  have hseq : ∀ x ∈ t.rows,
      (if x.key = r.key then (⟨r.key, doc, r.seq⟩ : Row δ) else x).seq = x.seq := by
    intro x hx
    split
    · rename_i hkey
      rw [List.inj_on_of_nodup_map t.primary hx hr hkey]
    · rfl
  have hperm := insertOrReplace_perm hr doc
  have hseqs :
      (t.rows.map fun x => if x.key = r.key then (⟨r.key, doc, r.seq⟩ : Row δ) else x).map Row.seq =
      t.rows.map Row.seq := by
    rw [List.map_map]
    exact List.map_congr_left hseq
  refine ⟨?_, ?_, ?_⟩
  · rw [← (hperm.map Row.seq).nodup_iff, hseqs]
    exact h.nodup
  · intro x hx
    have hmem : x.seq ∈ t.rows.map Row.seq := by
      rw [← hseqs]
      exact List.mem_map_of_mem (hperm.mem_iff.mpr hx)
    obtain ⟨y, hy, heq⟩ := List.mem_map.mp hmem
    rw [← heq]
    exact h.bounded y hy
  · have hsorted : ascending Row.seq (t.insertOrReplace ⟨r.key, doc, r.seq⟩).rows =
        (ascending Row.seq t.rows).map fun x => if x.key = r.key then ⟨r.key, doc, r.seq⟩ else x := by
      refine ascending_eq (((ascending_perm t.rows).map _).trans hperm) ?_
      rw [List.pairwise_map]
      refine (ascending_lt h.nodup).imp_of_mem ?_
      intro a b ha hb hab
      rwa [hseq a ((ascending_perm t.rows).mem_iff.mp ha),
        hseq b ((ascending_perm t.rows).mem_iff.mp hb)]
    have hkey : r.key ∈ u.keys := by
      rw [Table.keys, ← h.order, List.map_map]
      exact List.mem_map_of_mem ((ascending_perm t.rows).mem_iff.mpr hr)
    rw [hsorted, Table.put_rows_of_mem hkey, ← h.order, List.map_map, List.map_map]
    refine List.map_congr_left ?_
    intro x _
    by_cases hx : x.key = r.key <;> simp [hx]

lemma put_of_not_mem (h : t.Refines u) (hkey : t.selectKey key = none)
    (hfits : t.maxSeq + 1 < seqBound) (doc : δ) :
    (t.insertOrReplace ⟨key, doc, t.maxSeq + 1⟩).Refines (u.put key doc) := by
  have hother : (t.rows.filter fun x => x.key ≠ key) = t.rows := by
    rw [List.filter_eq_self]
    intro x hx
    simpa using selectKey_eq_none.mp hkey x hx
  have hrows :
      (t.insertOrReplace ⟨key, doc, t.maxSeq + 1⟩).rows = t.rows ++ [⟨key, doc, t.maxSeq + 1⟩] :=
    congrArg (· ++ _) hother
  have hlast : ∀ x ∈ t.rows, x.seq < t.maxSeq + 1 := fun x hx => Nat.lt_succ_of_le (le_maxSeq hx)
  refine ⟨?_, ?_, ?_⟩
  · rw [hrows, List.map_append, List.nodup_append]
    refine ⟨h.nodup, List.nodup_singleton _, ?_⟩
    intro n hn m hm
    obtain rfl := List.mem_singleton.mp hm
    obtain ⟨x, hx, rfl⟩ := List.mem_map.mp hn
    exact Nat.ne_of_lt (hlast x hx)
  · intro x hx
    rw [hrows, List.mem_append, List.mem_singleton] at hx
    rcases hx with hx | rfl
    · exact h.bounded x hx
    · exact ⟨Nat.succ_pos _, hfits⟩
  · have hsorted : ascending Row.seq (t.insertOrReplace ⟨key, doc, t.maxSeq + 1⟩).rows =
        ascending Row.seq t.rows ++ [⟨key, doc, t.maxSeq + 1⟩] := by
      rw [hrows]
      refine ascending_eq ((ascending_perm t.rows).append_right _) ?_
      rw [List.pairwise_append]
      refine ⟨ascending_lt h.nodup, List.pairwise_singleton _ _, ?_⟩
      intro a ha b hb
      obtain rfl := List.mem_singleton.mp hb
      exact hlast a ((ascending_perm t.rows).mem_iff.mp ha)
    have hnot : key ∉ u.keys := by
      rw [← Table.find_eq_none, h.find, get, hkey]
      rfl
    rw [hsorted, Table.put_rows_of_not_mem hnot, ← h.order, List.map_append]
    rfl

lemma put (h : t.Refines u) {doc : δ} (hput : t.put key doc = .ok t') : t'.Refines (u.put key doc) := by
  rw [Rows.put] at hput
  cases hkey : t.selectKey key with
  | some r =>
    rw [hkey] at hput
    obtain rfl := Except.ok.inj hput
    obtain ⟨hr, rfl⟩ := selectKey_eq_some.mp hkey
    exact h.put_of_mem hr doc
  | none =>
    rw [hkey] at hput
    simp only at hput
    split at hput
    · rename_i hfits
      obtain rfl := Except.ok.inj hput
      exact h.put_of_not_mem hkey hfits doc
    · cases hput

lemma update (h : t.Refines u) {f : δ → Option δ} {b : Bool} (hupdate : t.update key f = .ok (b, t')) :
    t'.Refines (((u.find key).bind f).elim u (u.put key)) := by
  rw [Rows.update] at hupdate
  rw [h.find]
  cases hget : t.get key with
  | none =>
    rw [hget] at hupdate
    obtain ⟨-, rfl⟩ := Prod.mk.inj (Except.ok.inj hupdate)
    exact h
  | some doc =>
    rw [hget] at hupdate
    simp only [Option.bind_some] at hupdate ⊢
    cases hf : f doc with
    | none =>
      rw [hf] at hupdate
      cases hupdate
    | some doc =>
      rw [hf] at hupdate
      simp only at hupdate
      cases hput : t.put key doc with
      | error e =>
        rw [hput] at hupdate
        cases hupdate
      | ok t₁ =>
        rw [hput] at hupdate
        obtain ⟨-, rfl⟩ := Prod.mk.inj (Except.ok.inj hupdate)
        exact h.put hput

lemma perform (h : t.Refines u) {op : Op δ} (hop : op.perform t = .ok t') : t'.Refines (op.spec u) := by
  cases op with
  | put key doc => exact h.put hop
  | delete key =>
    obtain rfl := Except.ok.inj hop
    exact h.delete key
  | update key f =>
    rw [Op.perform] at hop
    cases hupdate : t.update key f with
    | error e =>
      rw [hupdate] at hop
      cases hop
    | ok x =>
      rw [hupdate] at hop
      obtain rfl := Except.ok.inj hop
      exact h.update hupdate
  | pruneOldest keep =>
    obtain rfl := Except.ok.inj hop
    exact h.pruneOldest keep

lemma run (h : t.Refines u) (ops : List (Op δ)) : (run t u ops).1.Refines (Rows.run t u ops).2 := by
  induction ops generalizing t u with
  | nil => exact h
  | cons op ops ih =>
    rw [Rows.run]
    cases hop : op.perform t with
    | error e => exact ih h
    | ok t' => exact ih (h.perform hop)

lemma listRecent (h : t.Refines u) (limit : UInt64) :
    t.listRecent limit = (t.list.drop (t.list.length - min limit.toNat t.list.length)).reverse := by
  have hlen : (ascending Row.seq t.rows).length = t.rows.length := (ascending_perm t.rows).length_eq
  have hlist : t.list.length = t.rows.length := by rw [Rows.list, List.length_map, hlen]
  rw [Rows.listRecent, descending_eq h.nodup, h.limitTo_eq limit (by rw [List.length_reverse, hlen]),
    List.take_reverse, List.map_reverse, List.map_drop, hlen, hlist]
  congr 2
  omega

lemma pruned (h : t.Refines u) (keep : UInt64) :
    (t.pruneOldest keep).2.list = t.list.drop (t.list.length - min keep.toNat t.list.length) ∧
      (t.pruneOldest keep).1 = t.list.length - min keep.toNat t.list.length := by
  have hpruned := h.pruneOldest keep
  have hlist : t.list.length = t.rows.length := by rw [h.list, Table.docs, List.length_map, h.length]
  have hlen := hpruned.length
  rw [Table.keepLast_rows, List.length_drop, h.length] at hlen
  refine ⟨?_, ?_⟩
  · rw [hpruned.list, hlist, h.list, Table.docs, Table.keepLast_rows, Table.docs,
      List.map_drop, h.length]
    congr 1
    omega
  · rw [Rows.pruneOldest] at hlen ⊢
    simp only at hlen ⊢
    rw [hlist]
    omega

end Refines

end Rows

end PesitWizard.App
