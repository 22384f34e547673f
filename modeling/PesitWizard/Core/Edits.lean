import PesitWizard.Core.Transmission
import PesitWizard.Library.Search

/-! Parameters set, grouped and removed one after the other, and what is read then. -/

namespace PesitWizard.Core

open Library.Search

def Param.key (p : Param) : ℕ := p.code.toNat

namespace Fpdu

def sorted (items : List (Pi × Bytes)) : List (Pi × Bytes) :=
  items.insertionSort fun a b => a.1.code ≤ b.1.code

def placeAt (params : List Param) (p : Param) : Except ℕ ℕ → List Param
  | .ok i => params.set i p
  | .error i => params.insertIdx i p

def place (f : Fpdu) (p : Param) : Fpdu :=
  { f with params := placeAt f.params p (binarySearch Param.key p.key f.params) }

def set (f : Fpdu) (pi : Pi) (value : Bytes) : Fpdu := f.place (.pi pi value)

def setNum (f : Fpdu) (pi : Pi) (value : UInt64) : Fpdu := f.set pi (encodeNum value.toNat)

def setText (f : Fpdu) (pi : Pi) (value : String) : Fpdu := f.set pi (textBytes value)

def setDiag (f : Fpdu) (diag : Diagnostic) : Fpdu := f.set .diag diag.toBytes

def setPgi (f : Fpdu) (g : Pgi) (items : List (Pi × Bytes)) : Fpdu := f.place (.pgi g (sorted items))

def isPi (pi : Pi) : Param → Bool
  | .pi q _ => q == pi
  | .pgi _ _ => false

def remove (f : Fpdu) (pi : Pi) : Option Bytes × Fpdu :=
  match f.params.findIdx? (isPi pi) with
  | none => (none, f)
  | some i =>
    let value := match f.params[i]? with
      | some (.pi _ value) => some value
      | _ => none
    (value, { f with params := f.params.eraseIdx i })

end Fpdu

inductive Edit
  | set (pi : Pi) (value : Bytes)
  | setNum (pi : Pi) (value : UInt64)
  | setText (pi : Pi) (value : String)
  | setDiag (diag : Diagnostic)
  | setPgi (g : Pgi) (items : List (Pi × Bytes))
  | remove (pi : Pi)

namespace Fpdu

def edit (f : Fpdu) : Edit → Fpdu
  | .set pi value => f.set pi value
  | .setNum pi value => f.setNum pi value
  | .setText pi value => f.setText pi value
  | .setDiag diag => f.setDiag diag
  | .setPgi g items => f.setPgi g items
  | .remove pi => (f.remove pi).2

def edited (kind : FpduKind) (edits : List Edit) : Fpdu := edits.foldl edit (new kind)

end Fpdu

/-- The value that stands for each parameter by itself, and the items that were stored
last for each group. -/
structure Held where
  top : Pi → Option Bytes
  groups : Pgi → Option (List (Pi × Bytes))

namespace Held

def empty : Held := ⟨fun _ => none, fun _ => none⟩

def put (h : Held) (pi : Pi) (value : Option Bytes) : Held :=
  { h with top := Function.update h.top pi value }

def store (h : Held) (g : Pgi) (items : List (Pi × Bytes)) : Held :=
  { h with groups := Function.update h.groups g (some items) }

def after (h : Held) : Edit → Held
  | .set pi value => h.put pi (some value)
  | .setNum pi value => h.put pi (some (encodeNum value.toNat))
  | .setText pi value => h.put pi (some (Fpdu.textBytes value))
  | .setDiag diag => h.put .diag (some diag.toBytes)
  | .setPgi g items => h.store g items
  | .remove pi => h.put pi none

def written (edits : List Edit) : Held := edits.foldl after empty

@[simp] lemma put_top (h : Held) (pi p : Pi) (value : Option Bytes) :
    (h.put pi value).top p = if p = pi then value else h.top p := Function.update_apply ..

@[simp] lemma put_groups (h : Held) (pi : Pi) (value : Option Bytes) :
    (h.put pi value).groups = h.groups := rfl

@[simp] lemma store_top (h : Held) (g : Pgi) (items : List (Pi × Bytes)) :
    (h.store g items).top = h.top := rfl

@[simp] lemma store_groups (h : Held) (g g' : Pgi) (items : List (Pi × Bytes)) :
    (h.store g items).groups g' = if g' = g then some items else h.groups g' := Function.update_apply ..

def Documented (h : Held) (pi : Pi) (value : Option Bytes) : Prop :=
  match h.top pi with
  | some v => value = some v
  | none =>
    (∃ g items v, h.groups g = some items ∧ (pi, v) ∈ items ∧ value = some v) ∨
      (∀ g items v, h.groups g = some items → (pi, v) ∉ items) ∧ value = none

def inside (h : Held) (pi : Pi) (g : Pgi) : Option Bytes :=
  (h.groups g).bind fun items => (items.find? fun i => i.1 == pi).map Prod.snd

/-- The first group with the parameter stands before the parameter itself. -/
def Ahead (h : Held) (pi : Pi) (g : Pgi) (w : Bytes) : Prop :=
  g.code < pi.code ∧ h.inside pi g = some w ∧ ∀ g', g'.code < g.code → h.inside pi g' = none

/-- The group that stands before a parameter with a value of its own has the same value for it. -/
def Unshadowed (h : Held) (pi : Pi) : Prop := ∀ v g w, h.top pi = some v → h.Ahead pi g w → w = v

end Held

lemma Pi.code_inj {p q : Pi} (h : p.code = q.code) : p = q := by
  rw [← Option.some_inj, ← Pi.fromCode_code, h, Pi.fromCode_code]

lemma Pgi.code_inj {g g' : Pgi} (h : g.code = g'.code) : g = g' := by
  rw [← Option.some_inj, ← Pgi.fromCode_code, h, Pgi.fromCode_code]

lemma Pgi.code_ne (g : Pgi) (pi : Pi) : g.code ≠ pi.code := by
  intro h
  have hg := Pgi.fromCode_code g
  rw [h, Pgi.fromCode_pi_code] at hg
  cases hg

namespace Fpdu

variable {f : Fpdu} {p q : Param}

lemma ascending_iff {params : List Param} :
    Ascending Param.key params ↔ (params.map Param.code).Pairwise (· < ·) := by
  rw [List.pairwise_map]
  exact Iff.rfl

lemma setParam_append {xs : List Param} (hxs : ∀ x ∈ xs, x.key < p.key) (ys : List Param) :
    setParam p (xs ++ ys) = xs ++ setParam p ys := by
  induction xs with
  | nil => rfl
  | cons x xs ih =>
    have hx : x.code < p.code := hxs x List.mem_cons_self
    rw [List.cons_append, setParam, if_pos hx, ih fun y hy => hxs y (List.mem_cons_of_mem x hy),
      List.cons_append]

lemma insertIdx_between (xs ys : List Param) (p : Param) :
    (xs ++ ys).insertIdx xs.length p = xs ++ p :: ys := by
  induction xs with
  | nil => exact List.insertIdx_zero
  | cons x xs ih => exact List.insertIdx_succ_cons.trans (congrArg (x :: ·) ih)

lemma placeAt_eq {params : List Param} {place : Except ℕ ℕ} (h : Located Param.key p.key params place) :
    placeAt params p place = setParam p params := by
  cases h with
  | found xs a ys hxs ha =>
    have heq : a.code = p.code := UInt8.toNat_inj.mp ha
    rw [setParam_append hxs, setParam, if_neg (by rw [heq]; exact UInt8.lt_irrefl _), if_pos heq]
    simp [placeAt]
  | missing xs ys hxs hys =>
    rw [setParam_append hxs, placeAt, insertIdx_between]
    cases ys with
    | nil => rfl
    | cons y ys =>
      have hlt : p.code < y.code := hys y List.mem_cons_self
      rw [setParam, if_neg (UInt8.lt_asymm hlt), if_neg (Ne.symm (UInt8.ne_of_lt hlt))]

lemma place_params (h : Ascending Param.key f.params) (p : Param) :
    (f.place p).params = setParam p f.params :=
  placeAt_eq (binarySearch_located h)

lemma mem_setParam_iff {params : List Param} (h : Ascending Param.key params) :
    q ∈ setParam p params ↔ q = p ∨ q ∈ params ∧ q.code ≠ p.code := by
  induction params with
  | nil => simp [setParam]
  | cons x params ih =>
    obtain ⟨hx, htail⟩ := List.pairwise_cons.mp h
    rw [setParam]
    split
    · rename_i hlt
      rw [List.mem_cons, ih htail, List.mem_cons]
      constructor
      · rintro (rfl | rfl | hq)
        · exact .inr ⟨.inl rfl, UInt8.ne_of_lt hlt⟩
        · exact .inl rfl
        · exact .inr ⟨.inr hq.1, hq.2⟩
      · rintro (rfl | ⟨rfl | hq, hne⟩)
        · exact .inr (.inl rfl)
        · exact .inl rfl
        · exact .inr (.inr ⟨hq, hne⟩)
    · split
      · rename_i heq
        rw [List.mem_cons, List.mem_cons]
        have hbehind (hq : q ∈ params) : q.code ≠ p.code := by
          intro hcode
          exact absurd (hx q hq) (by rw [Param.key, Param.key, hcode, heq]; exact lt_irrefl _)
        constructor
        · exact Or.imp_right fun hq => ⟨.inr hq, hbehind hq⟩
        · rintro (rfl | ⟨rfl | hq, hne⟩)
          · exact .inl rfl
          · exact absurd heq hne
          · exact .inr hq
      · rename_i hlt hne
        have hpx : p.code < x.code := UInt8.lt_of_le_of_ne (UInt8.not_lt.mp hlt) (Ne.symm hne)
        rw [List.mem_cons]
        refine or_congr_right ⟨fun hq => ⟨hq, ?_⟩, And.left⟩
        rcases List.mem_cons.mp hq with rfl | hq
        · exact hne
        · intro hcode
          exact absurd (hx q hq)
            (by rw [Param.key, Param.key, hcode]; exact not_lt.mpr (UInt8.le_of_lt hpx))

lemma place_ascending (h : Ascending Param.key f.params) (p : Param) :
    Ascending Param.key (f.place p).params := by
  rw [place_params h, ascending_iff]
  exact setParam_ascending (ascending_iff.mp h)

lemma mem_place (h : Ascending Param.key f.params) :
    q ∈ (f.place p).params ↔ q = p ∨ q ∈ f.params ∧ q.code ≠ p.code := by
  rw [place_params h, mem_setParam_iff h]

lemma remove_params (f : Fpdu) (pi : Pi) : (f.remove pi).2.params = f.params.eraseP (isPi pi) := by
  rw [remove, List.eraseP_eq_eraseIdx]
  split <;> rename_i h <;> rw [h]

lemma isPi_iff {pi : Pi} : isPi pi q = true ↔ q.code = pi.code := by
  cases q with
  | pi p v => exact beq_iff_eq.trans ⟨congrArg Pi.code, Pi.code_inj⟩
  | pgi g items => exact iff_of_false Bool.false_ne_true (g.code_ne pi)

lemma mem_eraseP {pi : Pi} {params : List Param} (h : Ascending Param.key params) :
    q ∈ params.eraseP (isPi pi) ↔ q ∈ params ∧ q.code ≠ pi.code := by
  induction params with
  | nil => simp
  | cons x params ih =>
    obtain ⟨hx, htail⟩ := List.pairwise_cons.mp h
    by_cases hcode : x.code = pi.code
    · rw [List.eraseP_cons_of_pos (isPi_iff.mpr hcode)]
      constructor
      · intro hq
        refine ⟨List.mem_cons_of_mem x hq, fun hne => ?_⟩
        exact absurd (hx q hq) (by rw [Param.key, Param.key, hne, hcode]; exact lt_irrefl _)
      · rintro ⟨hq, hne⟩
        rcases List.mem_cons.mp hq with rfl | hq
        · exact absurd hcode hne
        · exact hq
    · rw [List.eraseP_cons_of_neg (mt isPi_iff.mp hcode), List.mem_cons, List.mem_cons, ih htail]
      constructor
      · rintro (rfl | hq)
        · exact ⟨.inl rfl, hcode⟩
        · exact ⟨.inr hq.1, hq.2⟩
      · rintro ⟨rfl | hq, hne⟩
        · exact .inl rfl
        · exact .inr ⟨hq, hne⟩

lemma remove_ascending (h : Ascending Param.key f.params) (pi : Pi) :
    Ascending Param.key (f.remove pi).2.params := by
  rw [remove_params]
  exact h.sublist List.eraseP_sublist

end Fpdu

/-- The parameters are in the order of their codes, and they are what stands and what was stored. -/
structure Represents (f : Fpdu) (h : Held) : Prop where
  ascending : Ascending Param.key f.params
  top : ∀ pi v, .pi pi v ∈ f.params ↔ h.top pi = some v
  groups : ∀ g items, .pgi g items ∈ f.params ↔ ∃ stored, h.groups g = some stored ∧
    items = Fpdu.sorted stored

namespace Represents

open Fpdu

variable {f : Fpdu} {h : Held}

lemma new (kind : FpduKind) : Represents (Fpdu.new kind) .empty where
  ascending := .nil
  top pi v := iff_of_false (by simp [Fpdu.new]) (by simp [Held.empty])
  groups g items := iff_of_false (by simp [Fpdu.new]) (by simp [Held.empty])

lemma set (hr : Represents f h) (pi : Pi) (value : Bytes) :
    Represents (f.set pi value) (h.put pi (some value)) where
  ascending := place_ascending hr.ascending _
  top p v := by
    rw [Fpdu.set, mem_place hr.ascending, hr.top, Held.put_top, Param.pi.injEq]
    by_cases hp : p = pi
    · subst hp
      simp [Param.code, eq_comm]
    · simp [Param.code, hp, mt Pi.code_inj hp]
  groups g items := by
    rw [Fpdu.set, mem_place hr.ascending, hr.groups]
    simp [Param.code, g.code_ne pi]

lemma setPgi (hr : Represents f h) (g : Pgi) (items : List (Pi × Bytes)) :
    Represents (f.setPgi g items) (h.store g items) where
  ascending := place_ascending hr.ascending _
  top p v := by
    rw [Fpdu.setPgi, mem_place hr.ascending, hr.top]
    simp [Param.code, (g.code_ne p).symm]
  groups g' l := by
    rw [Fpdu.setPgi, mem_place hr.ascending, hr.groups, Held.store_groups, Param.pgi.injEq]
    by_cases hg : g' = g
    · subst hg
      simp [Param.code, eq_comm]
    · simp [Param.code, hg, mt Pgi.code_inj hg]

lemma remove (hr : Represents f h) (pi : Pi) : Represents (f.remove pi).2 (h.put pi none) where
  ascending := remove_ascending hr.ascending pi
  top p v := by
    rw [remove_params, mem_eraseP hr.ascending, hr.top, Held.put_top]
    by_cases hp : p = pi
    · subst hp
      simp [Param.code]
    · simp [Param.code, hp, mt Pi.code_inj hp]
  groups g items := by
    rw [remove_params, mem_eraseP hr.ascending, hr.groups]
    simp [Param.code, g.code_ne pi]

lemma edit (hr : Represents f h) (e : Edit) : Represents (f.edit e) (h.after e) := by
  cases e with
  | set pi value => exact hr.set pi value
  | setNum pi value => exact hr.set pi _
  | setText pi value => exact hr.set pi _
  | setDiag diag => exact hr.set .diag _
  | setPgi g items => exact hr.setPgi g items
  | remove pi => exact hr.remove pi

lemma edits (hr : Represents f h) (edits : List Edit) :
    Represents (edits.foldl Fpdu.edit f) (edits.foldl Held.after h) := by
  induction edits generalizing f h with
  | nil => exact hr
  | cons e edits ih => exact ih (hr.edit e)

end Represents

section Reading

open Fpdu

variable {f : Fpdu} {h : Held} {pi : Pi} {g : Pgi} {v w : Bytes}

-- The sort is stable, so that it is the first one of the items as they were given that is found.
lemma find?_orderedInsert (pi : Pi) (i : Pi × Bytes) (items : List (Pi × Bytes)) :
    (items.orderedInsert (fun a b => a.1.code ≤ b.1.code) i).find? (fun j => j.1 == pi) =
      (i :: items).find? fun j => j.1 == pi := by
  induction items with
  | nil => rfl
  | cons j items ih =>
    rw [List.orderedInsert]
    split
    · rfl
    · rename_i hlt
      by_cases hj : j.1 = pi
      · have hi : i.1 ≠ pi := fun hi => hlt (by rw [hi, hj]; exact UInt8.le_refl _)
        rw [List.find?_cons_of_pos (by simpa using hj), List.find?_cons_of_neg (by simpa using hi),
          List.find?_cons_of_pos (by simpa using hj)]
      · rw [List.find?_cons_of_neg (by simpa using hj), ih, List.find?_cons, List.find?_cons]
        rw [List.find?_cons_of_neg (by simpa using hj)]

lemma find?_sorted (pi : Pi) (items : List (Pi × Bytes)) :
    (sorted items).find? (fun j => j.1 == pi) = items.find? fun j => j.1 == pi := by
  induction items with
  | nil => rfl
  | cons i items ih =>
    rw [sorted, List.insertionSort_cons, find?_orderedInsert, List.find?_cons, List.find?_cons]
    rw [sorted] at ih
    rw [ih]

lemma Held.inside_of_store {items : List (Pi × Bytes)} (hg : h.groups g = some items) :
    h.inside pi g = valueFor pi (.pgi g (sorted items)) := by
  rw [Held.inside, hg, valueFor, find?_sorted]
  rfl

lemma Held.inside_eq_some :
    h.inside pi g = some v → ∃ items, h.groups g = some items ∧ (pi, v) ∈ items := by
  intro hv
  obtain ⟨items, hitems, hv⟩ := Option.bind_eq_some_iff.mp hv
  obtain ⟨⟨q, b⟩, hfind, rfl⟩ := Option.map_eq_some_iff.mp hv
  obtain rfl : q = pi := by simpa using List.find?_some hfind
  exact ⟨items, hitems, List.mem_of_find?_eq_some hfind⟩

namespace Represents

variable (hr : Represents f h)

include hr

lemma value_group {items : List (Pi × Bytes)} (hp : .pgi g items ∈ f.params) :
    valueFor pi (.pgi g items) = h.inside pi g := by
  obtain ⟨stored, hstored, rfl⟩ := (hr.groups g items).mp hp
  exact (Held.inside_of_store hstored).symm

lemma inside_none (hnone : ∀ p ∈ f.params, p.code = g.code → valueFor pi p = none) :
    h.inside pi g = none := by
  cases hg : h.groups g with
  | none => rw [Held.inside, hg, Option.bind_none]
  | some items =>
    rw [Held.inside_of_store hg]
    exact hnone _ ((hr.groups g _).mpr ⟨items, hg, rfl⟩) rfl

lemma get_eq_some : f.get pi = some v ↔
    ∃ p ∈ f.params, valueFor pi p = some v ∧ ∀ q ∈ f.params, q.code < p.code → valueFor pi q = none := by
  rw [get_eq, findSome?_ascending hr.ascending]
  exact Iff.rfl

lemma get_ahead (hg : h.Ahead pi g w) : f.get pi = some w := by
  obtain ⟨hlt, hw, hfirst⟩ := hg
  obtain ⟨items, hitems, -⟩ := Held.inside_eq_some hw
  refine hr.get_eq_some.mpr ⟨_, (hr.groups g _).mpr ⟨items, hitems, rfl⟩, ?_, ?_⟩
  · rw [← Held.inside_of_store hitems, hw]
  · intro q hq hcode
    cases q with
    | pi p b =>
      rw [valueFor, if_neg]
      rintro rfl
      exact UInt8.lt_asymm hlt hcode
    | pgi g' l => exact (hr.value_group hq).trans (hfirst g' hcode)

lemma get_top (htop : h.top pi = some v) : ∃ u, f.get pi = some u ∧ (u = v ∨ ∃ g, h.Ahead pi g u) := by
  have hmem := (hr.top pi v).mpr htop
  have hself : valueFor pi (.pi pi v) = some v := if_pos rfl
  obtain ⟨u, hu⟩ : ∃ u, f.get pi = some u := by
    rw [get_eq, ← Option.isSome_iff_exists, List.findSome?_isSome_iff]
    exact ⟨_, hmem, by rw [hself]; rfl⟩
  refine ⟨u, hu, ?_⟩
  obtain ⟨p, hp, hvalue, hfirst⟩ := hr.get_eq_some.mp hu
  cases p with
  | pi q b =>
    rw [valueFor] at hvalue
    split at hvalue
    · rename_i heq
      subst heq
      have hb := (hr.top q b).mp hp
      rw [htop, hvalue] at hb
      exact .inl (Option.some.inj hb).symm
    · cases hvalue
  | pgi g items =>
    refine .inr ⟨g, ?_, by rw [← hr.value_group hp, hvalue], ?_⟩
    · by_contra hle
      have hlt := UInt8.lt_of_le_of_ne (UInt8.not_lt.mp hle) (g.code_ne pi).symm
      rw [hfirst _ hmem hlt] at hself
      cases hself
    · intro g' hg'
      exact hr.inside_none fun q hq hcode => hfirst q hq (by rw [hcode]; exact hg')

lemma get_grouped (htop : h.top pi = none) : h.Documented pi (f.get pi) := by
  rw [Held.Documented, htop]
  cases hget : f.get pi with
  | none =>
    refine .inr ⟨?_, rfl⟩
    intro g items v hitems hv
    rw [get_eq, List.findSome?_eq_none_iff] at hget
    have hnone := hget _ ((hr.groups g _).mpr ⟨items, hitems, rfl⟩)
    rw [valueFor, find?_sorted, Option.map_eq_none_iff, List.find?_eq_none] at hnone
    exact hnone _ hv (by simp)
  | some u =>
    obtain ⟨p, hp, hvalue, -⟩ := hr.get_eq_some.mp hget
    cases p with
    | pi q b =>
      rw [valueFor] at hvalue
      split at hvalue
      · rename_i heq
        subst heq
        rw [(hr.top q b).mp hp] at htop
        cases htop
      · cases hvalue
    | pgi g items =>
      rw [hr.value_group hp] at hvalue
      obtain ⟨stored, hstored, hmem⟩ := Held.inside_eq_some hvalue
      exact .inl ⟨g, stored, u, hstored, hmem, rfl⟩

lemma documented_iff : h.Documented pi (f.get pi) ↔ h.Unshadowed pi := by
  cases htop : h.top pi with
  | none =>
    refine iff_of_true (hr.get_grouped htop) ?_
    intro v g w hv
    rw [htop] at hv
    cases hv
  | some v =>
    obtain ⟨u, hu, hcases⟩ := hr.get_top htop
    rw [Held.Documented, htop, hu]
    constructor
    · rintro heq v' g w hv' hg
      rw [htop] at hv'
      rw [hr.get_ahead hg] at hu
      exact Option.some.inj (hu.trans (heq.trans hv'))
    · intro hsame
      rcases hcases with rfl | ⟨g, hg⟩
      · rfl
      · exact congrArg some (hsame v g u htop hg)

end Represents

end Reading

/-- What is read of a parameter is what is documented exactly if no group with a smaller code holds
another value of it. -/
theorem edited_get_iff (kind : FpduKind) (edits : List Edit) (pi : Pi) :
    ((Fpdu.edited kind edits).params.map Param.code).Pairwise (· < ·) ∧
        (Held.written edits).Documented pi ((Fpdu.edited kind edits).get pi) ↔
      (Held.written edits).Unshadowed pi := by
  have hr : Represents (Fpdu.edited kind edits) (Held.written edits) := (Represents.new kind).edits edits
  rw [and_iff_right (Fpdu.ascending_iff.mp hr.ascending)]
  exact hr.documented_iff

theorem edited_get_shadowed : ¬ ∀ kind edits pi,
    ((Fpdu.edited kind edits).params.map Param.code).Pairwise (· < ·) ∧
      (Held.written edits).Documented pi ((Fpdu.edited kind edits).get pi) := by
  intro h
  have hget := (h .create [.set .fileName [0x41], .setPgi .fileId [(.fileName, [0x42])]] .fileName).2
  exact absurd (show Fpdu.get _ _ = some [0x41] from hget) (by decide)

end PesitWizard.Core
