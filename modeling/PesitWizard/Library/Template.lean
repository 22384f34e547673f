import Mathlib.Data.List.Basic
import Mathlib.Tactic.Common

/-! Texts with holes, and inputs by which two of them differ once the holes are filled. -/

namespace PesitWizard.Library

inductive Part
  | literal (c : Char)
  | hole (name : String)

def Part.text (v : String → List Char) : Part → List Char
  | .literal c => [c]
  | .hole name => v name

abbrev Template := List Part

namespace Template

variable {v w : String → List Char} {t t' : Template}

def render (v : String → List Char) (t : Template) : List Char := t.flatMap fun p => p.text v

@[simp] lemma render_nil : render v [] = [] := rfl

@[simp] lemma render_cons (p : Part) (t : Template) : render v (p :: t) = p.text v ++ render v t := rfl

lemma render_append (t t' : Template) : render v (t ++ t') = render v t ++ render v t' :=
  List.flatMap_append

lemma render_intercalate (v : String → List Char) (c : Char) (ts : List Template) :
    render v (List.intercalate [.literal c] ts) = List.intercalate [c] (ts.map (render v)) := by
  induction ts with
  | nil => rfl
  | cons t ts ih =>
    cases ts with
    | nil => simp
    | cons t' ts =>
      rw [List.intercalate_cons_cons, render_append, render_append, ih]
      simp only [List.map_cons, List.intercalate_cons_cons]
      rfl

lemma mem_intercalate {α : Type} {sep a : α} {ls : List (List α)} (h : a ∈ List.intercalate [sep] ls) :
    a = sep ∨ ∃ l ∈ ls, a ∈ l := by
  induction ls with
  | nil => cases h
  | cons l ls ih =>
    cases ls with
    | nil =>
      rw [List.intercalate_singleton] at h
      exact .inr ⟨l, List.mem_cons_self, h⟩
    | cons l' ls =>
      rw [List.intercalate_cons_cons, List.mem_append, List.mem_append, List.mem_singleton] at h
      rcases h with (h | h) | h
      · exact .inr ⟨l, List.mem_cons_self, h⟩
      · exact .inl h
      · exact (ih h).imp_right fun ⟨k, hk, ha⟩ => ⟨k, List.mem_cons_of_mem l hk, ha⟩

lemma head_intercalate {α : Type} (sep : List α) (a : α) (l : List α) (ls : List (List α)) :
    (List.intercalate sep ((a :: l) :: ls)).head? = some a := by
  cases ls with
  | nil => rw [List.intercalate_singleton, List.head?_cons]
  | cons l' ls => rw [List.intercalate_cons_cons, List.append_assoc, List.cons_append, List.head?_cons]

lemma length_render_le (h : ∀ p ∈ t, (p.text v).length ≤ (p.text w).length) :
    (render v t).length ≤ (render w t).length := by
  induction t with
  | nil => exact Nat.le_refl 0
  | cons p t ih =>
    rw [List.forall_mem_cons] at h
    rw [render_cons, render_cons, List.length_append, List.length_append]
    exact Nat.add_le_add h.1 (ih h.2)

/-- No text of a part can make up for another one if all of them are at least as long. -/
lemma text_eq_of_render (h : ∀ p ∈ t, (p.text v).length ≤ (p.text w).length)
    (heq : render v t = render w t) :
    ∀ p ∈ t, p.text v = p.text w := by
  induction t with
  | nil => simp
  | cons p t ih =>
    rw [List.forall_mem_cons] at h
    have hrest := length_render_le h.2
    have hlength := congrArg List.length heq
    rw [render_cons, render_cons] at heq
    rw [render_cons, render_cons, List.length_append, List.length_append] at hlength
    obtain ⟨hhead, htail⟩ := List.append_inj heq (by omega)
    exact List.forall_mem_cons.mpr ⟨hhead, ih h.2 htail⟩

/-- After parts of the same texts come two of which neither begins with the other, or the same parts,
where the texts of the one are nowhere longer and somewhere others. -/
inductive Differ (v w : String → List Char) : Template → Template → Prop
  | same {p q : Part} {t t' : Template} (h : p.text v = q.text w) (hrest : Differ v w t t') :
    Differ v w (p :: t) (q :: t')
  | other {p q : Part} {t t' : Template} (h : ¬ p.text v <+: q.text w) (h' : ¬ q.text w <+: p.text v) :
    Differ v w (p :: t) (q :: t')
  | longer {p : Part} {t : Template} (h : ∀ q ∈ t, (q.text v).length ≤ (q.text w).length) (hp : p ∈ t)
    (hne : p.text v ≠ p.text w) : Differ v w t t
  | shorter {p : Part} {t : Template} (h : ∀ q ∈ t, (q.text w).length ≤ (q.text v).length) (hp : p ∈ t)
    (hne : p.text v ≠ p.text w) : Differ v w t t

theorem Differ.render_ne (h : Differ v w t t') : render v t ≠ render w t' := by
  induction h with
  | same h _ ih =>
    intro heq
    rw [render_cons, render_cons, h] at heq
    exact ih (List.append_cancel_left heq)
  | @other p q t t' h h' =>
    intro heq
    rw [render_cons, render_cons] at heq
    rcases List.append_eq_append_iff.mp heq with ⟨xs, hxs, -⟩ | ⟨xs, hxs, -⟩
    · exact h ⟨xs, hxs.symm⟩
    · exact h' ⟨xs, hxs.symm⟩
  | longer h hp hne =>
    intro heq
    exact hne (text_eq_of_render h heq _ hp)
  | shorter h hp hne =>
    intro heq
    exact hne (text_eq_of_render h heq.symm _ hp).symm

end Template

end PesitWizard.Library
