import Mathlib.Tactic.Common
import Mathlib.Data.List.Induction

/-! Things that are opened, used and closed, one at a time, as a history of events shows them. -/

namespace PesitWizard.Library

structure Lifecycle (E H : Type) where
  opens : E → Option H
  uses : E → Option H
  closes : E → Bool

namespace Lifecycle

variable {E H : Type} (m : Lifecycle E H)

def next (c : Option H) (e : E) : Option H :=
  match m.opens e with
  | some x => some x
  | none => if m.closes e then none else c

def current (t : List E) : Option H := t.foldl m.next none

def Admits (t : List E) (e : E) : Prop :=
  (m.opens e ≠ none → m.current t = none) ∧ ∀ x, m.uses e = some x → m.current t = some x

def InOrder (t : List E) : Prop := ∀ u e v, t = u ++ e :: v → m.Admits u e

/-- Whatever is opened is closed once, and not used after that unless it is opened again. -/
def Settled (t : List E) : Prop :=
  ∀ u e v x, t = u ++ e :: v → m.opens e = some x →
    ∃ v₁ d v₂, v = v₁ ++ d :: v₂ ∧ m.uses d = some x ∧ m.closes d = true ∧
      (∀ c ∈ v₁, m.opens c = none ∧ m.closes c = false) ∧
      ∀ w₁ c w₂, v₂ = w₁ ++ c :: w₂ → m.uses c = some x → ∃ b ∈ w₁, m.opens b = some x

structure Lawful : Prop where
  used : ∀ e, m.closes e = true → ∃ x, m.uses e = some x
  apart : ∀ e, m.closes e = true → m.opens e = none

@[simp] lemma current_nil : m.current [] = none := rfl

@[simp] lemma current_concat (t : List E) (e : E) : m.current (t ++ [e]) = m.next (m.current t) e := by
  rw [current, List.foldl_append]
  rfl

variable {m}

lemma next_opens {c : Option H} {e : E} {x : H} (h : m.opens e = some x) : m.next c e = some x := by
  rw [next, h]

lemma next_idle {c : Option H} {e : E} (ho : m.opens e = none) (hc : m.closes e = false) :
    m.next c e = c := by
  rw [next, ho, hc]
  rfl

lemma next_closes {c : Option H} {e : E} (ho : m.opens e = none) (hc : m.closes e = true) :
    m.next c e = none := by
  rw [next, ho, hc]
  rfl

lemma opened {t : List E} {x : H} (h : m.current t = some x) :
    ∃ u e v, t = u ++ e :: v ∧ m.opens e = some x ∧ ∀ c ∈ v, m.opens c = none ∧ m.closes c = false := by
  induction t using List.reverseRecOn with
  | nil => cases h
  | append_singleton t e ih =>
    rw [current_concat] at h
    cases ho : m.opens e with
    | some y =>
      rw [next_opens ho] at h
      obtain rfl := Option.some.inj h
      exact ⟨t, e, [], rfl, ho, by simp⟩
    | none =>
      cases hc : m.closes e with
      | true =>
        rw [next_closes ho hc] at h
        cases h
      | false =>
        rw [next_idle ho hc] at h
        obtain ⟨u, d, v, rfl, hd, hv⟩ := ih h
        refine ⟨u, d, v ++ [e], by simp, hd, ?_⟩
        intro c hmem
        rcases List.mem_append.mp hmem with hmem | hmem
        · exact hv c hmem
        · obtain rfl := List.mem_singleton.mp hmem
          exact ⟨ho, hc⟩

lemma InOrder.init {t v : List E} (h : m.InOrder (t ++ v)) : m.InOrder t := by
  intro u e w hw
  exact h u e (w ++ v) (by rw [hw]; simp)

lemma closed (hm : m.Lawful) {t v : List E} (h : m.InOrder (t ++ v)) {x : H} (ht : m.current t = some x)
    (hv : m.current (t ++ v) = none) :
    ∃ v₁ d v₂, v = v₁ ++ d :: v₂ ∧ m.uses d = some x ∧ m.closes d = true ∧
      ∀ c ∈ v₁, m.opens c = none ∧ m.closes c = false := by
  induction v generalizing t with
  | nil =>
    rw [List.append_nil, ht] at hv
    cases hv
  | cons e v ih =>
    have hadmits := h t e v rfl
    have ho : m.opens e = none := by
      by_contra ho
      rw [hadmits.1 ho] at ht
      cases ht
    cases hc : m.closes e with
    | true =>
      obtain ⟨y, hy⟩ := hm.used e hc
      have hopen := hadmits.2 y hy
      rw [ht] at hopen
      obtain rfl := Option.some.inj hopen
      exact ⟨[], e, v, rfl, hy, hc, by simp⟩
    | false =>
      have ht' : m.current (t ++ [e]) = some x := by rw [current_concat, next_idle ho hc, ht]
      have happend : t ++ e :: v = t ++ [e] ++ v := by simp
      rw [happend] at h hv
      obtain ⟨v₁, d, v₂, rfl, hd, hclosed, hv₁⟩ := ih h ht' hv
      refine ⟨e :: v₁, d, v₂, rfl, hd, hclosed, ?_⟩
      intro c hmem
      rcases List.mem_cons.mp hmem with rfl | hmem
      · exact ⟨ho, hc⟩
      · exact hv₁ c hmem

lemma reopened {t w : List E} {x : H} (ht : m.current t = none) (hw : m.current (t ++ w) = some x) :
    ∃ b ∈ w, m.opens b = some x := by
  induction w using List.reverseRecOn with
  | nil =>
    rw [List.append_nil, ht] at hw
    cases hw
  | append_singleton w e ih =>
    rw [← List.append_assoc, current_concat] at hw
    cases ho : m.opens e with
    | some y =>
      rw [next_opens ho] at hw
      obtain rfl := Option.some.inj hw
      exact ⟨e, by simp, ho⟩
    | none =>
      cases hc : m.closes e with
      | true =>
        rw [next_closes ho hc] at hw
        cases hw
      | false =>
        rw [next_idle ho hc] at hw
        obtain ⟨b, hb, hopens⟩ := ih hw
        exact ⟨b, List.mem_append_left _ hb, hopens⟩

theorem InOrder.settled_iff (hm : m.Lawful) {t : List E} (h : m.InOrder t) :
    m.Settled t ↔ m.current t = none := by
  constructor
  · intro hs
    cases hcur : m.current t with
    | none => rfl
    | some x =>
      obtain ⟨u, e, v, rfl, he, hv⟩ := opened hcur
      obtain ⟨v₁, d, v₂, rfl, -, hd, -⟩ := hs u e v x rfl he
      have := (hv d (by simp)).2
      rw [hd] at this
      cases this
  · intro hcur u e v x ht he
    subst ht
    have hopen : m.current (u ++ [e]) = some x := by rw [current_concat, next_opens he]
    have happend : u ++ e :: v = u ++ [e] ++ v := by simp
    rw [happend] at h hcur
    obtain ⟨v₁, d, v₂, rfl, hd, hclosed, hv₁⟩ := closed hm h hopen hcur
    refine ⟨v₁, d, v₂, rfl, hd, hclosed, hv₁, ?_⟩
    rintro w₁ c w₂ rfl hc
    have hidle : m.current (u ++ [e] ++ v₁ ++ [d]) = none := by
      rw [current_concat, next_closes (hm.apart d hclosed) hclosed]
    have hused := (h (u ++ [e] ++ v₁ ++ [d] ++ w₁) c w₂ (by simp)).2 x hc
    exact reopened hidle hused

lemma InOrder.between (hm : m.Lawful) {u v w : List E} {e e' : E}
    (h : m.InOrder (u ++ e :: v ++ e' :: w)) {x : H} (he : m.opens e = some x)
    (he' : m.opens e' ≠ none) : ∃ d ∈ v, m.uses d = some x ∧ m.closes d = true := by
  have hopen : m.current (u ++ [e]) = some x := by rw [current_concat, next_opens he]
  have hidle := (h (u ++ e :: v) e' w rfl).1 he'
  have happend : u ++ e :: v = u ++ [e] ++ v := by simp
  rw [happend] at hidle
  have hinit : m.InOrder (u ++ [e] ++ v) := by
    rw [← happend]
    exact h.init
  obtain ⟨v₁, d, v₂, rfl, hd, hclosed, -⟩ := closed hm hinit hopen hidle
  exact ⟨d, by simp, hd, hclosed⟩

end Lifecycle

end PesitWizard.Library
