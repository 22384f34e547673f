import Mathlib.Tactic.Common
import Mathlib.Data.List.Basic

/-! Code that performs effects on the world around it and may fail on the way: the effects up to the
failure are performed. -/

namespace PesitWizard.Library

structure Act (ω ε α : Type) where
  effects : List ω
  result : Except ε α

namespace Act

variable {ω ε α β γ : Type}

def bind (x : Act ω ε α) (f : α → Act ω ε β) : Act ω ε β :=
  match x.result with
  | .ok a => ⟨x.effects ++ (f a).effects, (f a).result⟩
  | .error e => ⟨x.effects, .error e⟩

instance : Monad (Act ω ε) where
  pure a := ⟨[], .ok a⟩
  bind := Act.bind

def emit (w : ω) : Act ω ε Unit := ⟨[w], .ok ()⟩

def lift (r : Except ε α) : Act ω ε α := ⟨[], r⟩

@[simp] lemma pure_bind (a : α) (f : α → Act ω ε β) : (pure a >>= f) = f a := rfl

@[simp] lemma lift_ok_bind (a : α) (f : α → Act ω ε β) : (lift (.ok a) >>= f) = f a := rfl

@[simp] lemma lift_error_bind (e : ε) (f : α → Act ω ε β) : (lift (.error e) >>= f) = ⟨[], .error e⟩ :=
  rfl

lemma ok_bind (ws : List ω) (a : α) (f : α → Act ω ε β) :
    ((⟨ws, .ok a⟩ : Act ω ε α) >>= f) = ⟨ws ++ (f a).effects, (f a).result⟩ := rfl

lemma error_bind (ws : List ω) (e : ε) (f : α → Act ω ε β) :
    ((⟨ws, .error e⟩ : Act ω ε α) >>= f) = ⟨ws, .error e⟩ := rfl

lemma bind_assoc (x : Act ω ε α) (f : α → Act ω ε β) (g : β → Act ω ε γ) :
    (x >>= f >>= g) = (x >>= fun a => f a >>= g) := by
  obtain ⟨ws, r⟩ := x
  cases r with
  | error e => rfl
  | ok a =>
    rw [ok_bind, ok_bind]
    cases hf : f a with
    | mk us r =>
      cases r with
      | error e => rfl
      | ok b => simp only [ok_bind, List.append_assoc]

def Returns (x : Act ω ε α) (ws : List ω) (a : α) : Prop := x = ⟨ws, .ok a⟩

lemma returns_pure (a : α) : (pure a : Act ω ε α).Returns [] a := rfl

lemma Returns.bind {x : Act ω ε α} {f : α → Act ω ε β} {ws vs : List ω} {a : α} {b : β}
    (hx : x.Returns ws a) (hf : (f a).Returns vs b) : (x >>= f).Returns (ws ++ vs) b := by
  subst hx
  show Act.bind _ _ = _
  simp only [Act.bind]
  rw [hf]

/-- What holds of the effects of an act if it fails, and of its effects and its value if it returns. -/
def Meets (x : Act ω ε α) (E : List ω → Prop) (Q : List ω → α → Prop) : Prop :=
  match x.result with
  | .ok a => Q x.effects a
  | .error _ => E x.effects

section Meets

variable {x : Act ω ε α} {E : List ω → Prop} {Q Q' : List ω → α → Prop} {R : List ω → β → Prop}

lemma meets_lift {r : Except ε α} (herr : E []) (h : ∀ a, r = .ok a → Q [] a) :
    (lift r : Act ω ε α).Meets E Q := by
  cases r with
  | error e => exact herr
  | ok a => exact h a rfl

lemma Meets.bind {f : α → Act ω ε β} (hx : x.Meets E Q)
    (hf : ∀ ws a, Q ws a → (f a).Meets (fun vs => E (ws ++ vs)) (fun vs b => R (ws ++ vs) b)) :
    (x >>= f).Meets E R := by
  obtain ⟨ws, r⟩ := x
  cases r with
  | error e => exact hx
  | ok a =>
    have ha := hf ws a hx
    rw [ok_bind]
    exact ha

lemma Meets.mono (h : x.Meets E Q) (hq : ∀ ws a, Q ws a → Q' ws a) : x.Meets E Q' := by
  obtain ⟨ws, r⟩ := x
  cases r with
  | error e => exact h
  | ok a => exact hq ws a h

lemma Meets.effects (h : x.Meets E Q) (hq : ∀ ws a, Q ws a → E ws) : E x.effects := by
  obtain ⟨ws, r⟩ := x
  cases r with
  | error e => exact h
  | ok a => exact hq ws a h

lemma Meets.ok (h : x.Meets E Q) {a : α} (ha : x.result = .ok a) : Q x.effects a := by
  rw [Meets, ha] at h
  exact h

end Meets

/-- Every effect of the act is of a class. -/
def All (P : ω → Prop) (x : Act ω ε α) : Prop := ∀ w ∈ x.effects, P w

section All

variable {P : ω → Prop} {x : Act ω ε α}

lemma all_pure (a : α) : (pure a : Act ω ε α).All P := List.forall_mem_nil P

lemma all_lift (r : Except ε α) : (lift r : Act ω ε α).All P := List.forall_mem_nil P

lemma all_emit {w : ω} (hw : P w) : (emit w : Act ω ε Unit).All P := List.forall_mem_singleton.mpr hw

lemma All.bind {f : α → Act ω ε β} (hx : x.All P) (hf : ∀ a, (f a).All P) : (x >>= f).All P := by
  obtain ⟨ws, r⟩ := x
  cases r with
  | error e => exact hx
  | ok a =>
    rw [ok_bind]
    exact List.forall_mem_append.mpr ⟨hx, hf a⟩

end All

end Act

end PesitWizard.Library
