import Mathlib.Tactic.Common
import Mathlib.Data.List.Basic

/-! Programs that put calls to the world around them, one after the other, and go on with what it
replies. Their loops have a number of turns; a run that uses them up is not followed further. -/

namespace PesitWizard.Library

inductive Proc (Q : Type) (A : Q → Type) (ε α : Type) : Type
  | done (r : Except ε α)
  | exhausted
  | ask (q : Q) (k : A q → Proc Q A ε α)

lemma error_ok_elim {ε α : Type} {P : α → Prop} {e : ε} :
    ∀ a, (.error e : Except ε α) = .ok a → P a := by
  intro a h
  cases h

namespace Proc

variable {Q : Type} {A : Q → Type} {ε α β ι : Type}

def bind (x : Proc Q A ε α) (f : α → Proc Q A ε β) : Proc Q A ε β :=
  match x with
  | done (.ok a) => f a
  | done (.error e) => done (.error e)
  | exhausted => exhausted
  | ask q k => ask q (fun a => (k a).bind f)

instance : Monad (Proc Q A ε) where
  pure a := done (.ok a)
  bind := bind

@[simp] lemma done_bind (a : α) (f : α → Proc Q A ε β) : ((done (.ok a) : Proc Q A ε α) >>= f) = f a :=
  rfl

def query (q : Q) : Proc Q A ε (A q) := ask q (fun a => done (.ok a))

def lift (r : Except ε α) : Proc Q A ε α := done r

def attempt : Proc Q A ε α → Proc Q A ε (Except ε α)
  | done r => done (.ok r)
  | exhausted => exhausted
  | ask q k => ask q (fun a => (k a).attempt)

def loop (turn : ι → Proc Q A ε (ι ⊕ α)) : ℕ → ι → Proc Q A ε α
  | 0, _ => exhausted
  | n + 1, s => turn s >>= fun
    | .inl s => loop turn n s
    | .inr a => done (.ok a)

abbrev Event (A : Q → Type) := Σ q, A q

inductive Runs : Proc Q A ε α → List (Event A) → Option (Except ε α) → Prop
  | cut (x : Proc Q A ε α) : Runs x [] none
  | done (r : Except ε α) : Runs (done r) [] (some r)
  | ask {q : Q} {k : A q → Proc Q A ε α} {a : A q} {t : List (Event A)} {o : Option (Except ε α)}
    (h : Runs (k a) t o) : Runs (ask q k) (⟨q, a⟩ :: t) o

def play (world : ℕ → (q : Q) → A q) : ℕ → Proc Q A ε α → List (Event A) × Option (Except ε α)
  | _, .done r => ([], some r)
  | _, .exhausted => ([], none)
  | n, .ask q k =>
    let (t, o) := play world (n + 1) (k (world n q))
    (⟨q, world n q⟩ :: t, o)

lemma play_runs (world : ℕ → (q : Q) → A q) (n : ℕ) (x : Proc Q A ε α) :
    Runs x (play world n x).1 (play world n x).2 := by
  induction x generalizing n with
  | done r => exact .done r
  | exhausted => exact .cut _
  | ask q k ih => exact .ask (ih (world n q) (n + 1))

lemma Runs.bind {x : Proc Q A ε α} {f : α → Proc Q A ε β} {a : α} {t u : List (Event A)}
    {o : Option (Except ε β)} (hx : Runs x t (some (.ok a))) (hf : Runs (f a) u o) :
    Runs (x >>= f) (t ++ u) o := by
  induction x generalizing t with
  | done r =>
    cases hx
    exact hf
  | exhausted => cases hx
  | ask q k ih =>
    cases hx with
    | ask h => exact .ask (ih _ h)

lemma Runs.turn {turn : ι → Proc Q A ε (ι ⊕ α)} {n : ℕ} {s s' : ι} {t u : List (Event A)}
    {o : Option (Except ε α)} (ht : Runs (turn s) t (some (.ok (.inl s'))))
    (hu : Runs (loop turn n s') u o) :
    Runs (loop turn (n + 1) s) (t ++ u) o :=
  ht.bind hu

lemma Runs.last {turn : ι → Proc Q A ε (ι ⊕ α)} {n : ℕ} {s : ι} {t : List (Event A)} {a : α}
    (ht : Runs (turn s) t (some (.ok (.inr a)))) : Runs (loop turn (n + 1) s) t (some (.ok a)) := by
  have hdone : Runs (loop turn (n + 1) s) (t ++ []) (some (.ok a)) := ht.bind (.done _)
  rwa [List.append_nil] at hdone

/-- After the history `h`, every event of the program is admitted after the history before it, and its
result meets the postcondition. -/
def Safe (Ok : List (Event A) → Event A → Prop) :
    Proc Q A ε α → List (Event A) → (List (Event A) → Except ε α → Prop) → Prop
  | done r, h, P => P h r
  | exhausted, _, _ => True
  | ask q k, h, P => ∀ a, Ok h ⟨q, a⟩ ∧ Safe Ok (k a) (h ++ [⟨q, a⟩]) P

section Safe

variable {Ok : List (Event A) → Event A → Prop} {x : Proc Q A ε α} {h : List (Event A)}
  {P P' : List (Event A) → Except ε α → Prop} {R : List (Event A) → Except ε β → Prop}

lemma Safe.runs (hs : Safe Ok x h P) {t : List (Event A)} {o : Option (Except ε α)} (ht : Runs x t o) :
    (∀ u e v, t = u ++ e :: v → Ok (h ++ u) e) ∧ ∀ r, o = some r → P (h ++ t) r := by
  induction ht generalizing h with
  | cut x => exact ⟨fun u e v hu => by simp at hu, fun r hr => by cases hr⟩
  | done r =>
    refine ⟨fun u e v hu => by simp at hu, ?_⟩
    rintro r' hr
    obtain rfl := Option.some.inj hr
    rw [List.append_nil]
    exact hs
  | @ask q k a t o ht ih =>
    obtain ⟨hok, hs⟩ := hs a
    obtain ⟨hsteps, hresult⟩ := ih hs
    refine ⟨?_, ?_⟩
    · intro u e v hu
      cases u with
      | nil =>
        obtain ⟨rfl, -⟩ := List.cons.inj hu
        rw [List.append_nil]
        exact hok
      | cons d u =>
        obtain ⟨rfl, ht⟩ := List.cons.inj hu
        have := hsteps u e v ht
        rwa [List.append_assoc] at this
    · intro r hr
      have := hresult r hr
      rwa [List.append_assoc] at this

lemma Safe.mono (hs : Safe Ok x h P) (hp : ∀ h' r, P h' r → P' h' r) : Safe Ok x h P' := by
  induction x generalizing h with
  | done r => exact hp h r hs
  | exhausted => exact hs
  | ask q k ih => exact fun a => ⟨(hs a).1, ih a (hs a).2⟩

lemma Safe.weaken {Ok' : List (Event A) → Event A → Prop} (hs : Safe Ok x h P)
    (hok : ∀ h' e, Ok h' e → Ok' h' e) :
    Safe Ok' x h P := by
  induction x generalizing h with
  | done r => exact hs
  | exhausted => trivial
  | ask q k ih => exact fun a => ⟨hok h _ (hs a).1, ih a (hs a).2⟩

lemma Safe.bind {f : α → Proc Q A ε β} (hs : Safe Ok x h P)
    (hok : ∀ h' a, P h' (.ok a) → Safe Ok (f a) h' R)
    (herr : ∀ h' e, P h' (.error e) → R h' (.error e)) : Safe Ok (x >>= f) h R := by
  induction x generalizing h with
  | done r =>
    cases r with
    | ok a => exact hok h a hs
    | error e => exact herr h e hs
  | exhausted => trivial
  | ask q k ih => exact fun a => ⟨(hs a).1, ih a (hs a).2⟩

lemma Safe.attempt_bind {f : Except ε α → Proc Q A ε β} (hs : Safe Ok x h P)
    (hf : ∀ h' r, P h' r → Safe Ok (f r) h' R) : Safe Ok (x.attempt >>= f) h R := by
  induction x generalizing h with
  | done r => exact hf h r hs
  | exhausted => trivial
  | ask q k ih => exact fun a => ⟨(hs a).1, ih a (hs a).2⟩

/-- What a turn has to establish: the invariant if the loop goes on, and the postcondition if it ends. -/
def TurnPost (I : List (Event A) → ι → Prop) (P : List (Event A) → Except ε α → Prop)
    (h : List (Event A)) :
    Except ε (ι ⊕ α) → Prop
  | .ok (.inl s) => I h s
  | .ok (.inr a) => P h (.ok a)
  | .error e => P h (.error e)

lemma Safe.loop {turn : ι → Proc Q A ε (ι ⊕ α)} (I : List (Event A) → ι → Prop)
    (hturn : ∀ h s, I h s → Safe Ok (turn s) h (TurnPost I P)) (n : ℕ) {s : ι} (hi : I h s) :
    Safe Ok (Proc.loop turn n s) h P := by
  induction n generalizing h s with
  | zero => trivial
  | succ n ih =>
    refine (hturn h s hi).bind ?_ ?_
    · rintro h' (s' | a) ha
      · exact ih ha
      · exact ha
    · intro h' e he
      exact he

/-- The program is safe, and what it returns meets the postcondition. -/
abbrev Yields (Ok : List (Event A) → Event A → Prop) (x : Proc Q A ε α) (h : List (Event A))
    (P : List (Event A) → α → Prop) : Prop :=
  Safe Ok x h fun h' r => ∀ a, r = .ok a → P h' a

lemma yields_pure {a : α} {P : List (Event A) → α → Prop} (hp : P h a) :
    Yields Ok (pure a : Proc Q A ε α) h P := by
  intro b hb
  obtain rfl := Except.ok.inj hb
  exact hp

lemma yields_lift {r : Except ε α} {P : List (Event A) → α → Prop} (hp : ∀ a, r = .ok a → P h a) :
    Yields Ok (lift r : Proc Q A ε α) h P := hp

lemma Yields.bind {f : α → Proc Q A ε β} {P : List (Event A) → α → Prop} {R : List (Event A) → β → Prop}
    (hx : Yields Ok x h P) (hf : ∀ h' a, P h' a → Yields Ok (f a) h' R) : Yields Ok (x >>= f) h R :=
  Safe.bind hx (fun h' a ha => hf h' a (ha a rfl)) fun _ _ _ => error_ok_elim

lemma Yields.mono {P P' : List (Event A) → α → Prop} (hx : Yields Ok x h P)
    (hp : ∀ h' a, P h' a → P' h' a) :
    Yields Ok x h P' :=
  Safe.mono hx fun h' _ hr a ha => hp h' a (hr a ha)

lemma safe_any (x : Proc Q A ε α) (h : List (Event A)) :
    Safe (fun _ _ => True) x h (fun _ _ => True) := by
  induction x generalizing h with
  | done r => trivial
  | exhausted => trivial
  | ask q k ih => exact fun a => ⟨trivial, ih a _⟩

section Guarded

variable {G : List (Event A) → Prop} (hG : ∀ h e, G (h ++ [e]) → G h)
include hG

/-- Anything is admitted under a guard that does not hold, nor will. -/
lemma safe_unguarded (x : Proc Q A ε α) (hguard : ¬ G h) :
    Safe (fun h e => G h → Ok h e) x h fun h' _ => ¬ G h' := by
  induction x generalizing h with
  | done r => exact hguard
  | exhausted => trivial
  | ask q k ih => exact fun a => ⟨fun hg => absurd hg hguard, ih a fun hg => hguard (hG h _ hg)⟩

/-- Under a guard, a program is safe if it is as long as the guard holds. -/
lemma Safe.guarded (hp : ∀ h' r, ¬ G h' → P h' r) (hs : G h → Safe (fun h e => G h → Ok h e) x h P) :
    Safe (fun h e => G h → Ok h e) x h P := by
  by_cases hguard : G h
  · exact hs hguard
  · exact (safe_unguarded hG x hguard).mono hp

end Guarded

/-- What is admitted after every history of a kind that lasts is admitted in a program
that starts with one. -/
lemma Safe.lasting (hs : Safe (fun _ _ => True) x h P) (I : List (Event A) → Prop)
    (hstep : ∀ h' e, I h' → Ok h' e ∧ I (h' ++ [e])) (hi : I h) : Safe Ok x h P := by
  induction x generalizing h with
  | done r => exact hs
  | exhausted => trivial
  | ask q k ih => exact fun a => ⟨(hstep h _ hi).1, ih a (hs a).2 (hstep h _ hi).2⟩

lemma Safe.ran (hs : Safe Ok x h P) :
    Safe Ok x h (fun h' r => P h' r ∧ ∃ t, h' = h ++ t ∧ Runs x t (some r)) := by
  induction x generalizing h with
  | done r => exact ⟨hs, [], (List.append_nil h).symm, .done r⟩
  | exhausted => trivial
  | ask q k ih =>
    refine fun a => ⟨(hs a).1, (ih a (hs a).2).mono ?_⟩
    rintro h' r ⟨hp, t, rfl, ht⟩
    exact ⟨hp, ⟨q, a⟩ :: t, List.append_assoc h [⟨q, a⟩] t, .ask ht⟩

end Safe

/-- Every call of the program is of a class. -/
def Within (C : Q → Prop) : Proc Q A ε α → Prop
  | done _ | exhausted => True
  | ask q k => C q ∧ ∀ a, Within C (k a)

section Within

variable {C : Q → Prop} {x : Proc Q A ε α}

lemma within_query {q : Q} (hq : C q) : (query q : Proc Q A ε (A q)).Within C := ⟨hq, fun _ => trivial⟩

lemma Within.bind {f : α → Proc Q A ε β} (hx : x.Within C) (hf : ∀ a, (f a).Within C) :
    (x >>= f).Within C := by
  induction x with
  | done r =>
    cases r with
    | ok a => exact hf a
    | error e => trivial
  | exhausted => trivial
  | ask q k ih => exact ⟨hx.1, fun a => ih a (hx.2 a)⟩

lemma Within.attempt (hx : x.Within C) : x.attempt.Within C := by
  induction x with
  | done r => trivial
  | exhausted => trivial
  | ask q k ih => exact ⟨hx.1, fun a => ih a (hx.2 a)⟩

lemma Within.loop {turn : ι → Proc Q A ε (ι ⊕ α)} (hturn : ∀ s, (turn s).Within C) (n : ℕ) (s : ι) :
    (Proc.loop turn n s).Within C := by
  induction n generalizing s with
  | zero => trivial
  | succ n ih =>
    refine (hturn s).bind ?_
    rintro (s' | a)
    · exact ih s'
    · trivial

lemma Within.calls (hx : x.Within C) {t : List (Event A)} {o : Option (Except ε α)} (ht : Runs x t o) :
    ∀ e ∈ t, C e.1 := by
  induction ht with
  | cut x => simp
  | done r => simp
  | ask h ih => exact List.forall_mem_cons.mpr ⟨hx.1, ih (hx.2 _)⟩

lemma Within.safe (hx : x.Within C) {Ok : List (Event A) → Event A → Prop} (I : List (Event A) → Prop)
    (hstep : ∀ h (e : Event A), I h → C e.1 → Ok h e ∧ I (h ++ [e])) {h : List (Event A)} (hi : I h) :
    Safe Ok x h (fun h' _ => I h') := by
  induction x generalizing h with
  | done r => exact hi
  | exhausted => trivial
  | ask q k ih =>
    intro a
    obtain ⟨hok, hi'⟩ := hstep h ⟨q, a⟩ hi hx.1
    exact ⟨hok, ih a (hx.2 a) hi'⟩

end Within

end Proc

end PesitWizard.Library
