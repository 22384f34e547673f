import Mathlib.Order.Nat
import PesitWizard.Library.Moves

/-! The connections that a listener accepts, and the limit on its sessions. -/

namespace PesitWizard.Node

open Library

/-- What has become of a connection that was not refused: its task counts it when it starts and no
longer when it is done. -/
inductive Task
  | spawned | running | ended | left
  deriving DecidableEq

structure AcceptContext where
  active : ℕ
  tasks : List Task

inductive AcceptEvent
  | accepted
  | starts (i : ℕ)
  | ends (i : ℕ)
  | leaves (i : ℕ)
  deriving DecidableEq

namespace AcceptContext

def initial : AcceptContext := ⟨0, []⟩

def become (c : AcceptContext) (i : ℕ) (old new : Task) (active : ℕ) : Option AcceptContext :=
  if c.tasks[i]? = some old then some ⟨active, c.tasks.set i new⟩ else none

section Loop

variable (maxConnections : ℕ)

def step (c : AcceptContext) : AcceptEvent → Option AcceptContext
  | .accepted => if maxConnections ≤ c.active then some c else
    some { c with tasks := c.tasks ++ [.spawned] }
  | .starts i => c.become i .spawned .running (c.active + 1)
  | .ends i => c.become i .running .ended c.active
  | .leaves i => c.become i .ended .left (c.active - 1)

def waiting (c : AcceptContext) : ℕ := c.tasks.count .spawned

def running (c : AcceptContext) : ℕ := c.tasks.count .running

/-- The admitted connections whose sessions have not ended. -/
def outstanding (c : AcceptContext) : ℕ := c.waiting + c.running

/-- When a connection passes the check, each task that was spawned before has started. -/
def Prompt (c : AcceptContext) (e : AcceptEvent) : Prop :=
  e = .accepted → c.active < maxConnections → c.waiting = 0

instance (c : AcceptContext) (e : AcceptEvent) : Decidable (Prompt maxConnections c e) :=
  inferInstanceAs (Decidable (_ → _ → _))

end Loop

variable {maxConnections : ℕ} {c d : AcceptContext}

lemma become_count {i : ℕ} {old new : Task} {active : ℕ} (h : c.become i old new active = some d)
    (hne : old ≠ new) :
    d.tasks.count new = c.tasks.count new + 1 ∧ d.tasks.count old + 1 = c.tasks.count old ∧
      ∀ t, t ≠ old → t ≠ new → d.tasks.count t = c.tasks.count t := by
  rw [become] at h
  split at h
  · rename_i hold
    obtain rfl := Option.some.inj h
    obtain ⟨hi, hget⟩ := List.getElem?_eq_some_iff.mp hold
    have hpos : 0 < c.tasks.count old := List.count_pos_iff.mpr (hget ▸ List.getElem_mem hi)
    refine ⟨?_, ?_, ?_⟩
    · simp [List.count_set hi, hget, hne]
    · simp [List.count_set hi, hget, hne.symm]
      omega
    · intro t hold' hnew'
      simp [List.count_set hi, hget, hold'.symm, hnew'.symm]
  · cases h

lemma step_outstanding (maxConnections : ℕ) (c : AcceptContext) (e : AcceptEvent) :
    (after (step maxConnections) c e).outstanding ≤ c.outstanding ∨
      e = .accepted ∧ c.active < maxConnections ∧ (after (step maxConnections) c e).outstanding =
      c.outstanding + 1 := by
  have hbecome {i : ℕ} {old new : Task} {active : ℕ} (hne : old ≠ new)
      (hle : ∀ d, c.become i old new active = some d → d.outstanding ≤ c.outstanding) :
      ((c.become i old new active).getD c).outstanding ≤ c.outstanding := by
    cases h : c.become i old new active with
    | none => exact le_rfl
    | some d => exact hle d h
  cases e with
  | accepted =>
    rw [after, step]
    split
    · exact .inl le_rfl
    · rename_i hlt
      refine .inr ⟨rfl, not_le.mp hlt, ?_⟩
      simp [outstanding, waiting, running]
      omega
  | starts i =>
    refine .inl (hbecome (by decide) fun d hd => ?_)
    obtain ⟨hrunning, hspawned, -⟩ := become_count hd (by decide)
    simp only [outstanding, waiting, running]
    omega
  | ends i =>
    refine .inl (hbecome (by decide) fun d hd => ?_)
    obtain ⟨-, hrunning, hothers⟩ := become_count hd (by decide)
    have hspawned := hothers .spawned (by decide) (by decide)
    simp only [outstanding, waiting, running]
    omega
  | leaves i =>
    refine .inl (hbecome (by decide) fun d hd => ?_)
    obtain ⟨-, -, hothers⟩ := become_count hd (by decide)
    have hspawned := hothers .spawned (by decide) (by decide)
    have hrunning := hothers .running (by decide) (by decide)
    simp only [outstanding, waiting, running]
    omega

/-- The counter tells the tasks that have started and are not done. -/
def Counted (c : AcceptContext) : Prop := c.active = c.running + c.tasks.count .ended

lemma counted_step (e : AcceptEvent) (h : Counted c) : Counted (after (step maxConnections) c e) := by
  have hbecome {i : ℕ} {old new : Task} {active : ℕ}
      (hkeep : ∀ d, c.become i old new active = some d → Counted d) :
      Counted ((c.become i old new active).getD c) := by
    cases hd : c.become i old new active with
    | none => exact h
    | some d => exact hkeep d hd
  have hactive {i : ℕ} {old new : Task} {active : ℕ} {d : AcceptContext}
      (hd : c.become i old new active = some d) :
      d.active = active := by
    rw [become] at hd
    split at hd
    · exact (Option.some.inj hd).symm ▸ rfl
    · cases hd
  rw [Counted, running] at h
  cases e with
  | accepted =>
    rw [after, step]
    split
    · exact h
    · simpa [Counted, running] using h
  | starts i =>
    refine hbecome fun d hd => ?_
    obtain ⟨hrunning, -, hothers⟩ := become_count hd (by decide)
    rw [Counted, running, hactive hd, hrunning, hothers .ended (by decide) (by decide)]
    omega
  | ends i =>
    refine hbecome fun d hd => ?_
    obtain ⟨hended, hrunning, -⟩ := become_count hd (by decide)
    rw [Counted, running, hactive hd, hended]
    omega
  | leaves i =>
    refine hbecome fun d hd => ?_
    obtain ⟨-, hended, hothers⟩ := become_count hd (by decide)
    rw [Counted, running, hactive hd, hothers .running (by decide) (by decide)]
    omega

lemma step_within {e : AcceptEvent} (hcounted : Counted c) (h : c.outstanding ≤ maxConnections)
    (hprompt : Prompt maxConnections c e) :
    (after (step maxConnections) c e).outstanding ≤ maxConnections := by
  rcases step_outstanding maxConnections c e with hle | ⟨rfl, hactive, hmore⟩
  · exact hle.trans h
  · -- the counter is below the limit, and it counts every session that runs
    have hwaiting := hprompt rfl hactive
    rw [Counted] at hcounted
    rw [hmore, outstanding, hwaiting]
    omega

/-- The limit holds all along if no task waits for its start when the loop lets another
connection through. -/
theorem limit_kept (maxConnections : ℕ) {events : List AcceptEvent}
    (h : Each (after (step maxConnections)) (Prompt maxConnections) initial events) :
    ∀ es, es <+: events → (es.foldl (after (step maxConnections)) initial).outstanding ≤
    maxConnections := by
  rintro es ⟨rest, rfl⟩
  have hmoves := moves_foldl_of_each (each_append.mp h).1
  refine (hmoves.invariant (I := fun c => Counted c ∧ c.outstanding ≤ maxConnections) ?_
    ⟨rfl, Nat.zero_le _⟩).2
  intro c e d hc hprompt hd
  have hafter : after (step maxConnections) c e = d := by
    rw [after, hd, Option.getD_some]
  rw [← hafter]
  exact ⟨counted_step e hc.1, step_within hc.1 hc.2 hprompt⟩

def promptEvents : List AcceptEvent :=
  [.accepted, .starts 0, .accepted, .starts 1, .accepted, .ends 0, .leaves 0, .accepted]

/-- The third connection is refused, and the fourth takes the place of a session that has ended. -/
theorem limit_kept_prompt :
    Each (after (step 2)) (Prompt 2) initial promptEvents ∧
    (promptEvents.foldl (after (step 2)) initial).outstanding ≤ 2 := by
  have hprompt : Each (after (step 2)) (Prompt 2) initial promptEvents := by
    refine ⟨?_, ?_, ?_, ?_, ?_, ?_, ?_, ?_, trivial⟩ <;> decide
  exact ⟨hprompt, limit_kept 2 hprompt _ (List.prefix_refl _)⟩

theorem limit_exceeded : ¬ ∀ maxConnections events, ∀ es, es <+: events →
    (es.foldl (after (step maxConnections)) initial).outstanding ≤ maxConnections := by
  intro h
  exact absurd (h 1 [.accepted, .accepted] _ (List.prefix_refl _)) (by decide)

end AcceptContext

end PesitWizard.Node
