import PesitWizard.Library.Ensures
import PesitWizard.Node.Scheduler

/-! When the next time of a schedule is later than the time from which it is reckoned. -/

namespace PesitWizard.Node.Schedule

open App Fleet Library

variable (cron : Cron)

/-- The next time that the expression of a schedule names. -/
def occurrence (s : ScheduledTransfer) (fromMs : ℤ) : Option ℤ :=
  (nonBlank s.cron).bind fun expr =>
    match cron.parseCron expr with
    | .error _ => none
    | .ok next => next fromMs

/-- The interval as the signed number that it is multiplied as. -/
def castInterval (s : ScheduledTransfer) : ℤ := ((max s.intervalSeconds 1 : ℕ) : ℤ).bmod (2 ^ 64)

def InRange (z : ℤ) : Prop := -2 ^ 63 ≤ z ∧ z < 2 ^ 63

structure Advances (s : ScheduledTransfer) (fromMs : ℤ) : Prop where
  later : fromMs < nextRunAfter cron s fromMs
  product : occurrence cron s fromMs = none → InRange (castInterval s * 1000)
  sum : occurrence cron s fromMs = none → InRange (fromMs + castInterval s * 1000)

/-- A schedule as a request to create or to change one leaves it, with an interval that the body of a
request can hold. -/
inductive Accepted (s : ScheduledTransfer) : Prop
  | create {nodeId now : String} {nowMs : ℤ} {id : String} {store : JsonStore}
    {body : ScheduledTransfer} {w : Written}
      (hbody : body.intervalSeconds < 2 ^ 64)
      (h : Schedule.create cron nodeId now nowMs id store body = .ok w)
      (hrow : rowOf w.store id = some s)
  | update {nodeId now : String} {nowMs : ℤ} {id : String} {store : JsonStore}
    {body : ScheduledTransfer} {w : Written}
      (hbody : body.intervalSeconds < 2 ^ 64)
      (h : Schedule.update cron nodeId now nowMs store id body = .ok w)
      (hrow : rowOf w.store id = some s)

variable {cron} {s : ScheduledTransfer} {fromMs : ℤ}

lemma nextRunAfter_occurrence :
    nextRunAfter cron s fromMs = (occurrence cron s fromMs).getD (intervalAfter s fromMs) := by
  rw [nextRunAfter, occurrence]
  cases nonBlank s.cron with
  | none => rfl
  | some expr =>
    dsimp only [Option.bind_some]
    cases cron.parseCron expr with
    | error e => rfl
    | ok next => rfl

lemma occurrence_gt (hcron : cron.Lawful) {t : ℤ} (h : occurrence cron s fromMs = some t) :
    fromMs < t := by
  obtain ⟨expr, -, hexpr⟩ := Option.bind_eq_some_iff.mp h
  cases hparse : cron.parseCron expr with
  | error e =>
    rw [hparse] at hexpr
    cases hexpr
  | ok next =>
    rw [hparse] at hexpr
    exact hcron _ next fromMs t hparse hexpr

lemma bmod_of_large {n : ℕ} (hlow : 2 ^ 63 ≤ n) (hhigh : n < 2 ^ 64) :
    (n : ℤ).bmod (2 ^ 64) = n - 2 ^ 64 := by
  rw [Int.bmod_def, Int.emod_eq_of_lt (by omega) (by omega), if_neg (by omega)]
  rfl

/-- The cast loses nothing when the interval is below 2 ^ 63, and makes it negative from there on. -/
lemma castInterval_cases (h : s.intervalSeconds < 2 ^ 64) :
    castInterval s = (max s.intervalSeconds 1 : ℕ) ∧ max s.intervalSeconds 1 < 2 ^ 63 ∨
      castInterval s < 0 ∧ 2 ^ 63 ≤ max s.intervalSeconds 1 := by
  have hmax : max s.intervalSeconds 1 < 2 ^ 64 := by omega
  unfold castInterval
  generalize max s.intervalSeconds 1 = n at hmax
  by_cases hsmall : n < 2 ^ 63
  · rw [Int.bmod_eq_of_le (by omega) (by omega)]
    exact .inl ⟨rfl, hsmall⟩
  · rw [bmod_of_large (by omega) hmax]
    omega

lemma intervalAfter_cast : intervalAfter s fromMs = (fromMs + castInterval s * 1000).bmod (2 ^ 64) := by
  unfold intervalAfter castInterval
  generalize 2 ^ 64 = m
  rw [← Int.add_bmod_bmod, ← Int.bmod_mul_bmod, Int.add_bmod_bmod]

lemma advances_interval_iff (hrange : s.intervalSeconds < 2 ^ 64)
    (hnone : occurrence cron s fromMs = none) (hfrom : 0 ≤ fromMs) :
    Advances cron s fromMs ↔ fromMs + (max s.intervalSeconds 1 : ℕ) * 1000 < 2 ^ 63 := by
  have hnext : nextRunAfter cron s fromMs = intervalAfter s fromMs := by
    rw [nextRunAfter_occurrence, hnone, Option.getD_none]
  constructor
  · intro h
    have hlater := h.later
    obtain ⟨hlow, hhigh⟩ := h.sum hnone
    rw [hnext, intervalAfter_cast, Int.bmod_eq_of_le (by omega) (by omega)] at hlater
    obtain ⟨hcast, -⟩ | ⟨hcast, -⟩ := castInterval_cases hrange
    · rwa [← hcast]
    · omega
  · intro hroom
    obtain ⟨hcast, -⟩ | ⟨-, hlarge⟩ := castInterval_cases hrange
    · refine ⟨?_, fun _ => ?_, fun _ => ?_⟩
      · rw [hnext]
        exact intervalAfter_gt (by omega) hroom
      · rw [hcast, InRange]
        omega
      · rw [hcast, InRange]
        omega
    · omega

lemma rowOf_put_self (u : JsonStore) (x : ScheduledTransfer) (id : String) :
    rowOf (u.put "schedules" id (toValue x)) id = some x := by
  rw [rowOf, JsonStore.put_tables, if_pos rfl, Table.find_put, if_pos rfl]
  exact Document.ofValue_toValue x

def Keeps (id : String) (body : ScheduledTransfer) (w : Written) : Prop :=
  ∀ s, rowOf w.store id = some s → s.intervalSeconds = body.intervalSeconds

lemma keeps_put {u : JsonStore} {id : String} {body y : ScheduledTransfer}
    (hy : y.intervalSeconds = body.intervalSeconds) (c : Option ConfigChange) :
    Keeps id body ⟨u.put "schedules" id (toValue y), c⟩ := by
  intro s hs
  rw [rowOf_put_self] at hs
  rw [← Option.some.inj hs, hy]

variable (nodeId now : String) (nowMs : ℤ)

lemma create_keeps (id : String) (u : JsonStore) (body : ScheduledTransfer) :
    Ensures (Schedule.create cron nodeId now nowMs id u body) (Keeps id body) := by
  rw [Schedule.create]
  exact .ite (fun _ => .error _) fun _ => .bind fun _ _ => .ite (fun _ => .error _) fun _ =>
    .ok (keeps_put rfl _)

lemma update_keeps (id : String) (u : JsonStore) (body : ScheduledTransfer) :
    Ensures (Schedule.update cron nodeId now nowMs u id body) (Keeps id body) := by
  rw [Schedule.update]
  refine .bind fun old _ => ?_
  cases old with
  | none => exact .error _
  | some old =>
    refine .bind fun _ _ => .ok (keeps_put ?_ _)
    split <;> rfl

lemma Accepted.range (h : Accepted cron s) : s.intervalSeconds < 2 ^ 64 := by
  cases h with
  | create hbody h hrow =>
    rw [create_keeps _ _ _ _ _ _ _ h s hrow]
    exact hbody
  | update hbody h hrow =>
    rw [update_keeps _ _ _ _ _ _ _ h s hrow]
    exact hbody

def ClockTime (fromMs : ℤ) : Prop := 0 ≤ fromMs ∧ fromMs < 253370764800000

/-- A schedule advances by its expression, or else by an interval of which the end is still
a time of 64 bits. -/
theorem advances_iff (hcron : cron.Lawful) (hs : Accepted cron s) (hfrom : ClockTime fromMs) :
    Advances cron s fromMs ↔
      (occurrence cron s fromMs).isSome ∨ fromMs + (max s.intervalSeconds 1 : ℕ) * 1000 < 2 ^ 63 := by
  cases ht : occurrence cron s fromMs with
  | none => simp [advances_interval_iff hs.range ht hfrom.1]
  | some t =>
    refine iff_of_true ⟨?_, ?_, ?_⟩ (.inl rfl)
    · rw [nextRunAfter_occurrence, ht]
      exact occurrence_gt hcron ht
    · intro hnone
      rw [ht] at hnone
      cases hnone
    · intro hnone
      rw [ht] at hnone
      cases hnone

def everySeconds (n : ℕ) : ScheduledTransfer :=
  ⟨"", "job", true, "send", [], n, none, none, none, 0, none, none⟩

def storedEvery (cron : Cron) (n : ℕ) : ScheduledTransfer :=
  let s := { everySeconds n with id := "1", createdAt := some "t", updatedAt := some "t" }
  { s with nextRunMs := nextRunAfter cron s 0 }

lemma accepted_storedEvery (cron : Cron) {n : ℕ} (hpos : n ≠ 0) (hn : n < 2 ^ 64) :
    Accepted cron (storedEvery cron n) := by
  have hblank : isBlank (everySeconds n).name = false := by
    show isBlank "job" = false
    decide
  have hcreate : Schedule.create cron "N" "t" 0 "1" .empty (everySeconds n) =
      .ok ⟨JsonStore.put .empty "schedules" "1" (toValue (storedEvery cron n)),
        publish "N" "put" "schedules" "1" (some (toValue (storedEvery cron n)))⟩ := by
    rw [Schedule.create, if_neg (by simp [hblank])]
    have hinterval :
        ((nonBlank (everySeconds n).cron).isNone && (everySeconds n).intervalSeconds == 0) = false := by
      simp [everySeconds, hpos]
    rw [hinterval]
    rfl
  exact .create hn hcreate (rowOf_put_self _ _ _)

lemma occurrence_storedEvery (cron : Cron) (n : ℕ) (fromMs : ℤ) :
    occurrence cron (storedEvery cron n) fromMs = none := rfl

theorem advances_hourly : Advances noCron (storedEvery noCron 3600) 1735689600000 :=
  (advances_iff noCron_lawful (accepted_storedEvery noCron (by decide) (by decide))
    ⟨by omega, by omega⟩).mpr (.inr (by decide))

/-- The longest interval that a request can give is one second backwards. -/
theorem advances_backwards : ¬ ∀ (cron : Cron) (s : ScheduledTransfer) (fromMs : ℤ), cron.Lawful →
    Accepted cron s →
    ClockTime fromMs → Advances cron s fromMs := by
  intro h
  have hs : Accepted noCron (storedEvery noCron (2 ^ 64 - 1)) :=
    accepted_storedEvery noCron (by omega) (by omega)
  have hroom := (advances_interval_iff hs.range (occurrence_storedEvery _ _ _) (by omega)).mp
    (h noCron _ 1735689600000 noCron_lawful hs ⟨by omega, by omega⟩)
  exact absurd hroom (by decide)

end PesitWizard.Node.Schedule
