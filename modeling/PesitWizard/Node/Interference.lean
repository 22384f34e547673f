import PesitWizard.Node.Scheduler

/-! The scheduler of a node and the requests on its schedules at the same time. Each works on rows that
it has read before, and writes whole rows back. -/

namespace PesitWizard.Node

open App Library

namespace Schedule

variable (cron : Cron)

def revise (now : String) (nowMs : ℤ) (old body : ScheduledTransfer) :
    Except ApiError ScheduledTransfer := do
  let body := { body with
    id := old.id, createdAt := old.createdAt, lastRun := old.lastRun, lastStatus := old.lastStatus,
    updatedAt := some now }
  checkCron cron body
  .ok (if body.nextRunMs = 0 then { body with nextRunMs := nextRunAfter cron body nowMs } else body)

def ran (now outcome : String) (old : ScheduledTransfer) : ScheduledTransfer :=
  { old with lastRun := some now, lastStatus := some outcome }

/-- The fields that belong to the one who writes the schedule; the others are kept by the scheduler. -/
def settings (x : ScheduledTransfer) : ScheduledTransfer :=
  { x with lastRun := none, lastStatus := none, nextRunMs := 0, updatedAt := none }

end Schedule

open Schedule

def view (s : JsonStore) (id : String) : Option ScheduledTransfer := (rowOf s id).map settings

inductive ScheduleRequest
  | create (id : String) (body : ScheduledTransfer)
  | update (id : String) (body : ScheduledTransfer)
  | delete (id : String)
  | runNow (id : String)

/-- Where a request is; one that has read its row still has the row to write that it has made of it. -/
inductive Stage
  | ready
  | changed (row : ScheduledTransfer)
  | done (ok : Bool)

/-- What the last create or update of a schedule has set, and which schedules were deleted, is
kept beside the rows. -/
structure Bench (N : Type) where
  store : JsonStore
  tick : Option Tick
  stage : N → Stage
  said : String → Option ScheduledTransfer
  gone : String → Bool

inductive BenchMove (N : Type)
  | tick (members : List String) (now : String) (nowMs : ℤ)
  | next (outcome : String)
  | rest
  | request (n : N) (now : String) (nowMs : ℤ) (outcome : String)

namespace Bench

variable {N : Type} (cron : Cron) (nodeId : String) (requests : N → ScheduleRequest)

def found (s : Bench N) (id : String) : Option ScheduledTransfer := (s.store.get "schedules" id).join

section Moves

variable [DecidableEq N]

def enter (s : Bench N) (n : N) (stage : Stage) : Bench N :=
  { s with stage := Function.update s.stage n stage }

def proceed (s : Bench N) (n : N) (now : String) (nowMs : ℤ) (outcome : String) : Option (Bench N) :=
  match requests n, s.stage n with
  | .create id body, .ready =>
    match Schedule.create cron nodeId now nowMs id s.store body with
    | .error _ => some (s.enter n (.done false))
    | .ok written =>
      some ({ s with
        store := written.store
        said := Function.update s.said id (view written.store id)
        gone := Function.update s.gone id false }.enter n (.done true))
  | .delete id, .ready =>
    match Schedule.delete nodeId s.store id with
    | .error _ => some (s.enter n (.done false))
    | .ok written =>
      some ({ s with
        store := written.store
        said := Function.update s.said id none
        gone := Function.update s.gone id true }.enter n (.done true))
  | .update id body, .ready =>
    match s.found id with
    | none => some (s.enter n (.done false))
    | some old =>
      match revise cron now nowMs old body with
      | .error _ => some (s.enter n (.done false))
      | .ok y => some (s.enter n (.changed y))
  | .update id _, .changed y =>
    some ({ s with
      store := s.store.put "schedules" id (toValue y)
      said := Function.update s.said id (some (settings y)) }.enter n (.done true))
  | .runNow id, .ready =>
    match s.found id with
    | none => some (s.enter n (.done false))
    | some old => some (s.enter n (.changed (ran now outcome old)))
  | .runNow id, .changed y =>
    some ({ s with store := s.store.put "schedules" id (toValue y) }.enter n (.done true))
  | _, _ => none

def act (s : Bench N) : BenchMove N → Option (Bench N)
  | .tick members now nowMs =>
    match s.tick with
    | none =>
      let todo := (s.store.listAs "schedules").getD []
      some { s with tick := some ⟨slice nodeId members, now, nowMs, todo, .reading⟩ }
    | some _ => none
  | .next outcome =>
    match s.tick with
    | some ⟨place, now, nowMs, x :: todo, _⟩ =>
      if due place nowMs x then
        let y := advance cron now nowMs outcome x
        some { s with
          store := s.store.put "schedules" y.id (toValue y)
          tick := some ⟨place, now, nowMs, todo, .reading⟩ }
      else some { s with tick := some ⟨place, now, nowMs, todo, .reading⟩ }
    | _ => none
  | .rest =>
    match s.tick with
    | some ⟨_, _, _, [], _⟩ => some { s with tick := none }
    | _ => none
  | .request n now nowMs outcome => s.proceed cron nodeId requests n now nowMs outcome

end Moves

/-- A tick has read a row of the schedule that it will write back, or a run on request has. -/
def Pending (s : Bench N) (id : String) : Prop :=
  (∃ tick, s.tick = some tick ∧ ∃ x ∈ tick.todo, due tick.place tick.nowMs x = true ∧ x.id = id) ∨
    ∃ m y, requests m = .runNow id ∧ s.stage m = .changed y

def Revising (s : Bench N) (id : String) : Prop :=
  ∃ m body y, requests m = .update id body ∧ s.stage m = .changed y

/-- A request writes or deletes a schedule only while nobody else is about to write back a row of it. -/
def Apart (s : Bench N) : BenchMove N → Prop
  | .request n _ _ _ =>
    match requests n, s.stage n with
    | .create id _, .ready => ¬ Pending requests s id
    | .update id _, .changed _ => ¬ Pending requests s id
    | .delete id, .ready => ¬ Pending requests s id ∧ ¬ Revising requests s id
    | _, _ => True
  | _ => True

/-- No schedule that was deleted is there, and every schedule has the settings that it was given last. -/
def Kept (s : Bench N) : Prop :=
  ∀ id, (s.gone id = true → rowOf s.store id = none) ∧ ∀ x, s.said id = some x → view s.store id = some x

structure Consistent (requests : N → ScheduleRequest) (s : Bench N) : Prop where
  keyed : ∀ id x, rowOf s.store id = some x → x.id = id
  kept : Kept s
  ticking : ∀ tick, s.tick = some tick → ∀ x ∈ tick.todo, due tick.place tick.nowMs x = true →
    view s.store x.id = some (settings x)
  running : ∀ m id y, requests m = .runNow id → s.stage m = .changed y →
    y.id = id ∧ view s.store id = some (settings y)
  revising : ∀ m id body y, requests m = .update id body → s.stage m = .changed y →
    y.id = id ∧ (view s.store id).isSome = true

variable {cron nodeId requests} {s s' : Bench N} {n : N}

section Store

lemma view_eq_none {u : JsonStore} {id : String} : view u id = none ↔ rowOf u id = none := by
  rw [view, Option.map_eq_none_iff]

lemma rowOf_put_id {u : JsonStore} {x : ScheduledTransfer} {id : String} (hx : x.id = id) (j : String) :
    rowOf (u.put "schedules" id (toValue x)) j = if j = id then some x else rowOf u j := by
  subst hx
  exact Fleet.rowOf_put u x j

lemma view_put {u : JsonStore} {x : ScheduledTransfer} {id : String} (hx : x.id = id) (j : String) :
    view (u.put "schedules" id (toValue x)) j = if j = id then some (settings x) else view u j := by
  rw [view, rowOf_put_id hx]
  split <;> rfl

lemma rowOf_delete (u : JsonStore) (id j : String) :
    rowOf (u.delete "schedules" id) j = if j = id then none else rowOf u j := by
  rw [rowOf, JsonStore.delete_tables, if_pos rfl, Table.find_erase]
  split <;> rfl

lemma view_delete (u : JsonStore) (id j : String) :
    view (u.delete "schedules" id) j = if j = id then none else view u j := by
  rw [view, rowOf_delete]
  split <;> rfl

lemma found_eq (s : Bench N) (id : String) : s.found id = rowOf s.store id := by
  rw [found, JsonStore.get, rowOf]
  cases (s.store.tables "schedules").find id with
  | none => rfl
  | some doc => cases h : (Document.ofValue doc : Option ScheduledTransfer) <;> simp [h]

lemma rowOf_of_listAs {u : JsonStore} {l : List ScheduledTransfer} {x : ScheduledTransfer}
    (hl : u.listAs "schedules" = some l) (hx : x ∈ l) : ∃ id, rowOf u id = some x := by
  obtain ⟨doc, hdoc, hof⟩ := exists_of_mem_mapM hl hx
  obtain ⟨id, hid⟩ := Table.mem_docs.mp hdoc
  exact ⟨id, by rw [rowOf, hid]; exact hof⟩

lemma create_ensures (now : String) (nowMs : ℤ) (id : String) (u : JsonStore)
    (body : ScheduledTransfer) :
    Ensures (Schedule.create cron nodeId now nowMs id u body)
      fun w => ∃ y : ScheduledTransfer, y.id = id ∧ w.store = u.put "schedules" id (toValue y) := by
  rw [Schedule.create]
  refine .ite (fun _ => .error _) (fun _ => .bind fun _ _ => .ite (fun _ => .error _) (fun _ => .ok ?_))
  exact ⟨_, rfl, rfl⟩

lemma delete_ok {id : String} {u : JsonStore} {w : Written} (h : Schedule.delete nodeId u id = .ok w) :
    w.store = u.delete "schedules" id := by
  rw [Schedule.delete] at h
  split at h
  · obtain rfl := Except.ok.inj h
    rfl
  · cases h

lemma revise_ensures (now : String) (nowMs : ℤ) (old body : ScheduledTransfer) :
    Ensures (revise cron now nowMs old body) fun y => y.id = old.id := by
  rw [revise]
  refine .bind fun _ _ => .ok ?_
  split <;> rfl

end Store

section Consistency

lemma Consistent.store (h : Consistent requests s) {u : JsonStore}
    (hkeyed : ∀ id x, rowOf u id = some x → x.id = id) (hview : ∀ id, view u id = view s.store id) :
    Consistent requests { s with store := u } := by
  refine ⟨hkeyed, ?_, ?_, ?_, ?_⟩
  · intro id
    rw [← view_eq_none, hview, view_eq_none]
    exact h.kept id
  · intro tick ht x hx hdue
    exact (hview x.id).trans (h.ticking tick ht x hx hdue)
  · intro m id y hm hy
    obtain ⟨hid, hsome⟩ := h.running m id y hm hy
    exact ⟨hid, (hview id).trans hsome⟩
  · intro m id body y hm hy
    obtain ⟨hid, hsome⟩ := h.revising m id body y hm hy
    refine ⟨hid, ?_⟩
    rw [hview]
    exact hsome

lemma keyed_put {u : JsonStore} (h : ∀ id x, rowOf u id = some x → x.id = id) {id : String}
    {y : ScheduledTransfer} (hy : y.id = id) (j : String) (x : ScheduledTransfer)
    (hx : rowOf (u.put "schedules" id (toValue y)) j = some x) :
    x.id = j := by
  rw [rowOf_put_id hy] at hx
  split at hx
  · rename_i hj
    obtain rfl := Option.some.inj hx
    rw [hj, hy]
  · exact h j x hx

lemma Consistent.putBack (h : Consistent requests s) {id : String}
    {y : ScheduledTransfer} (hy : y.id = id) (hview : view s.store id = some (settings y)) :
    Consistent requests { s with store := s.store.put "schedules" id (toValue y) } := by
  refine h.store (keyed_put h.keyed hy) ?_
  intro j
  rw [view_put hy]
  split
  · rename_i hj
    rw [hj, hview]
  · rfl

lemma Consistent.put (h : Consistent requests s) {id : String} (hpending : ¬ Pending requests s id)
    {y : ScheduledTransfer} (hy : y.id = id) {gone : String → Bool} (hgone : gone id = false)
    (hothers : ∀ j, j ≠ id → gone j = s.gone j) :
    Consistent requests { s with
      store := s.store.put "schedules" id (toValue y)
      said := Function.update s.said id (some (settings y))
      gone := gone } := by
  refine ⟨keyed_put h.keyed hy, ?_, ?_, ?_, ?_⟩
  · intro j
    simp only [view_put hy, rowOf_put_id hy, Function.update_apply]
    by_cases hj : j = id
    · subst hj
      simp [hgone]
    · simp only [if_neg hj, hothers j hj]
      exact h.kept j
  · intro tick ht x hx hdue
    rw [view_put hy, if_neg]
    · exact h.ticking tick ht x hx hdue
    · intro hid
      exact hpending (.inl ⟨tick, ht, x, hx, hdue, hid⟩)
  · intro m j z hm hz
    obtain ⟨hid, hsome⟩ := h.running m j z hm hz
    refine ⟨hid, ?_⟩
    rw [view_put hy, if_neg]
    · exact hsome
    · rintro rfl
      exact hpending (.inr ⟨m, z, hm, hz⟩)
  · intro m j body z hm hz
    obtain ⟨hid, hsome⟩ := h.revising m j body z hm hz
    refine ⟨hid, ?_⟩
    rw [view_put hy]
    split
    · rfl
    · exact hsome

lemma Consistent.erase (h : Consistent requests s) {id : String} (hpending : ¬ Pending requests s id)
    (hrevising : ¬ Revising requests s id) :
    Consistent requests { s with
      store := s.store.delete "schedules" id
      said := Function.update s.said id none
      gone := Function.update s.gone id true } := by
  refine ⟨?_, ?_, ?_, ?_, ?_⟩
  · intro j x hx
    rw [rowOf_delete] at hx
    split at hx
    · cases hx
    · exact h.keyed j x hx
  · intro j
    simp only [view_delete, rowOf_delete, Function.update_apply]
    by_cases hj : j = id
    · simp [hj]
    · simp only [if_neg hj]
      exact h.kept j
  · intro tick ht x hx hdue
    rw [view_delete, if_neg]
    · exact h.ticking tick ht x hx hdue
    · intro hid
      exact hpending (.inl ⟨tick, ht, x, hx, hdue, hid⟩)
  · intro m j z hm hz
    obtain ⟨hid, hsome⟩ := h.running m j z hm hz
    refine ⟨hid, ?_⟩
    rw [view_delete, if_neg]
    · exact hsome
    · rintro rfl
      exact hpending (.inr ⟨m, z, hm, hz⟩)
  · intro m j body z hm hz
    obtain ⟨hid, hsome⟩ := h.revising m j body z hm hz
    refine ⟨hid, ?_⟩
    rw [view_delete, if_neg]
    · exact hsome
    · rintro rfl
      exact hrevising ⟨m, body, z, hm, hz⟩

lemma Consistent.ticks (h : Consistent requests s) {t : Option Tick}
    (ht : ∀ tick, t = some tick → ∀ x ∈ tick.todo, due tick.place tick.nowMs x = true →
      view s.store x.id = some (settings x)) : Consistent requests { s with tick := t } :=
  ⟨h.keyed, h.kept, ht, h.running, h.revising⟩

variable [DecidableEq N]

lemma enter_stage (s : Bench N) (n m : N) (stage : Stage) :
    (s.enter n stage).stage m = if m = n then stage else s.stage m := by
  simp only [enter, Function.update_apply]

lemma Consistent.done (h : Consistent requests s) (n : N) (b : Bool) :
    Consistent requests (s.enter n (.done b)) := by
  refine ⟨h.keyed, h.kept, h.ticking, ?_, ?_⟩
  · intro m id y hm hy
    rw [enter_stage] at hy
    split at hy
    · cases hy
    · exact h.running m id y hm hy
  · intro m id body y hm hy
    rw [enter_stage] at hy
    split at hy
    · cases hy
    · exact h.revising m id body y hm hy

lemma Consistent.readRun (h : Consistent requests s) {id : String} (hn : requests n = .runNow id)
    {old : ScheduledTransfer} (hold : rowOf s.store id = some old) (now outcome : String) :
    Consistent requests (s.enter n (.changed (ran now outcome old))) := by
  refine ⟨h.keyed, h.kept, h.ticking, ?_, ?_⟩
  · intro m j y hm hy
    rw [enter_stage] at hy
    split at hy
    · rename_i hmn
      rw [hmn, hn] at hm
      cases hm
      cases hy
      exact ⟨h.keyed id old hold, congrArg (Option.map settings) hold⟩
    · exact h.running m j y hm hy
  · intro m j body y hm hy
    rw [enter_stage] at hy
    split at hy
    · rename_i hmn
      rw [hmn, hn] at hm
      cases hm
    · exact h.revising m j body y hm hy

lemma Consistent.readUpdate (h : Consistent requests s) {id : String} {body : ScheduledTransfer}
    (hn : requests n = .update id body) {old y : ScheduledTransfer} (hold : rowOf s.store id = some old)
    (hy : y.id = old.id) : Consistent requests (s.enter n (.changed y)) := by
  refine ⟨h.keyed, h.kept, h.ticking, ?_, ?_⟩
  · intro m j z hm hz
    rw [enter_stage] at hz
    split at hz
    · rename_i hmn
      rw [hmn, hn] at hm
      cases hm
    · exact h.running m j z hm hz
  · intro m j b z hm hz
    rw [enter_stage] at hz
    split at hz
    · rename_i hmn
      rw [hmn, hn] at hm
      cases hm
      cases hz
      have hview : view s.store id = some (settings old) := congrArg (Option.map settings) hold
      exact ⟨hy.trans (h.keyed id old hold), congrArg Option.isSome hview⟩
    · exact h.revising m j b z hm hz

lemma Consistent.proceed (h : Consistent requests s) {now outcome : String} {nowMs : ℤ}
    (hok : Apart requests s (.request n now nowMs outcome))
    (hact : s.proceed cron nodeId requests n now nowMs outcome = some s') : Consistent requests s' := by
  rw [Bench.proceed] at hact
  simp only [Apart] at hok
  split at hact
  · rename_i id body hn hstage
    rw [hn, hstage] at hok
    split at hact
    · obtain rfl := Option.some.inj hact
      exact h.done n false
    · rename_i w hw
      obtain rfl := Option.some.inj hact
      obtain ⟨y, hy, hstore⟩ := create_ensures now nowMs id s.store body w hw
      have hsaid : view w.store id = some (settings y) := by rw [hstore, view_put hy, if_pos rfl]
      rw [hsaid, hstore]
      refine (h.put hok hy (by rw [Function.update_self]) ?_).done n true
      intro j hj
      rw [Function.update_of_ne hj]
  · rename_i id hn hstage
    rw [hn, hstage] at hok
    split at hact
    · obtain rfl := Option.some.inj hact
      exact h.done n false
    · rename_i w hw
      obtain rfl := Option.some.inj hact
      rw [delete_ok hw]
      exact (h.erase hok.1 hok.2).done n true
  · rename_i id body hn hstage
    rw [found_eq] at hact
    split at hact
    · obtain rfl := Option.some.inj hact
      exact h.done n false
    · rename_i old hold
      split at hact
      · obtain rfl := Option.some.inj hact
        exact h.done n false
      · rename_i y hy
        obtain rfl := Option.some.inj hact
        exact h.readUpdate hn hold (revise_ensures now nowMs old body y hy)
  · rename_i id body y hn hstage
    rw [hn, hstage] at hok
    obtain rfl := Option.some.inj hact
    obtain ⟨hy, hsome⟩ := h.revising n id body y hn hstage
    refine (h.put hok hy ?_ (fun _ _ => rfl)).done n true
    -- the schedule was there when it was read, and has not been deleted since
    rw [← Bool.not_eq_true]
    intro hgone
    rw [view_eq_none.mpr ((h.kept id).1 hgone)] at hsome
    cases hsome
  · rename_i id hn hstage
    rw [found_eq] at hact
    split at hact
    · obtain rfl := Option.some.inj hact
      exact h.done n false
    · rename_i old hold
      obtain rfl := Option.some.inj hact
      exact h.readRun hn hold now outcome
  · rename_i id y hn hstage
    obtain rfl := Option.some.inj hact
    obtain ⟨hy, hview⟩ := h.running n id y hn hstage
    exact (h.putBack hy hview).done n true
  · cases hact

lemma Consistent.act {m : BenchMove N} (h : Consistent requests s) (hok : Apart requests s m)
    (hact : s.act cron nodeId requests m = some s') : Consistent requests s' := by
  cases m with
  | tick members now nowMs =>
    rw [Bench.act] at hact
    split at hact
    · obtain rfl := Option.some.inj hact
      refine h.ticks ?_
      intro tick ht x hx _
      obtain rfl := Option.some.inj ht
      simp only at hx
      cases hl : (s.store.listAs "schedules" : Option (List ScheduledTransfer)) with
      | none =>
        rw [hl] at hx
        cases hx
      | some l =>
        rw [hl] at hx
        obtain ⟨id, hid⟩ := rowOf_of_listAs hl hx
        rw [h.keyed id x hid, view, hid]
        rfl
    · cases hact
  | next outcome =>
    rw [Bench.act] at hact
    split at hact
    · rename_i place now nowMs x todo stage htick
      have htodo :
          ∀ tick, some (⟨place, now, nowMs, todo, .reading⟩ : Tick) = some tick → ∀ z ∈ tick.todo,
          due tick.place tick.nowMs z = true → view s.store z.id = some (settings z) := by
        intro tick ht z hz hdue
        obtain rfl := Option.some.inj ht
        exact h.ticking _ htick z (List.mem_cons_of_mem x hz) hdue
      split at hact
      · rename_i hdue
        obtain rfl := Option.some.inj hact
        exact (h.ticks htodo).putBack (y := advance cron now nowMs outcome x) rfl
          (h.ticking _ htick x List.mem_cons_self hdue)
      · obtain rfl := Option.some.inj hact
        exact h.ticks htodo
    · cases hact
  | rest =>
    rw [Bench.act] at hact
    split at hact
    · obtain rfl := Option.some.inj hact
      exact h.ticks (fun _ ht => by cases ht)
    · cases hact
  | request n now nowMs outcome => exact h.proceed hok hact

end Consistency

def fresh (N : Type) : Bench N := ⟨.empty, none, fun _ => .ready, fun _ => none, fun _ => false⟩

lemma fresh_consistent (requests : N → ScheduleRequest) : Consistent requests (fresh N) := by
  refine ⟨?_, ?_, ?_, ?_, ?_⟩
  · intro id x hx
    cases hx
  · intro id
    refine ⟨fun _ => rfl, ?_⟩
    intro x hx
    cases hx
  · intro tick ht
    cases ht
  · intro m id y _ hy
    cases hy
  · intro m id body y _ hy
    cases hy

/-- In every run in which a request writes or deletes a schedule only while nobody else is about to write
back a row of it, a deleted schedule stays away until it is created again, and the settings of every
schedule are those that it was given last. -/
theorem schedules_kept [DecidableEq N]
    (hrun : Moves (act cron nodeId requests) (Apart requests) (fresh N) s) : Kept s :=
  (hrun.invariant (fun _ _ _ h hok hact => h.act hok hact) (fresh_consistent requests)).kept

end Bench

section Instances

open Bench

def nightlyRequests : Option Bool → ScheduleRequest
  | none => .create "nightly" nightly
  | some true => .delete "nightly"
  | some false => .update "nightly" { nightly with name := "weekly" }

abbrev nightlyAct : Bench (Option Bool) → BenchMove (Option Bool) → Option (Bench (Option Bool)) :=
  act noCron "node-1" nightlyRequests

def nightlyBench (ms : List (BenchMove (Option Bool))) : Bench (Option Bool) :=
  ms.foldl (after nightlyAct) (fresh _)

def requestNow (n : Option Bool) : BenchMove (Option Bool) := .request n "now" 1000 ""

def tickLater : BenchMove (Option Bool) := .tick ["node-1"] "later" 10000000

lemma nightlyBench_concat (ms : List (BenchMove (Option Bool))) (m : BenchMove (Option Bool)) :
    nightlyBench (ms ++ [m]) = after nightlyAct (nightlyBench ms) m := by
  rw [nightlyBench, List.foldl_append]
  rfl

lemma not_pending {s : Bench (Option Bool)}
    (h : ∀ tick, s.tick = some tick → tick.todo = []) (id : String) :
    ¬ Pending nightlyRequests s id := by
  rintro (⟨tick, ht, x, hx, -⟩ | ⟨m, y, hm, -⟩)
  · rw [h tick ht] at hx
    cases hx
  · match m with
    | none | some true | some false => cases hm

lemma apart_of_idle {s : Bench (Option Bool)} (h : (s.tick.all fun tick => tick.todo.isEmpty) = true)
    {n : Option Bool} (hn : n ≠ some true) : Apart nightlyRequests s (requestNow n) := by
  have hpending := not_pending (s := s) fun tick ht => by simpa [ht] using h
  rw [requestNow, Apart]
  split
  · exact hpending _
  · exact hpending _
  · rename_i id hdelete _
    match n with
    | none | some false => cases hdelete
    | some true => exact absurd rfl hn
  · trivial

theorem schedules_kept_renamed :
    Kept (nightlyBench [requestNow none, tickLater, .next "queued 1", requestNow (some false),
    requestNow (some false)]) := by
  have hruns :
      ∀ ms m, Apart nightlyRequests (nightlyBench ms) m →
      (nightlyAct (nightlyBench ms) m).isSome = true →
      Steps nightlyAct (Apart nightlyRequests) (nightlyBench ms) (nightlyBench (ms ++ [m])) := by
    intro ms m hok hact
    rw [nightlyBench_concat]
    exact steps_after hok hact
  have hcreate := hruns [] (requestNow none) (apart_of_idle rfl (by decide)) (by decide +kernel)
  have htick := hruns [requestNow none] tickLater trivial (by decide +kernel)
  have hnext := hruns [requestNow none, tickLater] (.next "queued 1") trivial (by decide +kernel)
  have hread := hruns [requestNow none, tickLater, .next "queued 1"] (requestNow (some false))
    (apart_of_idle (by decide +kernel) (by decide)) (by decide +kernel)
  have hwrite :=
    hruns [requestNow none, tickLater, .next "queued 1", requestNow (some false)]
      (requestNow (some false))
    (apart_of_idle (by decide +kernel) (by decide)) (by decide +kernel)
  exact schedules_kept (.head hcreate (.head htick (.head hnext (.head hread (.single hwrite)))))

def renamedInTick : Bench (Option Bool) :=
  nightlyBench [requestNow none, tickLater, requestNow (some false), requestNow (some false),
    .next "queued 1"]

/-- A schedule is deleted, or renamed, between the list and the put of a tick. -/
theorem schedules_not_kept :
    (¬ ∀ s, Moves nightlyAct (fun _ _ => True) (fresh _) s → ∀ id, s.gone id = true →
      rowOf s.store id = none) ∧
      ¬ ∀ s, Moves nightlyAct (fun _ _ => True) (fresh _) s → ∀ id x, s.said id = some x →
      view s.store id = some x := by
  refine ⟨?_, ?_⟩
  · intro h
    have hgone := h (nightlyBench [requestNow none, tickLater, requestNow (some true), .next "queued 1"])
      (moves_foldl _ _) "nightly" (by decide +kernel)
    have hback :
        (rowOf (nightlyBench [requestNow none, tickLater, requestNow (some true),
        .next "queued 1"]).store "nightly").isSome = true := by decide +kernel
    rw [hgone] at hback
    cases hback
  · intro h
    have hkept := h renamedInTick (moves_foldl _ _) "nightly"
    have hsaid :
        (renamedInTick.said "nightly").map ScheduledTransfer.name = some "weekly" := by decide +kernel
    have hview :
        (view renamedInTick.store "nightly").map ScheduledTransfer.name =
        some "nightly" := by decide +kernel
    obtain ⟨x, hx, hname⟩ := Option.map_eq_some_iff.mp hsaid
    rw [hkept x hx, Option.map_some, hname, Option.some.injEq] at hview
    exact absurd hview (by decide)

end Instances

end PesitWizard.Node
