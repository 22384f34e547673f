import PesitWizard.Node.Replication

/-! The schedulers of the nodes of a cluster, and the rows of the schedules that they send each other. -/

namespace PesitWizard.Node

open App Library NodeClusterHandler

/-- Where a tick is with the schedule in hand: it may have started it and not yet written the row that
goes on from there, or have written that row and not yet published it. -/
inductive TickStage
  | reading
  | started (y : ScheduledTransfer)
  | written (y : ScheduledTransfer)

def TickStage.unwritten : TickStage → Option ScheduledTransfer
  | .started y => some y
  | _ => none

/-- A tick that a scheduler is busy with, and the schedules as they were read when it began. -/
structure Tick where
  place : ℕ × ℕ
  now : String
  nowMs : ℤ
  todo : List ScheduledTransfer
  stage : TickStage

structure Fleet (N : Type) where
  store : N → JsonStore
  tick : N → Option Tick
  inFlight : N → N → List ScheduledTransfer
  listening : N → Bool
  answer : N → Option Value
  fired : List (N × String × ℤ)

inductive FleetMove (N : Type)
  | tick (n : N) (members : List String) (now : String) (nowMs : ℤ)
  | next (n : N) (outcome : String)
  | put (n : N) (stored : Bool)
  | publish (n : N)
  | rest (n : N)
  | deliver (p m : N) (stored : Bool)
  | answer (j p : N)
  | restore (j : N)
  | listen (j : N)
  | leave (j : N)

def rowChange (nodeId : String) (x : ScheduledTransfer) : ConfigChange :=
  ⟨nodeId, "put", "schedules", x.id, some (toValue x)⟩

def rowOf (s : JsonStore) (id : String) : Option ScheduledTransfer :=
  ((s.tables "schedules").find id).bind Document.ofValue

namespace Fleet

variable {N : Type} [DecidableEq N] (net : Nodes N) (cron : Cron)

def act (s : Fleet N) : FleetMove N → Option (Fleet N)
  | .tick n members now nowMs =>
    match s.tick n with
    | none =>
      let todo := (s.store n).listAs "schedules" |>.getD []
      some { s with
        tick := Function.update s.tick n
          (some ⟨Schedule.slice (net.id n) members, now, nowMs, todo, .reading⟩) }
    | some _ => none
  | .next n outcome =>
    match s.tick n with
    | some ⟨place, now, nowMs, x :: todo, .reading⟩ =>
      if Schedule.due place nowMs x then
        let y := Schedule.advance cron now nowMs outcome x
        some { s with
          tick := Function.update s.tick n (some ⟨place, now, nowMs, todo, .started y⟩)
          fired := s.fired ++ [(n, x.id, x.nextRunMs)] }
      else some { s with tick := Function.update s.tick n (some ⟨place, now, nowMs, todo, .reading⟩) }
    | _ => none
  | .put n stored =>
    match s.tick n with
    | some ⟨place, now, nowMs, todo, .started y⟩ =>
      -- a row that cannot be written is logged and published all the same
      some { s with
        store := if stored then
          Function.update s.store n ((s.store n).put "schedules" y.id (toValue y)) else s.store
        tick := Function.update s.tick n (some ⟨place, now, nowMs, todo, .written y⟩) }
    | _ => none
  | .publish n =>
    match s.tick n with
    | some ⟨place, now, nowMs, todo, .written y⟩ =>
      some { s with
        tick := Function.update s.tick n (some ⟨place, now, nowMs, todo, .reading⟩)
        inFlight := fun p m => if p = n ∧ s.listening m then s.inFlight p m ++ [y] else s.inFlight p m }
    | _ => none
  | .rest n =>
    match s.tick n with
    | some ⟨_, _, _, [], .reading⟩ => some { s with tick := Function.update s.tick n none }
    | _ => none
  | .deliver p m stored =>
    match s.inFlight p m with
    | x :: rest =>
      some { s with
        inFlight := Function.update s.inFlight p (Function.update (s.inFlight p) m rest)
        store := if net.id p = net.id m ∨ stored = false then s.store
          else Function.update s.store m (apply (s.store m) (rowChange (net.id p) x)) }
    | [] => none
  | .answer j p => some { s with answer := Function.update s.answer j (some (snapshot (s.store p))) }
  | .restore j =>
    match s.answer j with
    | some v =>
      some { s with
        answer := Function.update s.answer j none
        store := Function.update s.store j (NodeClusterHandler.restore (s.store j) v) }
    | none => none
  | .listen j => some { s with listening := Function.update s.listening j true }
  | .leave j =>
    some { s with
      listening := Function.update s.listening j false, tick := Function.update s.tick j none
      inFlight := fun p m => if m = j then [] else s.inFlight p m }

end Fleet

namespace Fleet

variable {N : Type}

/-- The row that a node has still to write for the schedule that it has started. -/
def starting (s : Fleet N) (n : N) : Option ScheduledTransfer :=
  (s.tick n).bind fun tick => tick.stage.unwritten

/-- A schedule is started from a row that no store is past, while no node is about to write the row of an
earlier start, with a next time that fits in 64 bits; the row of a start is written, before its node
leaves; and no row that is written or arrives takes the time of a schedule back. -/
def Current (s : Fleet N) : FleetMove N → Prop
  | .next n _ => ∀ tick ∈ s.tick n, ∀ x ∈ tick.todo.head?, Schedule.due tick.place tick.nowMs x = true →
      (∀ k, ∀ r ∈ rowOf (s.store k) x.id, r.nextRunMs ≤ x.nextRunMs) ∧
      (∀ k, ∀ y ∈ s.starting k, y.id ≠ x.id) ∧
        -2 ^ 63 ≤ tick.nowMs ∧ tick.nowMs + (max x.intervalSeconds 1 : ℕ) * 1000 < 2 ^ 63
  | .put n stored => stored = true ∧ ∀ y ∈ s.starting n, ∀ r ∈ rowOf (s.store n) y.id,
    r.nextRunMs ≤ y.nextRunMs
  | .leave j => s.starting j = none
  | .deliver p m _ => ∀ x ∈ (s.inFlight p m).head?, ∀ r ∈ rowOf (s.store m) x.id,
    r.nextRunMs ≤ x.nextRunMs
  | .restore j => ∀ v ∈ s.answer j, ∀ id, ∀ r ∈ rowOf (s.store j) id,
      ∀ doc ∈ Table.lastFor (rowsFor "schedules" (tablesOf v)) id,
        ∃ r' ∈ (Document.ofValue doc : Option ScheduledTransfer), r.nextRunMs ≤ r'.nextRunMs
  | _ => True

def Onward (u v : JsonStore) : Prop :=
  ∀ id, ∀ r ∈ rowOf u id, ∃ r' ∈ rowOf v id, r.nextRunMs ≤ r'.nextRunMs

lemma Onward.refl (u : JsonStore) : Onward u u := fun _ r hr => ⟨r, hr, Int.le_refl _⟩

lemma rowOf_put (u : JsonStore) (x : ScheduledTransfer) (id : String) :
    rowOf (u.put "schedules" x.id (toValue x)) id = if id = x.id then some x else rowOf u id := by
  rw [rowOf, JsonStore.put_tables, if_pos rfl, Table.find_put]
  by_cases h : id = x.id
  · rw [if_pos h, if_pos h, Option.bind_some]
    exact Document.ofValue_toValue x
  · rw [if_neg h, if_neg h]
    rfl

lemma Onward.put {u : JsonStore} {x : ScheduledTransfer}
    (h : ∀ r ∈ rowOf u x.id, r.nextRunMs ≤ x.nextRunMs) :
    Onward u (u.put "schedules" x.id (toValue x)) := by
  intro id r hr
  rw [rowOf_put]
  by_cases hid : id = x.id
  · rw [if_pos hid]
    exact ⟨x, rfl, h r (hid ▸ hr)⟩
  · rw [if_neg hid]
    exact ⟨r, hr, Int.le_refl _⟩

lemma apply_rowChange (u : JsonStore) (nodeId : String) (x : ScheduledTransfer) :
    apply u (rowChange nodeId x) = u.put "schedules" x.id (toValue x) := by
  have htable : "schedules" ∈ CLUSTER_TABLES := by decide
  have hop : ("put" : String) ≠ "delete" := by decide
  rw [apply, rowChange, if_pos htable, if_neg hop]

lemma Onward.restore {u : JsonStore} {v : Value}
    (h : ∀ id, ∀ r ∈ rowOf u id, ∀ doc ∈ Table.lastFor (rowsFor "schedules" (tablesOf v)) id,
      ∃ r' ∈ (Document.ofValue doc : Option ScheduledTransfer), r.nextRunMs ≤ r'.nextRunMs) :
    Onward u (NodeClusterHandler.restore u v) := by
  intro id r hr
  rw [rowOf, restore_tables, if_pos (by decide), Table.find_putAll]
  cases hlast : Table.lastFor (rowsFor "schedules" (tablesOf v)) id with
  | none => exact ⟨r, hr, Int.le_refl _⟩
  | some doc => exact h id r hr doc hlast

/-- Some row of a schedule is past a time, in a store or about to be written. -/
def Passed (s : Fleet N) (id : String) (ms : ℤ) : Prop :=
  (∃ k, ∃ r ∈ rowOf (s.store k) id, ms < r.nextRunMs) ∨ ∃ k, ∃ y ∈ s.starting k,
    y.id = id ∧ ms < y.nextRunMs

structure Moved (s s' : Fleet N) : Prop where
  passed : ∀ id ms, s.Passed id ms → s'.Passed id ms
  fired : s'.fired = s.fired ∨ ∃ n id ms, s'.fired = s.fired ++ [(n, id, ms)] ∧
    ¬ s.Passed id ms ∧ s'.Passed id ms

structure Once (s : Fleet N) : Prop where
  nodup : (s.fired.map Prod.snd).Nodup
  passed : ∀ f ∈ s.fired, s.Passed f.2.1 f.2.2

lemma Once.moved {s s' : Fleet N} (h : s.Once) (hmoved : Moved s s') : s'.Once := by
  have hpassed : ∀ f ∈ s.fired, s'.Passed f.2.1 f.2.2 := fun f hf => hmoved.passed _ _ (h.passed f hf)
  rcases hmoved.fired with hsame | ⟨n, id, ms, hfired, hbefore, hafter⟩
  · exact ⟨hsame ▸ h.nodup, hsame ▸ hpassed⟩
  · constructor
    · rw [hfired, List.map_append, List.nodup_append]
      refine ⟨h.nodup, by simp, ?_⟩
      intro a ha b hb
      obtain rfl := List.mem_singleton.mp hb
      rintro rfl
      -- the occurrence was started before, so some row has gone past it
      obtain ⟨f, hf, heq⟩ := List.mem_map.mp ha
      apply hbefore
      have hpast := h.passed f hf
      rwa [heq] at hpast
    · intro f hf
      rw [hfired] at hf
      rcases List.mem_append.mp hf with hf | hf
      · exact hpassed f hf
      · rw [List.mem_singleton.mp hf]
        exact hafter

lemma Passed.mono {s s' : Fleet N} {id : String} {ms : ℤ} (h : s.Passed id ms)
    (hstore : ∀ k, Onward (s.store k) (s'.store k))
    (hstarting : ∀ k, ∀ y ∈ s.starting k, y.id = id → ms < y.nextRunMs →
      y ∈ s'.starting k ∨ ∃ k', ∃ r ∈ rowOf (s'.store k') id, ms < r.nextRunMs) : s'.Passed id ms := by
  rcases h with ⟨k, r, hr, hlt⟩ | ⟨k, y, hy, hid, hlt⟩
  · obtain ⟨r', hr', hle⟩ := hstore k id r hr
    exact .inl ⟨k, r', hr', Int.lt_of_lt_of_le hlt hle⟩
  · rcases hstarting k y hy hid hlt with hy' | hrow
    · exact .inr ⟨k, y, hy', hid, hlt⟩
    · exact .inl hrow

variable {s s' : Fleet N}

lemma moved_of_tick {u : Fleet N} (htick : u.tick = s.tick)
    (hstore : ∀ k, Onward (s.store k) (u.store k)) (hfired : u.fired = s.fired) : Moved s u := by
  refine ⟨fun id ms h => h.mono hstore ?_, .inl hfired⟩
  intro k y hy _ _
  rw [starting, htick]
  exact .inl hy

lemma starting_of_tick {n : N} {tick : Tick} (htick : s.tick n = some tick) :
    s.starting n = tick.stage.unwritten := by
  rw [starting, htick, Option.bind_some]

variable [DecidableEq N] {net : Nodes N} {cron : Cron}

lemma onward_update {n : N} {u : JsonStore} (h : Onward (s.store n) u) (k : N) :
    Onward (s.store k) (Function.update s.store n u k) := by
  by_cases hk : k = n
  · subst hk
    rw [Function.update_self]
    exact h
  · rw [Function.update_of_ne hk]
    exact .refl _

lemma starting_update {u : Fleet N} {n k : N} {t : Option Tick}
    (htick : u.tick = Function.update s.tick n t) (hk : k ≠ n) : u.starting k = s.starting k := by
  rw [starting, htick, Function.update_of_ne hk]
  rfl

/-- The tick of a node that has nothing to write may go on. -/
lemma starting_kept {u : Fleet N} {n : N} {t : Option Tick} (htick : u.tick = Function.update s.tick n t)
    (hn : s.starting n = none) {k : N} {y : ScheduledTransfer} (hy : y ∈ s.starting k) :
    y ∈ u.starting k := by
  rw [starting_update htick]
  · exact hy
  · rintro rfl
    rw [hn] at hy
    cases hy

lemma moved_of_update {n : N} {t : Option Tick} {u : Fleet N} (hn : s.starting n = none)
    (htick : u.tick = Function.update s.tick n t) (hstore : ∀ k, Onward (s.store k) (u.store k))
    (hfired : u.fired = s.fired) : Moved s u :=
  ⟨fun _ _ h => h.mono hstore fun _ _ hy _ _ => .inl (starting_kept htick hn hy), .inl hfired⟩

lemma act_next (hcron : cron.Lawful) {n : N} {outcome : String} (hok : s.Current (.next n outcome))
    (h : s.act net cron (.next n outcome) = some s') : Moved s s' := by
  rw [act] at h
  split at h
  · rename_i place now nowMs x todo htick
    have hidle : s.starting n = none := starting_of_tick htick
    split at h
    · rename_i hdue
      obtain ⟨hlatest, hfree, hlow, hhigh⟩ := hok _ htick x rfl hdue
      have hdueMs : x.nextRunMs ≤ nowMs := by
        simp only [Schedule.due, Bool.and_eq_true, decide_eq_true_eq] at hdue
        exact hdue.1.2
      have hnext : x.nextRunMs < (Schedule.advance cron now nowMs outcome x).nextRunMs :=
        Int.lt_of_le_of_lt hdueMs (Schedule.nextRunAfter_gt hcron hlow hhigh)
      obtain rfl := Option.some.inj h
      refine ⟨fun id ms hpassed => hpassed.mono (fun k => .refl _) ?_,
        .inr ⟨n, x.id, x.nextRunMs, rfl, ?_, ?_⟩⟩
      · intro k y hy _ _
        exact .inl (starting_kept rfl hidle hy)
      · rintro (⟨k, r, hr, hlt⟩ | ⟨k, y, hy, hid, -⟩)
        · exact absurd (hlatest k r hr) (Int.not_le.mpr hlt)
        · exact hfree k y hy hid
      · refine .inr ⟨n, Schedule.advance cron now nowMs outcome x, ?_, rfl, hnext⟩
        rw [starting_of_tick (Function.update_self _ _ _), TickStage.unwritten]
        rfl
    · obtain rfl := Option.some.inj h
      exact moved_of_update hidle rfl (fun k => .refl _) rfl
  · cases h

lemma act_put {n : N} {stored : Bool} (hok : s.Current (.put n stored))
    (h : s.act net cron (.put n stored) = some s') : Moved s s' := by
  obtain ⟨rfl, hrow⟩ := hok
  rw [act] at h
  split at h
  · rename_i place now nowMs todo y htick
    have hy : s.starting n = some y := starting_of_tick htick
    obtain rfl := Option.some.inj h
    refine ⟨fun id ms hpassed => hpassed.mono ?_ ?_, .inl rfl⟩
    · exact onward_update (Onward.put (hrow y hy))
    · intro k z hz hid hlt
      by_cases hk : k = n
      · subst hk
        -- the start of this node is what it writes now
        obtain rfl := Option.some.inj (hy.symm.trans hz)
        refine .inr ⟨k, y, ?_, hlt⟩
        simp only [if_true, Function.update_self, rowOf_put]
        exact if_pos hid.symm
      · rw [starting_update rfl hk]
        exact .inl hz
  · cases h

lemma act_moved (hcron : cron.Lawful) {m : FleetMove N} (hok : s.Current m)
    (h : s.act net cron m = some s') :
    Moved s s' := by
  cases m with
  | next n outcome => exact act_next hcron hok h
  | put n stored => exact act_put hok h
  | tick n members now nowMs =>
    rw [act] at h
    split at h
    · rename_i htick
      obtain rfl := Option.some.inj h
      refine moved_of_update ?_ rfl (fun k => .refl _) rfl
      rw [starting, htick]
      rfl
    · cases h
  | publish n =>
    rw [act] at h
    split at h
    · rename_i place now nowMs todo y htick
      obtain rfl := Option.some.inj h
      exact moved_of_update (starting_of_tick htick) rfl (fun k => .refl _) rfl
    · cases h
  | rest n =>
    rw [act] at h
    split at h
    · rename_i place now nowMs htick
      obtain rfl := Option.some.inj h
      exact moved_of_update (starting_of_tick htick) rfl (fun k => .refl _) rfl
    · cases h
  | deliver p m stored =>
    rw [act] at h
    split at h
    · rename_i x rest hqueue
      obtain rfl := Option.some.inj h
      refine moved_of_tick rfl ?_ rfl
      by_cases hid : net.id p = net.id m ∨ stored = false
      · simp only [if_pos hid]
        exact fun k => .refl _
      · simp only [if_neg hid, apply_rowChange]
        exact onward_update (Onward.put fun r hr => hok x (by rw [hqueue]; rfl) r hr)
    · cases h
  | answer j p =>
    obtain rfl := Option.some.inj h
    exact moved_of_tick rfl (fun k => .refl _) rfl
  | restore j =>
    rw [act] at h
    split at h
    · rename_i v hv
      obtain rfl := Option.some.inj h
      exact moved_of_tick rfl (onward_update (Onward.restore (hok v hv))) rfl
    · cases h
  | listen j =>
    obtain rfl := Option.some.inj h
    exact moved_of_tick rfl (fun k => .refl _) rfl
  | leave j =>
    obtain rfl := Option.some.inj h
    exact moved_of_update hok rfl (fun k => .refl _) rfl

/-- No occurrence of a schedule is started twice, by one node or by two, in every run in which
schedules are started from their latest rows, a start is followed by the write of its row and no
row is taken back. -/
theorem schedule_fires_once (hcron : cron.Lawful) {s₀ : Fleet N} (hstart : s₀.fired = [])
    (hrun : Moves (act net cron) Current s₀ s) : (s.fired.map Prod.snd).Nodup := by
  have honce : s.Once := by
    refine hrun.invariant (fun _ _ _ h hok hact => h.moved (act_moved hcron hok hact)) ?_
    exact ⟨by simp [hstart], by simp [hstart]⟩
  exact honce.nodup

end Fleet

section Instances

open Fleet

def nightly : ScheduledTransfer where
  id := "nightly"
  name := "nightly"
  enabled := true
  direction := "send"
  request := []
  intervalSeconds := 3600
  cron := none
  lastRun := none
  lastStatus := none
  nextRunMs := 1000
  createdAt := none
  updatedAt := none

def idleFleet : Fleet Bool where
  store _ := JsonStore.empty.put "schedules" nightly.id (toValue nightly)
  tick _ := none
  inFlight _ _ := []
  listening _ := true
  answer _ := none
  fired := []

abbrev fleetAfter : Fleet Bool → FleetMove Bool → Fleet Bool := after (act pair noCron)

lemma noCron_lawful : noCron.Lawful := by
  intro expr next t n h
  cases h

-- the second node fires the next occurrence, after the row of the first one has reached it
def tickingFleet : Fleet Bool := fleetAfter idleFleet (.tick false ["node-1"] "now" 2000)

def startedFleet : Fleet Bool := fleetAfter tickingFleet (.next false "queued 1")

def writtenFleet : Fleet Bool := fleetAfter startedFleet (.put false true)

def publishedFleet : Fleet Bool := fleetAfter writtenFleet (.publish false)

def deliveredFleet : Fleet Bool := fleetAfter publishedFleet (.deliver false true true)

def takenOver : Fleet Bool := fleetAfter deliveredFleet (.tick true ["node-2"] "later" 4000000)

def firedFleet : Fleet Bool := fleetAfter takenOver (.next true "queued 2")

theorem schedule_fires_once_nightly :
    firedFleet.fired = [(false, "nightly", 1000), (true, "nightly", 3602000)] ∧
      (firedFleet.fired.map Prod.snd).Nodup := by
  have htick : Steps (act pair noCron) Current idleFleet tickingFleet :=
    steps_after (m := FleetMove.tick false ["node-1"] "now" 2000) trivial (by decide +kernel)
  have hnext : Steps (act pair noCron) Current tickingFleet startedFleet := by
    refine steps_after (m := FleetMove.next false "queued 1") ?_ (by decide +kernel)
    rw [Current]
    decide +kernel
  have hput : Steps (act pair noCron) Current startedFleet writtenFleet := by
    refine steps_after (m := FleetMove.put false true) ?_ (by decide +kernel)
    rw [Current]
    decide +kernel
  have hpublish : Steps (act pair noCron) Current writtenFleet publishedFleet :=
    steps_after (m := FleetMove.publish false) trivial (by decide +kernel)
  have hdeliver : Steps (act pair noCron) Current publishedFleet deliveredFleet := by
    refine steps_after (m := FleetMove.deliver false true true) ?_ (by decide +kernel)
    rw [Current]
    decide +kernel
  have htakes : Steps (act pair noCron) Current deliveredFleet takenOver :=
    steps_after (m := FleetMove.tick true ["node-2"] "later" 4000000) trivial (by decide +kernel)
  have hagain : Steps (act pair noCron) Current takenOver firedFleet := by
    refine steps_after (m := FleetMove.next true "queued 2") ?_ (by decide +kernel)
    rw [Current]
    decide +kernel
  have hrun : Moves (act pair noCron) Current idleFleet firedFleet :=
    .head htick (.head hnext
      (.head hput (.head hpublish (.head hdeliver (.head htakes (.single hagain))))))
  exact ⟨by decide +kernel, schedule_fires_once noCron_lawful rfl hrun⟩

def firedTwice : Fleet Bool :=
  [FleetMove.tick false [] "now" 2000, .tick true [] "now" 2000, .next false "queued 1",
    .next true "queued 2"].foldl fleetAfter idleFleet

theorem schedule_fires_twice :
    ¬ ∀ s, Moves (act pair noCron) (fun _ _ => True) idleFleet s → (s.fired.map Prod.snd).Nodup := by
  intro h
  have htwice := h firedTwice (moves_foldl _ idleFleet)
  revert htwice
  decide +kernel

end Instances

end PesitWizard.Node
