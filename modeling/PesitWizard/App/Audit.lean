import PesitWizard.App.Rows
import PesitWizard.Library.Moves

/-! The audit log. Calls that record an event run at the same time; each of them locks the store
for the write, adds to the counter that all of them share, and locks the store again if it is
its turn to prune. -/

namespace PesitWizard.App

open Library

inductive Outcome
  | success | failure
  deriving DecidableEq

structure AuditEvent where
  id : String
  timestamp : String
  category : String
  action : String
  target : Option String
  actor : Option String
  detail : Option String
  outcome : Outcome
  deriving DecidableEq

abbrev pruneInterval : UInt64 := 256

/-- The log, and the calls of `record` under way that have still to be counted or to prune. The code
keeps neither the events that the store has taken nor how far the log may be over its cap because the
store has failed to prune it. -/
structure AuditLog where
  maxEntries : UInt64
  writes : UInt64
  table : Rows AuditEvent
  counting : ℕ
  pruning : ℕ
  accepted : List AuditEvent
  excess : ℕ

namespace AuditLog

def withRetention (t : Rows AuditEvent) (maxEntries : UInt64) (fails : Bool) : AuditLog :=
  let prunes := 0 < maxEntries && !fails
  { maxEntries
    writes := 0
    table := if prunes then (t.pruneOldest maxEntries).2 else t
    counting := 0
    pruning := 0
    accepted := []
    excess := if fails then t.rows.length else 0 }

inductive RecordMove
  | put (ev : AuditEvent) (fails : Bool)
  | fetchAdd
  | pruneOldest (fails : Bool)

def put (a : AuditLog) (ev : AuditEvent) (fails : Bool) : AuditLog :=
  match if fails then .error .sqlite else a.table.put ev.id ev with
  | .ok t => { a with table := t, accepted := a.accepted ++ [ev] }
  | .error _ => a

def step (a : AuditLog) : RecordMove → Option AuditLog
  | .put ev fails =>
    some { a.put ev fails with counting := if 0 < a.maxEntries then a.counting + 1 else a.counting }
  | .fetchAdd =>
    if 0 < a.counting then
      let a' := { a with counting := a.counting - 1, writes := a.writes + 1 }
      some (if a.writes % pruneInterval = 0 then { a' with pruning := a.pruning + 1 } else a')
    else none
  | .pruneOldest fails =>
    if 0 < a.pruning then
      let a' := { a with pruning := a.pruning - 1 }
      some (if fails then { a' with excess := a.excess + 256 }
        else { a' with table := (a.table.pruneOldest a.maxEntries).2, excess := 0 })
    else none

/-- A call of `record` that no other call comes between. -/
def record (a : AuditLog) (ev : AuditEvent) (putFails pruneFails : Bool) : AuditLog :=
  let a' := a.put ev putFails
  if 0 < a.maxEntries then
    let b := { a' with writes := a.writes + 1 }
    if a.writes % pruneInterval = 0 then
      if pruneFails then { b with excess := a.excess + 256 }
      else { b with table := (a'.table.pruneOldest a.maxEntries).2, excess := 0 }
    else b
  else a'

def recent (a : AuditLog) (limit : UInt64) : List AuditEvent := a.table.listRecent limit

def ofCategory (category : Option String) (e : AuditEvent) : Bool :=
  category.all fun c => e.category.toLower == c.toLower

def filtered (a : AuditLog) (category : Option String) (limit : UInt64) : List AuditEvent :=
  ((a.table.listRecent 5000).filter (ofCategory category)).take limit.toNat

def stats (a : AuditLog) : ℕ × ℕ × ℕ :=
  let all := a.table.list
  let failures := all.countP fun e => e.outcome = .failure
  (all.length, all.length - failures, failures)

/-- The identifier of a new event is drawn at random, and is taken not to be in the table yet. -/
def Fresh (a : AuditLog) : RecordMove → Prop
  | .put ev _ => a.table.get ev.id = none
  | _ => True

/-- How many calls have been counted since it was last a call's turn to prune. -/
def sincePrune (a : AuditLog) : ℕ := (a.writes.toNat + 255) % 256

structure Retains (t : Rows AuditEvent) (maxEntries : UInt64) (a : AuditLog) : Prop where
  cap : a.maxEntries = maxEntries
  unlimited : maxEntries = 0 → a.counting = 0 ∧ a.pruning = 0
  refines : ∃ u, a.table.Refines u
  newest : a.table.list <:+ t.list ++ a.accepted
  whole : maxEntries = 0 → a.table.list = t.list ++ a.accepted
  kept : min maxEntries.toNat (t.list ++ a.accepted).length ≤ a.table.list.length
  bounded : 0 < maxEntries →
    a.table.list.length ≤ maxEntries.toNat + a.excess + a.counting + a.sincePrune + 256 * a.pruning

variable {t t' : Rows AuditEvent} {u : Table String AuditEvent} {maxEntries : UInt64} {a a' : AuditLog}

lemma put_list (h : t.Refines u) {ev : AuditEvent} (hfresh : t.get ev.id = none)
    (hput : t.put ev.id ev = .ok t') :
    t'.list = t.list ++ [ev] := by
  have hnot : ev.id ∉ u.keys := by
    rw [← Table.find_eq_none, h.find, hfresh]
  rw [(h.put hput).list, h.list, Table.docs, Table.put_rows_of_not_mem hnot, List.map_append]
  rfl

lemma pruned_list (h : t.Refines u) (keep : UInt64) :
    (t.pruneOldest keep).2.list <:+ t.list ∧
    (t.pruneOldest keep).2.list.length = min keep.toNat t.list.length := by
  have hlist := (h.pruned keep).1
  rw [hlist, List.length_drop]
  refine ⟨List.drop_suffix _ _, ?_⟩
  omega

lemma put_cases (a : AuditLog) (ev : AuditEvent) (fails : Bool) : a.put ev fails = a ∨
    ∃ t, a.table.put ev.id ev = .ok t ∧
    a.put ev fails = { a with table := t, accepted := a.accepted ++ [ev] } := by
  rw [put]
  cases fails with
  | true => exact .inl rfl
  | false =>
    cases hput : a.table.put ev.id ev with
    | error e => exact .inl rfl
    | ok t => exact .inr ⟨t, rfl, rfl⟩

/-- Such a call makes its moves one after the other, whatever calls are under way. -/
lemma record_moves {ev : AuditEvent} (hfresh : a.table.get ev.id = none) (putFails pruneFails : Bool) :
    Moves step Fresh a (a.record ev putFails pruneFails) := by
  have hframe : ∃ t l, a.put ev putFails = { a with table := t, accepted := l } := by
    obtain h | ⟨t, -, h⟩ := a.put_cases ev putFails
    · exact ⟨_, _, h⟩
    · exact ⟨t, _, h⟩
  obtain ⟨t, l, hframe⟩ := hframe
  refine .head (b := { a with
    table := t, accepted := l, counting := if 0 < a.maxEntries then a.counting + 1 else a.counting })
    ⟨.put ev putFails, hfresh, by rw [step, hframe]⟩ ?_
  rw [record, hframe]
  dsimp only
  split
  · split
    · refine .head
        (b := { a with table := t, accepted := l, writes := a.writes + 1, pruning := a.pruning + 1 })
        ⟨.fetchAdd, trivial, ?_⟩ (.single ⟨.pruneOldest pruneFails, trivial, ?_⟩)
      · simp [step, *]
      · simp [step]
    · refine .single ⟨.fetchAdd, trivial, ?_⟩
      simp [step, *]
  · exact .refl

lemma sincePrune_counted (a : AuditLog) :
    1 + a.sincePrune = if a.writes % pruneInterval = 0 then 256 else
    (a.writes.toNat + 1 + 255) % 256 := by
  have hmod : (a.writes % pruneInterval).toNat = a.writes.toNat % 256 := UInt64.toNat_mod _ _
  have hzero : a.writes % pruneInterval = 0 ↔ a.writes.toNat % 256 = 0 := by
    rw [← hmod, ← UInt64.toNat_inj]
    rfl
  rw [sincePrune]
  split
  · rename_i h
    have := hzero.mp h
    omega
  · rename_i h
    have : ¬ a.writes.toNat % 256 = 0 := fun h' => h (hzero.mpr h')
    omega

namespace Retains

lemma withRetention (h : t.Refines u) (maxEntries : UInt64) (fails : Bool) :
    Retains t maxEntries (withRetention t maxEntries fails) := by
  have hlen : t.list.length = t.rows.length := by rw [h.list, Table.docs, List.length_map, h.length]
  by_cases hprunes : (0 < maxEntries && !fails) = true
  · obtain ⟨hsuffix, hkeep⟩ := pruned_list h maxEntries
    have hpos : 0 < maxEntries ∧ fails = false := by simpa using hprunes
    have htable : (AuditLog.withRetention t maxEntries fails).table = (t.pruneOldest maxEntries).2 :=
      if_pos hprunes
    have hrefines :
        (AuditLog.withRetention t maxEntries fails).table.Refines (u.keepLast maxEntries.toNat) := by
      rw [htable]
      exact h.pruneOldest maxEntries
    refine ⟨rfl, fun _ => ⟨rfl, rfl⟩, ⟨_, hrefines⟩, ?_, ?_, ?_, ?_⟩
    · rw [htable]
      simpa [AuditLog.withRetention] using hsuffix
    · rintro rfl
      exact absurd hpos.1 (by decide)
    · rw [htable, hkeep]
      simp [AuditLog.withRetention]
    · intro _
      rw [htable, hkeep]
      omega
  · have htable : (AuditLog.withRetention t maxEntries fails).table = t := if_neg hprunes
    have hrefines : (AuditLog.withRetention t maxEntries fails).table.Refines u := by
      rw [htable]
      exact h
    refine ⟨rfl, fun _ => ⟨rfl, rfl⟩, ⟨u, hrefines⟩, ?_, ?_, ?_, ?_⟩
    · rw [htable]
      simp [AuditLog.withRetention]
    · intro _
      rw [htable]
      simp [AuditLog.withRetention]
    · rw [htable]
      simp [AuditLog.withRetention]
    · intro hpos
      have hfails : fails = true := by simpa [hpos] using hprunes
      have hexcess : (AuditLog.withRetention t maxEntries fails).excess = t.rows.length := if_pos hfails
      rw [htable, hexcess]
      omega

/-- What leaves the table, the cap and the history as they are only has to keep the bound. -/
lemma congr (h : Retains t maxEntries a) (hcap : a'.maxEntries = a.maxEntries)
    (htable : a'.table = a.table) (haccepted : a'.accepted = a.accepted)
    (hunlimited : maxEntries = 0 → a'.counting = 0 ∧ a'.pruning = 0)
    (hbound : 0 < maxEntries → a.excess + a.counting + a.sincePrune + 256 * a.pruning ≤
      a'.excess + a'.counting + a'.sincePrune + 256 * a'.pruning) : Retains t maxEntries a' := by
  refine ⟨hcap.trans h.cap, hunlimited, ?_, ?_, ?_, ?_, ?_⟩
  · rw [htable]
    exact h.refines
  · rw [htable, haccepted]
    exact h.newest
  · rw [htable, haccepted]
    exact h.whole
  · rw [htable, haccepted]
    exact h.kept
  · intro hpos
    have := h.bounded hpos
    have := hbound hpos
    rw [htable]
    omega

lemma put (h : Retains t maxEntries a) {ev : AuditEvent} {fails : Bool}
    (hfresh : a.table.get ev.id = none) (hstep : a.step (.put ev fails) = some a') :
    Retains t maxEntries a' := by
  obtain ⟨u, hu⟩ := h.refines
  obtain rfl := Option.some.inj hstep
  have hunlimited (hmax : maxEntries = 0) :
      (if 0 < a.maxEntries then a.counting + 1 else a.counting) = 0 ∧ a.pruning = 0 := by
    have hnot : ¬ 0 < a.maxEntries := by
      rw [h.cap, hmax]
      decide
    rw [if_neg hnot]
    exact h.unlimited hmax
  obtain hput | ⟨t₁, hput, hnew⟩ := a.put_cases ev fails
  · rw [hput]
    refine h.congr rfl rfl rfl hunlimited fun _ => ?_
    change _ ≤ a.excess + (if 0 < a.maxEntries then a.counting + 1 else a.counting) +
      a.sincePrune + 256 * a.pruning
    split <;> omega
  · have hlist := put_list hu hfresh hput
    rw [hnew]
    refine ⟨h.cap, hunlimited, ⟨_, hu.put hput⟩, ?_, ?_, ?_, ?_⟩
    · dsimp only
      rw [hlist, ← List.append_assoc, List.suffix_append_inj_of_length_eq rfl]
      exact ⟨h.newest, rfl⟩
    · intro hmax
      dsimp only
      rw [hlist, h.whole hmax, List.append_assoc]
    · have := h.kept
      dsimp only
      simp only [hlist, List.length_append, List.length_singleton] at this ⊢
      omega
    · intro hpos
      have := h.bounded hpos
      have hcounting : 0 < a.maxEntries := h.cap ▸ hpos
      change t₁.list.length ≤ maxEntries.toNat + a.excess +
        (if 0 < a.maxEntries then a.counting + 1 else a.counting) + a.sincePrune + 256 * a.pruning
      rw [hlist, List.length_append, List.length_singleton, if_pos hcounting]
      omega

lemma fetchAdd (h : Retains t maxEntries a) (hstep : a.step .fetchAdd = some a') :
    Retains t maxEntries a' := by
  simp only [step, Option.ite_none_right_eq_some] at hstep
  obtain ⟨hcounting, hstep⟩ := hstep
  obtain rfl := Option.some.inj hstep
  have hlimited : maxEntries ≠ 0 := fun hmax => absurd (h.unlimited hmax).1 hcounting.ne'
  have hsince := a.sincePrune_counted
  have hwrites : (a.writes + 1).toNat % 256 = (a.writes.toNat + 1) % 256 := by
    rw [UInt64.toNat_add]
    have : (1 : UInt64).toNat = 1 := rfl
    omega
  split at hsince
  · rename_i hturn
    rw [if_pos hturn]
    refine h.congr rfl rfl rfl (fun hmax => absurd hmax hlimited) fun _ => ?_
    simp only [sincePrune] at hsince ⊢
    omega
  · rename_i hturn
    rw [if_neg hturn]
    refine h.congr rfl rfl rfl (fun hmax => absurd hmax hlimited) fun _ => ?_
    simp only [sincePrune] at hsince ⊢
    omega

lemma pruneOldest (h : Retains t maxEntries a) {fails : Bool}
    (hstep : a.step (.pruneOldest fails) = some a') :
    Retains t maxEntries a' := by
  simp only [step, Option.ite_none_right_eq_some] at hstep
  obtain ⟨hpruning, hstep⟩ := hstep
  obtain rfl := Option.some.inj hstep
  have hlimited : maxEntries ≠ 0 := fun hmax => absurd (h.unlimited hmax).2 hpruning.ne'
  cases fails with
  | true =>
    refine h.congr rfl rfl rfl (fun hmax => absurd hmax hlimited) fun _ => ?_
    change _ ≤ a.excess + 256 + a.counting + a.sincePrune + 256 * (a.pruning - 1)
    omega
  | false =>
    obtain ⟨u, hu⟩ := h.refines
    obtain ⟨hsuffix, hkeep⟩ := pruned_list hu a.maxEntries
    have hcap : a.maxEntries.toNat = maxEntries.toNat := congrArg UInt64.toNat h.cap
    refine ⟨h.cap, fun hmax => absurd hmax hlimited, ⟨_, hu.pruneOldest a.maxEntries⟩,
      hsuffix.trans h.newest, fun hmax => absurd hmax hlimited, ?_, fun _ => ?_⟩
    · have := h.kept
      change min maxEntries.toNat (t.list ++ a.accepted).length ≤
        (a.table.pruneOldest a.maxEntries).2.list.length
      omega
    · change (a.table.pruneOldest a.maxEntries).2.list.length ≤ _
      omega

lemma step (h : Retains t maxEntries a) (m : RecordMove) (hfresh : Fresh a m)
    (hstep : a.step m = some a') :
    Retains t maxEntries a' := by
  cases m with
  | put ev fails => exact h.put hfresh hstep
  | fetchAdd => exact h.fetchAdd hstep
  | pruneOldest fails => exact h.pruneOldest hstep

/-- As far as the log is kept, it reads as if nothing had been pruned. -/
lemma take_reverse (h : Retains t maxEntries a) {n : ℕ} (hn : maxEntries = 0 ∨ n ≤ maxEntries.toNat) :
    a.table.list.reverse.take n = (t.list ++ a.accepted).reverse.take n := by
  by_cases hall : a.table.list = t.list ++ a.accepted
  · rw [hall]
  · have hlen : n ≤ a.table.list.length := by
      have hkept := h.kept
      have hshort : a.table.list.length < (t.list ++ a.accepted).length :=
        lt_of_le_of_ne h.newest.length_le fun heq => hall (h.newest.eq_of_length heq)
      have := hn.resolve_left fun hmax => hall (h.whole hmax)
      omega
    have hprefix := List.reverse_prefix.mpr h.newest
    rw [List.prefix_iff_eq_take.mp hprefix, List.take_take, List.length_reverse, min_eq_left hlen]

end Retains

lemma recent_eq (h : Retains t maxEntries a) {limit : UInt64}
    (hlimit : maxEntries = 0 ∨ limit ≤ maxEntries) :
    a.table.listRecent limit = (t.list ++ a.accepted).reverse.take limit.toNat := by
  obtain ⟨u, hu⟩ := h.refines
  rw [← h.take_reverse (hlimit.imp_right UInt64.le_iff_toNat_le.mp), hu.listRecent, List.take_reverse]
  congr 2
  omega

/-- Whatever calls write to the log at the same time and wherever the store fails them, the log
reads, up to its cap, as if nothing were ever pruned. Over its cap there are at most 255 events,
those of calls that have still to be counted, 256 for each call that has still to prune, and what the
store has failed to prune. -/
theorem recent_newest (ht : t.Refines u) (fails : Bool)
    (h : Moves step Fresh (withRetention t maxEntries fails) a) :
    (∀ limit, (maxEntries = 0 ∨ limit ≤ maxEntries) →
      a.recent limit = (t.list ++ a.accepted).reverse.take limit.toNat) ∧
    ((maxEntries = 0 ∨ 5000 ≤ maxEntries) → ∀ category limit, a.filtered category limit =
      (((t.list ++ a.accepted).reverse.take 5000).filter (ofCategory category)).take limit.toNat) ∧
    (0 < maxEntries → a.stats.1 ≤ maxEntries.toNat + 255 + a.counting + 256 * a.pruning + a.excess) := by
  have hretains : Retains t maxEntries a :=
    h.invariant (fun _ m _ hs hfresh hm => hs.step m hfresh hm) (.withRetention ht _ _)
  refine ⟨?_, ?_, ?_⟩
  · intro limit hlimit
    exact recent_eq hretains hlimit
  · intro hmax category limit
    rw [filtered, recent_eq hretains hmax]
    rfl
  · intro hpos
    have hbound := hretains.bounded hpos
    have hsince : a.sincePrune < 256 := Nat.mod_lt _ (by decide)
    rw [stats]
    dsimp only
    omega

def sampleEvent (id : String) : AuditEvent :=
  ⟨id, "2026-03-01T08:00:00Z", "config", "create", some "partner:A", none, none, .success⟩

theorem recent_newest_capped :
    ((withRetention Rows.empty 1 false).record (sampleEvent "a") false false |>.record (sampleEvent "b")
      false true).recent 1 = [sampleEvent "b"] := by
  have ha := @record_moves (withRetention Rows.empty 1 false) (sampleEvent "a")
    (by decide +kernel) false false
  have hb := @record_moves ((withRetention Rows.empty 1 false).record (sampleEvent "a") false false)
    (sampleEvent "b") (by decide +kernel) false true
  exact ((recent_newest Rows.Refines.empty false (ha.trans hb)).1 1 (.inr (by decide))).trans
    (by decide +kernel)

end AuditLog

end PesitWizard.App
