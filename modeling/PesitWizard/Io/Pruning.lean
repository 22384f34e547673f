import Mathlib.Data.List.Induction
import PesitWizard.Io.Checkpoint

/-! What an acknowledgement takes out of the store of checkpoints, in any history of calls. The mark that
prunes is the highest number acknowledged so far, which outlives a restart at a lower point and may be
above every point there is. -/

namespace PesitWizard.Io.MemoryCheckpoints

/-- What the sender does with its store. A start or a resynchronisation sets the number the next point
counts on from; the number of an acknowledgement is the one the peer sent. -/
inductive Call
  | start (sync : ℕ)
  | record (fileOffset dataBytes articles : ℕ)
  | acknowledge (sync : ℕ)
  deriving DecidableEq

structure Caller where
  sync : ℕ
  store : MemoryCheckpoints

def call (s : Caller) : Call → Caller
  | .start n => { s with sync := n }
  | .record fileOffset dataBytes articles =>
    ⟨s.sync + 1, s.store.record ⟨s.sync + 1, fileOffset, dataBytes, articles⟩⟩
  | .acknowledge n => { s with store := s.store.acknowledge n }

def after (cs : List Call) : Caller := cs.foldl call ⟨0, empty⟩

lemma call_positive {s : Caller} (h : ∀ c ∈ s.store.points, c.sync ≠ 0) (a : Call) :
    ∀ c ∈ (call s a).store.points, c.sync ≠ 0 := by
  intro c hc
  cases a with
  | start n => exact h c hc
  | record fileOffset dataBytes articles =>
    rcases mem_insert hc with rfl | hc
    · exact Nat.succ_ne_zero _
    · exact h c hc
  | acknowledge n => exact h c (List.mem_of_mem_filter hc)

lemma after_positive (cs : List Call) : ∀ c ∈ (after cs).store.points, c.sync ≠ 0 := by
  induction cs using List.reverseRecOn with
  | nil => exact fun c hc => absurd hc List.not_mem_nil
  | append_singleton cs a ih =>
    rw [after, List.foldl_append]
    exact call_positive ih a

def Keeps (m : MemoryCheckpoints) (n : ℕ) : Prop :=
  (m.acknowledge n).last = m.last ∧ ∀ k, n ≤ k → (m.acknowledge n).get k = m.get k

/-- The number is not above the last point, and no point from it on lies below what has been
acknowledged before. -/
def Acknowledgeable (m : MemoryCheckpoints) (n : ℕ) : Prop :=
  (∀ l, m.last = some l → n ≤ l.sync) ∧ ∀ c ∈ m.points, n ≤ c.sync → m.acknowledged ≤ c.sync

lemma last_mem {m : MemoryCheckpoints} {l : Checkpoint} (h : m.last = some l) : l ∈ m.points :=
  List.mem_of_getLast? h

lemma mem_acknowledge {m : MemoryCheckpoints} {n : ℕ} {c : Checkpoint} :
    c ∈ (m.acknowledge n).points ↔ c ∈ m.points ∧ m.acknowledged ≤ c.sync ∧ n ≤ c.sync := by
  simp only [acknowledge, List.mem_filter, decide_eq_true_eq, Nat.max_le]

lemma last_acknowledge {m : MemoryCheckpoints} {n : ℕ} {l : Checkpoint} (h : m.last = some l)
    (hl : m.acknowledged ≤ l.sync) (hn : n ≤ l.sync) : (m.acknowledge n).last = some l := by
  obtain ⟨init, hinit⟩ := List.getLast?_eq_some_iff.mp h
  simp only [last, acknowledge, hinit, List.filter_append]
  have hkept : decide (max m.acknowledged n ≤ l.sync) = true := decide_eq_true (Nat.max_le.mpr ⟨hl, hn⟩)
  rw [List.filter_singleton, hkept, cond_true, List.getLast?_concat]

lemma eq_of_sync {points : List Checkpoint} (hasc : Ascending points) {c d : Checkpoint}
    (hc : c ∈ points) (hd : d ∈ points) (h : c.sync = d.sync) : c = d := by
  have hpair := List.pairwise_iff_getElem.mp hasc
  obtain ⟨i, hi, rfl⟩ := List.mem_iff_getElem.mp hc
  obtain ⟨j, hj, rfl⟩ := List.mem_iff_getElem.mp hd
  rcases Nat.lt_trichotomy i j with hij | rfl | hij
  · have := hpair i j hi hj hij
    omega
  · rfl
  · have := hpair j i hj hi hij
    omega

lemma get_iff {m : MemoryCheckpoints} {k : ℕ} (hk : k ≠ 0) {c : Checkpoint} :
    m.get k = some c ↔ c ∈ m.points ∧ c.sync = k := by
  constructor
  · exact get_mem hk
  · rintro ⟨hc, rfl⟩
    obtain ⟨d, hget⟩ := get_some hc
    obtain ⟨hd, hsync⟩ := get_mem hk hget
    rw [hget, eq_of_sync m.ascending hd hc hsync]

lemma keeps_of_acknowledgeable {m : MemoryCheckpoints} {n : ℕ}
    (h : Acknowledgeable m n) : Keeps m n := by
  obtain ⟨hlast, hkept⟩ := h
  constructor
  · cases hl : m.last with
    | none =>
      have hnil : m.points = [] := List.getLast?_eq_none_iff.mp hl
      simp [last, acknowledge, hnil]
    | some l => exact last_acknowledge hl (hkept l (last_mem hl) (hlast l hl)) (hlast l hl)
  · intro k hk
    by_cases hzero : k = 0
    · subst hzero
      rfl
    · apply Option.ext
      intro c
      rw [get_iff hzero, get_iff hzero, mem_acknowledge]
      constructor
      · rintro ⟨⟨hc, -, -⟩, hsync⟩
        exact ⟨hc, hsync⟩
      · rintro ⟨hc, rfl⟩
        exact ⟨⟨hc, hkept c hc hk, hk⟩, rfl⟩

lemma acknowledgeable_of_keeps {m : MemoryCheckpoints} (hpos : ∀ c ∈ m.points, c.sync ≠ 0) {n : ℕ}
    (h : Keeps m n) :
    Acknowledgeable m n := by
  obtain ⟨hlast, hget⟩ := h
  constructor
  · intro l hl
    rw [hl] at hlast
    exact (mem_acknowledge.mp (last_mem hlast)).2.2
  · intro c hc hn
    have hg : m.get c.sync = some c := (get_iff (hpos c hc)).mpr ⟨hc, rfl⟩
    rw [← hget c.sync hn, get_iff (hpos c hc)] at hg
    exact (mem_acknowledge.mp hg.1).2.1

theorem acknowledge_keeps_iff (cs : List Call) (n : ℕ) :
    Keeps (after cs).store n ↔ Acknowledgeable (after cs).store n :=
  ⟨acknowledgeable_of_keeps (after_positive cs), keeps_of_acknowledgeable⟩

/-- A number above the last point takes every point away, and so does the mark after a
restart below it. -/
theorem acknowledge_loses :
    ¬ Keeps (after [.start 0, .record 100 100 1]).store 5 ∧
    ¬ Keeps (after [.start 0, .record 100 100 1, .record 200 200 2, .acknowledge 2, .start 0,
      .record 100 100 1]).store 1 := by
  constructor
  · intro h
    exact absurd h.1 (by decide)
  · intro h
    exact absurd (h.2 1 (Nat.le_refl 1)) (by decide)

end PesitWizard.Io.MemoryCheckpoints
