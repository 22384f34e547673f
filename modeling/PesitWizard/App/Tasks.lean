import Mathlib.Data.List.Perm.Subperm
import Mathlib.Logic.Function.Basic
import PesitWizard.App.Store
import PesitWizard.Library.Moves

/-! Tasks that use a table of the store at the same time. Every operation holds the lock for itself, so
that an update, which reads and then writes, holds it twice. -/

namespace PesitWizard.App

open Library

inductive Job (δ : Type)
  | put (key : String) (doc : δ)
  | delete (key : String)
  | update (key : String) (f : δ → δ)

inductive Phase (δ : Type)
  | ready
  | changed (doc : δ)
  | done (result : Bool)
  deriving DecidableEq

structure Tasks (N δ : Type) where
  table : Table String δ
  phase : N → Phase δ

namespace Tasks

variable {N δ : Type} (jobs : N → Job δ)

section Moves

variable [DecidableEq N]

def enter (s : Tasks N δ) (n : N) (phase : Phase δ) : Tasks N δ :=
  { s with phase := Function.update s.phase n phase }

def act (s : Tasks N δ) (n : N) : Option (Tasks N δ) :=
  match jobs n, s.phase n with
  | .put key doc, .ready => some ({ s with table := s.table.put key doc }.enter n (.done true))
  | .delete key, .ready =>
    some ({ s with table := s.table.erase key }.enter n (.done (s.table.find key).isSome))
  | .update key f, .ready =>
    match s.table.find key with
    | none => some (s.enter n (.done false))
    | some doc => some (s.enter n (.changed (f doc)))
  | .update key _, .changed doc => some ({ s with table := s.table.put key doc }.enter n (.done true))
  | _, _ => none

end Moves

/-- The task is about to put or to delete the document with the key. -/
def Writes (key : String) (s : Tasks N δ) (n : N) : Prop :=
  jobs n = .delete key ∨ ∃ f doc, jobs n = .update key f ∧ s.phase n = .changed doc

/-- An update of the key has read the document and not yet written it. -/
def Between (key : String) (s : Tasks N δ) (n : N) : Prop :=
  ∃ f doc, jobs n = .update key f ∧ s.phase n = .changed doc

/-- Nothing writes the key while another task is in an update of it. -/
def Alone (key : String) (s : Tasks N δ) (n : N) : Prop :=
  Writes jobs key s n → ∀ m, m ≠ n → ¬ Between jobs key s m

def Job.change : Job δ → δ → δ
  | .update _ f => f
  | _ => id

def changes (order : List N) (doc : δ) : δ := order.foldl (fun doc n => Job.change (jobs n) doc) doc

def Updates (key : String) (n : N) : Prop := ∃ f, jobs n = .update key f

def Deleted (key : String) (s : Tasks N δ) : Prop := ∃ n, jobs n = .delete key ∧ s.phase n ≠ .ready

/-- The document is what the updates that are done have made of the first one, in some order. -/
def Serial (key : String) (doc : δ) (s : Tasks N δ) : Prop :=
  ∃ order : List N, order.Nodup ∧ (∀ n, n ∈ order ↔ Updates jobs key n ∧ ∃ b, s.phase n = .done b) ∧
    s.table.find key = some (changes jobs order doc)

/-- No update is lost, and none brings a document back that was deleted. -/
def Lossless (key : String) (doc : δ) (s : Tasks N δ) : Prop :=
  (¬ Deleted jobs key s → Serial jobs key doc s) ∧ (Deleted jobs key s → s.table.find key = none)

variable {jobs} {key : String} {doc : δ} {s s' : Tasks N δ} {n : N}

lemma changes_concat (order : List N) (n : N) (doc : δ) :
    changes jobs (order ++ [n]) doc = Job.change (jobs n) (changes jobs order doc) := by
  rw [changes, List.foldl_append]
  rfl

/-- What is kept as long as nothing writes the key while another task is in an update of it: an update
that has read the document has changed the one that is there. -/
structure Orderly (jobs : N → Job δ) (key : String) (doc : δ) (s : Tasks N δ) : Prop where
  lossless : Lossless jobs key doc s
  fresh : ∀ n f d, jobs n = .update key f → s.phase n = .changed d →
    ∃ c, s.table.find key = some c ∧ d = f c

/-- The jobs write no other document under the key. -/
def NoPuts (jobs : N → Job δ) (key : String) : Prop := ∀ n k d, jobs n = .put k d → k ≠ key

lemma Orderly.present (h : Orderly jobs key doc s) {c : δ} (hc : s.table.find key = some c) :
    ¬ Deleted jobs key s := by
  intro hdel
  rw [h.lossless.2 hdel] at hc
  cases hc

lemma Orderly.absent (h : Orderly jobs key doc s) (hc : s.table.find key = none) :
    Deleted jobs key s := by
  by_contra hdel
  obtain ⟨order, -, -, hfind⟩ := h.lossless.1 hdel
  rw [hc] at hfind
  cases hfind

variable [DecidableEq N]

@[simp] lemma enter_table (s : Tasks N δ) (n : N) (phase : Phase δ) :
    (s.enter n phase).table = s.table := rfl

lemma enter_phase (s : Tasks N δ) (n m : N) (phase : Phase δ) :
    (s.enter n phase).phase m = if m = n then phase else s.phase m := by
  simp only [enter, Function.update_apply]

lemma act_cases (h : act jobs s n = some s') :
    (∃ k d, jobs n = .put k d ∧ s.phase n = .ready ∧
      s' = { s with table := s.table.put k d }.enter n (.done true)) ∨
      (∃ k, jobs n = .delete k ∧ s.phase n = .ready ∧
        s' = { s with table := s.table.erase k }.enter n (.done (s.table.find k).isSome)) ∨
      (∃ k f, jobs n = .update k f ∧ s.phase n = .ready ∧
        (s.table.find k = none ∧ s' = s.enter n (.done false) ∨
          ∃ d, s.table.find k = some d ∧ s' = s.enter n (.changed (f d)))) ∨
      ∃ k f d, jobs n = .update k f ∧ s.phase n = .changed d ∧
        s' = { s with table := s.table.put k d }.enter n (.done true) := by
  rw [act] at h
  cases hjob : jobs n with
  | put k d =>
    cases hphase : s.phase n with
    | ready =>
      simp only [hjob, hphase, Option.some.injEq] at h
      exact .inl ⟨k, d, rfl, rfl, h.symm⟩
    | changed d' => simp [hjob, hphase] at h
    | done b => simp [hjob, hphase] at h
  | delete k =>
    cases hphase : s.phase n with
    | ready =>
      simp only [hjob, hphase, Option.some.injEq] at h
      exact .inr (.inl ⟨k, rfl, rfl, h.symm⟩)
    | changed d' => simp [hjob, hphase] at h
    | done b => simp [hjob, hphase] at h
  | update k f =>
    cases hphase : s.phase n with
    | ready =>
      refine .inr (.inr (.inl ⟨k, f, rfl, rfl, ?_⟩))
      cases hfind : s.table.find k with
      | none =>
        simp only [hjob, hphase, hfind, Option.some.injEq] at h
        exact .inl ⟨rfl, h.symm⟩
      | some d =>
        simp only [hjob, hphase, hfind, Option.some.injEq] at h
        exact .inr ⟨d, rfl, h.symm⟩
    | changed d =>
      simp only [hjob, hphase, Option.some.injEq] at h
      exact .inr (.inr (.inr ⟨k, f, d, rfl, rfl, h.symm⟩))
    | done b => simp [hjob, hphase] at h

lemma Orderly.frame (h : Orderly jobs key doc s) {t : Table String δ}
    (ht : t.find key = s.table.find key) (hupdate : ¬ Updates jobs key n)
    (hdelete : jobs n ≠ .delete key) (phase : Phase δ) :
    Orderly jobs key doc ({ s with table := t }.enter n phase) := by
  have hphase : ∀ m, m ≠ n → ({ s with table := t }.enter n phase).phase m = s.phase m := by
    intro m hm
    rw [enter_phase, if_neg hm]
  have hdeleted : Deleted jobs key ({ s with table := t }.enter n phase) ↔ Deleted jobs key s := by
    refine exists_congr fun m => and_congr_right fun hm => ?_
    rw [hphase m (by rintro rfl; exact hdelete hm)]
  refine ⟨⟨?_, ?_⟩, ?_⟩
  · intro hnot
    obtain ⟨order, hnodup, hmem, hfind⟩ := h.lossless.1 (fun hdel => hnot (hdeleted.mpr hdel))
    refine ⟨order, hnodup, ?_, ht.trans hfind⟩
    intro m
    rw [hmem m]
    refine and_congr_right fun hm => ?_
    rw [hphase m (by rintro rfl; exact hupdate hm)]
  · intro hdel
    exact ht.trans (h.lossless.2 (hdeleted.mp hdel))
  · intro m f d hm hphase'
    rw [hphase m (by rintro rfl; exact hupdate ⟨f, hm⟩)] at hphase'
    obtain ⟨c, hc, hd⟩ := h.fresh m f d hm hphase'
    exact ⟨c, ht.trans hc, hd⟩

lemma Orderly.read (h : Orderly jobs key doc s) {f : δ → δ} (hjob : jobs n = .update key f)
    (hready : s.phase n = .ready) :
    (s.table.find key = none → Orderly jobs key doc (s.enter n (.done false))) ∧
      ∀ c, s.table.find key = some c → Orderly jobs key doc (s.enter n (.changed (f c))) := by
  have hdeleted : ∀ phase, Deleted jobs key (s.enter n phase) ↔ Deleted jobs key s := by
    intro phase
    refine exists_congr fun m => and_congr_right fun hm => ?_
    rw [enter_phase, if_neg]
    rintro rfl
    rw [hjob] at hm
    cases hm
  refine ⟨?_, ?_⟩
  · intro hnone
    have hdel := h.absent hnone
    refine ⟨⟨fun hnot => absurd ((hdeleted _).mpr hdel) hnot, fun _ => hnone⟩, ?_⟩
    intro m g d hm hphase
    rw [enter_phase] at hphase
    split at hphase
    · cases hphase
    · exact h.fresh m g d hm hphase
  · intro c hc
    have hpresent := h.present hc
    refine ⟨⟨?_, fun hdel => absurd ((hdeleted _).mp hdel) hpresent⟩, ?_⟩
    · intro _
      obtain ⟨order, hnodup, hmem, hfind⟩ := h.lossless.1 hpresent
      refine ⟨order, hnodup, ?_, hfind⟩
      intro m
      rw [hmem m]
      refine and_congr_right fun _ => ?_
      rw [enter_phase]
      split
      · rename_i hm
        rw [hm, hready]
        simp
      · rfl
    · intro m g d hm hphase
      rw [enter_phase] at hphase
      split at hphase
      · rename_i hmn
        rw [hmn, hjob] at hm
        cases hm
        cases hphase
        exact ⟨c, hc, rfl⟩
      · exact h.fresh m g d hm hphase

lemma Orderly.write (h : Orderly jobs key doc s) (hok : Alone jobs key s n) {f : δ → δ} {d : δ}
    (hjob : jobs n = .update key f) (hchanged : s.phase n = .changed d) :
    Orderly jobs key doc ({ s with table := s.table.put key d }.enter n (.done true)) := by
  obtain ⟨c, hc, rfl⟩ := h.fresh n f d hjob hchanged
  have halone := hok (.inr ⟨f, f c, hjob, hchanged⟩)
  have hpresent := h.present hc
  refine ⟨⟨?_, ?_⟩, ?_⟩
  · intro _
    obtain ⟨order, hnodup, hmem, hfind⟩ := h.lossless.1 hpresent
    have hnew : n ∉ order := by
      intro hn
      obtain ⟨-, b, hb⟩ := (hmem n).mp hn
      rw [hchanged] at hb
      cases hb
    refine ⟨order ++ [n], ?_, ?_, ?_⟩
    · rw [List.nodup_append]
      refine ⟨hnodup, List.nodup_singleton n, ?_⟩
      intro a ha b hb
      obtain rfl := List.mem_singleton.mp hb
      rintro rfl
      exact hnew ha
    · intro m
      rw [List.mem_append, List.mem_singleton, hmem m, enter_phase]
      by_cases hm : m = n
      · subst hm
        rw [if_pos rfl]
        exact iff_of_true (.inr rfl) ⟨⟨f, hjob⟩, true, rfl⟩
      · rw [if_neg hm]
        simp [hm]
    · rw [hc] at hfind
      obtain rfl := Option.some.inj hfind
      rw [enter_table, Table.find_put, if_pos rfl, changes_concat, hjob]
      rfl
  · rintro ⟨m, hm, hphase⟩
    refine absurd ⟨m, hm, ?_⟩ hpresent
    rwa [enter_phase, if_neg] at hphase
    rintro rfl
    rw [hjob] at hm
    cases hm
  · intro m g d hm hphase
    rw [enter_phase] at hphase
    split at hphase
    · cases hphase
    · rename_i hmn
      exact absurd ⟨g, d, hm, hphase⟩ (halone m hmn)

lemma orderly_delete (doc : δ) (hok : Alone jobs key s n) (hjob : jobs n = .delete key) (b : Bool) :
    Orderly jobs key doc ({ s with table := s.table.erase key }.enter n (.done b)) := by
  have halone := hok (.inl hjob)
  have hgone : (s.table.erase key).find key = none := by rw [Table.find_erase, if_pos rfl]
  refine ⟨⟨?_, fun _ => hgone⟩, ?_⟩
  · intro hnot
    refine absurd ⟨n, hjob, ?_⟩ hnot
    rw [enter_phase, if_pos rfl]
    rintro ⟨⟩
  · intro m g d hm hphase
    rw [enter_phase] at hphase
    split at hphase
    · cases hphase
    · rename_i hmn
      exact absurd ⟨g, d, hm, hphase⟩ (halone m hmn)

lemma Orderly.act (hputs : NoPuts jobs key) (h : Orderly jobs key doc s) (hok : Alone jobs key s n)
    (hact : act jobs s n = some s') : Orderly jobs key doc s' := by
  have hcases := act_cases hact
  by_cases hdelete : jobs n = .delete key
  · obtain ⟨k, d, hjob, -⟩ | ⟨k, hjob, -, rfl⟩ | ⟨k, f, hjob, -⟩ | ⟨k, f, d, hjob, -⟩ := hcases
    all_goals
      rw [hdelete] at hjob
      cases hjob
    exact orderly_delete doc hok hdelete _
  by_cases hupdate : Updates jobs key n
  · obtain ⟨f, hf⟩ := hupdate
    obtain ⟨k, d, hjob, -⟩ | ⟨k, hjob, -⟩ | ⟨k, f, hjob, hready, hread⟩ | ⟨k, f, d, hjob,
        hchanged, rfl⟩ := hcases
    all_goals
      rw [hf] at hjob
      cases hjob
    · obtain ⟨hnone, rfl⟩ | ⟨d, hsome, rfl⟩ := hread
      · exact (h.read hf hready).1 hnone
      · exact (h.read hf hready).2 d hsome
    · exact h.write hok hf hchanged
  -- the other jobs leave the document alone
  obtain ⟨k, d, hjob, -, rfl⟩ | ⟨k, hjob, -, rfl⟩ | ⟨k, f, hjob, -, hread⟩ | ⟨k, f, d, hjob, -, rfl⟩ :=
    hcases
  · refine h.frame ?_ hupdate hdelete _
    rw [Table.find_put, if_neg (hputs n k d hjob).symm]
  · refine h.frame ?_ hupdate hdelete _
    rw [Table.find_erase, if_neg]
    rintro rfl
    exact hdelete hjob
  · obtain ⟨-, rfl⟩ | ⟨d, -, rfl⟩ := hread
    · exact h.frame rfl hupdate hdelete _
    · exact h.frame rfl hupdate hdelete _
  · refine h.frame ?_ hupdate hdelete _
    rw [Table.find_put, if_neg]
    rintro rfl
    exact hupdate ⟨f, hjob⟩

/-- In every run in which nothing writes the key while another task is in an update of it, the document
is at any time what all the updates that are done have made of it in some order, and it stays away once
it has been deleted. -/
theorem updates_lossless (hputs : NoPuts jobs key) {s₀ : Tasks N δ} (hready : ∀ n, s₀.phase n = .ready)
    (hdoc : s₀.table.find key = some doc) (hrun : Moves (act jobs) (Alone jobs key) s₀ s) :
    Lossless jobs key doc s := by
  have horderly : Orderly jobs key doc s := by
    refine hrun.invariant (fun _ _ _ h hok hact => h.act hputs hok hact) ⟨⟨?_, ?_⟩, ?_⟩
    · intro _
      refine ⟨[], List.nodup_nil, ?_, hdoc⟩
      intro n
      rw [hready n]
      simp
    · rintro ⟨n, -, hn⟩
      exact absurd (hready n) hn
    · intro n f d _ hn
      rw [hready n] at hn
      cases hn
  exact horderly.lossless

end Tasks

section Instances

open Tasks

def counting : Option Bool → Job ℕ
  | some _ => .update "t1" (· + 1)
  | none => .delete "t1"

def countingTasks : Tasks (Option Bool) ℕ := ⟨Table.empty.put "t1" 0, fun _ => .ready⟩

def countedBy (order : List (Option Bool)) : Tasks (Option Bool) ℕ :=
  order.foldl (after (act counting)) countingTasks

lemma changes_counting (order : List (Option Bool)) (n : ℕ) :
    changes counting order n = n + order.countP Option.isSome := by
  induction order using List.reverseRecOn with
  | nil => rfl
  | append_singleton order m ih =>
    rw [changes_concat, ih, List.countP_append]
    cases m <;> rfl

lemma alone_counting {s : Tasks (Option Bool) ℕ} {n : Option Bool}
    (h : ∀ m ∈ [some true, some false], m ≠ n → s.phase m = .ready ∨ s.phase m = .done true) :
    Alone counting "t1" s n := by
  rintro - m hm ⟨f, d, hjob, hphase⟩
  have hmem : m ∈ [some true, some false] := by
    match m with
    | none => cases hjob
    | some true => exact .head _
    | some false => exact .tail _ (.head _)
  rcases h m hmem hm with heq | heq
  · rw [heq] at hphase
    cases hphase
  · rw [heq] at hphase
    cases hphase

lemma countedBy_concat (order : List (Option Bool)) (n : Option Bool) :
    countedBy (order ++ [n]) = after (act counting) (countedBy order) n := by
  rw [countedBy, List.foldl_append]
  rfl

theorem updates_lossless_twice :
    Lossless counting "t1" 0 (countedBy [some true, some true, some false, some false]) := by
  have hruns :
      ∀ order n, Alone counting "t1" (countedBy order) n →
      (act counting (countedBy order) n).isSome = true →
      Steps (act counting) (Alone counting "t1") (countedBy order) (countedBy (order ++ [n])) := by
    intro order n hok hact
    rw [countedBy_concat]
    exact steps_after hok hact
  have hfirst := (hruns [] (some true) (alone_counting (by decide +kernel)) (by decide +kernel))
  have hsecond :=
    (hruns [some true] (some true) (alone_counting (by decide +kernel)) (by decide +kernel))
  have hthird :=
    (hruns [some true, some true] (some false) (alone_counting (by decide +kernel)) (by decide +kernel))
  have hfourth :=
    (hruns [some true, some true, some false] (some false) (alone_counting (by decide +kernel))
    (by decide +kernel))
  refine updates_lossless ?_ (fun _ => rfl) (by decide +kernel)
    (.head hfirst (.head hsecond (.head hthird (.single hfourth))))
  intro n k d h
  cases n <;> cases h

/-- Both tasks read before one of them writes; and a task reads, the document is
deleted, the task writes. -/
theorem updates_lossy :
    (¬ ∀ s, Moves (act counting) (fun _ _ => True) countingTasks s →
      ¬ Deleted counting "t1" s → Serial counting "t1" 0 s) ∧
      ¬ ∀ s, Moves (act counting) (fun _ _ => True) countingTasks s →
        Deleted counting "t1" s → s.table.find "t1" = none := by
  refine ⟨?_, ?_⟩
  · intro h
    have hpresent :
        ¬ Deleted counting "t1" (countedBy [some true, some false, some true, some false]) := by
      rintro ⟨n, hn, hphase⟩
      cases n with
      | none => exact hphase (by decide +kernel)
      | some b => cases hn
    obtain ⟨order, -, hmem, hfind⟩ :=
      h (countedBy [some true, some false, some true, some false]) (moves_foldl _ countingTasks) hpresent
    have hboth : [some true, some false] ⊆ order := by
      rw [List.cons_subset, List.cons_subset, hmem, hmem]
      exact ⟨⟨⟨_, rfl⟩, true, by decide +kernel⟩, ⟨⟨_, rfl⟩, true, by decide +kernel⟩, List.nil_subset _⟩
    have hcount := (List.subperm_of_subset (by decide) hboth).countP_le Option.isSome
    rw [changes_counting] at hfind
    have hone : (countedBy [some true, some false, some true, some false]).table.find "t1" = some 1 := by
      decide +kernel
    rw [hone, Option.some.injEq] at hfind
    have htwo : [some true, some false].countP Option.isSome = 2 := rfl
    omega
  · intro h
    have hback :=
      h (countedBy [some true, none, some true]) (moves_foldl _ countingTasks)
        ⟨none, rfl, by decide +kernel⟩
    have hone : (countedBy [some true, none, some true]).table.find "t1" = some 1 := by decide +kernel
    rw [hone] at hback
    cases hback

end Instances

end PesitWizard.App
