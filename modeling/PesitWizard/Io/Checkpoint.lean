import PesitWizard.Core.Diag

/-! Synchronisation points kept for resynchronisation and restarts. -/

namespace PesitWizard.Io

structure Checkpoint where
  sync : ℕ
  fileOffset : ℕ
  dataBytes : ℕ
  articles : ℕ
  deriving DecidableEq

def Checkpoint.default : Checkpoint := ⟨0, 0, 0, 0⟩

/-- Points in ascending order of their numbers, as the map of the source keeps them. -/
def Ascending (points : List Checkpoint) : Prop := points.Pairwise (fun c d => c.sync < d.sync)

structure MemoryCheckpoints where
  points : List Checkpoint
  acknowledged : ℕ
  ascending : Ascending points

namespace MemoryCheckpoints

def empty : MemoryCheckpoints := ⟨[], 0, .nil⟩

def insert (cp : Checkpoint) : List Checkpoint → List Checkpoint
  | [] => [cp]
  | c :: cs => if c.sync < cp.sync then c :: insert cp cs else if c.sync = cp.sync then
    cp :: cs else cp :: c :: cs

lemma mem_insert {cp c : Checkpoint} {points : List Checkpoint} (h : c ∈ insert cp points) :
    c = cp ∨ c ∈ points := by
  induction points with
  | nil => exact .inl (List.mem_singleton.mp h)
  | cons d ds ih =>
    rw [insert] at h
    split at h
    · rcases List.mem_cons.mp h with rfl | h
      · exact .inr List.mem_cons_self
      · exact (ih h).imp_right (List.mem_cons_of_mem _)
    · split at h
      · exact (List.mem_cons.mp h).imp_right (List.mem_cons_of_mem _)
      · exact List.mem_cons.mp h

lemma insert_ascending (cp : Checkpoint) {points : List Checkpoint} (h : Ascending points) :
    Ascending (insert cp points) := by
  induction points with
  | nil => exact List.pairwise_singleton _ _
  | cons c cs ih =>
    obtain ⟨hc, hcs⟩ := List.pairwise_cons.mp h
    rw [insert]
    split
    · refine List.pairwise_cons.mpr ⟨?_, ih hcs⟩
      intro d hd
      rcases mem_insert hd with rfl | hd
      · assumption
      · exact hc d hd
    · split
      · refine List.pairwise_cons.mpr ⟨?_, hcs⟩
        intro d hd
        have := hc d hd
        omega
      · refine List.pairwise_cons.mpr ⟨?_, h⟩
        intro d hd
        rcases List.mem_cons.mp hd with rfl | hd
        · omega
        · have := hc d hd
          omega

def record (m : MemoryCheckpoints) (cp : Checkpoint) : MemoryCheckpoints :=
  { m with points := insert cp m.points, ascending := insert_ascending cp m.ascending }

def get (m : MemoryCheckpoints) (sync : ℕ) : Option Checkpoint :=
  if sync = 0 then some .default else m.points.find? (fun c => c.sync == sync)

def last (m : MemoryCheckpoints) : Option Checkpoint := m.points.getLast?

def lastAcknowledged (m : MemoryCheckpoints) : Option Checkpoint :=
  if m.acknowledged = 0 then none else m.points.find? (fun c => c.sync == m.acknowledged)

def acknowledge (m : MemoryCheckpoints) (sync : ℕ) : MemoryCheckpoints :=
  let acknowledged := max m.acknowledged sync
  ⟨m.points.filter (fun c => acknowledged ≤ c.sync), acknowledged, m.ascending.filter _⟩

def clear (_ : MemoryCheckpoints) : MemoryCheckpoints := ⟨[], 0, .nil⟩

lemma insert_last {cp : Checkpoint} {points : List Checkpoint} (h : ∀ c ∈ points, c.sync < cp.sync) :
    insert cp points = points ++ [cp] := by
  induction points with
  | nil => rfl
  | cons c cs ih =>
    rw [List.forall_mem_cons] at h
    rw [insert, if_pos h.1, ih h.2, List.cons_append]

lemma find_cons (cp : Checkpoint) (points : List Checkpoint) (n : ℕ) :
    (cp :: points).find? (fun c => c.sync == n) =
      if cp.sync = n then some cp else points.find? (fun c => c.sync == n) := by
  rw [List.find?_cons]
  by_cases h : cp.sync = n
  · rw [beq_iff_eq.mpr h, if_pos h]
  · rw [beq_eq_false_iff_ne.mpr h, if_neg h]

lemma find_insert (cp : Checkpoint) (points : List Checkpoint) (n : ℕ) :
    (insert cp points).find? (fun c => c.sync == n) =
      if cp.sync = n then some cp else points.find? (fun c => c.sync == n) := by
  induction points with
  | nil => rw [insert, find_cons]
  | cons c cs ih =>
    rw [insert]
    split
    · rename_i hlt
      rw [find_cons, find_cons, ih]
      split
      · rename_i hc
        rw [if_neg (by omega)]
      · rfl
    · split
      · rename_i heq
        rw [find_cons, find_cons]
        split
        · rfl
        · rename_i h
          rw [if_neg (by omega)]
      · rw [find_cons]

lemma get_record (m : MemoryCheckpoints) (cp : Checkpoint) {n : ℕ} (hn : n ≠ 0) :
    (m.record cp).get n = if cp.sync = n then some cp else m.get n := by
  simp only [get, if_neg hn, record, find_insert]

lemma acknowledge_acknowledged (m : MemoryCheckpoints) (k : ℕ) :
    (m.acknowledge k).acknowledged = max m.acknowledged k := rfl

lemma get_acknowledge (m : MemoryCheckpoints) {k n : ℕ} (h : (m.acknowledge k).acknowledged ≤ n) :
    (m.acknowledge k).get n = m.get n := by
  rw [acknowledge_acknowledged] at h
  simp only [get, acknowledge, List.find?_filter]
  split
  · rfl
  · congr 1
    funext c
    by_cases hc : c.sync = n <;> simp [hc]
    omega

def latest (recorded : List Checkpoint) (n : ℕ) : Option Checkpoint :=
  recorded.reverse.find? (fun c => c.sync == n)

lemma latest_append (recorded : List Checkpoint) (cp : Checkpoint) (n : ℕ) :
    latest (recorded ++ [cp]) n = if cp.sync = n then some cp else latest recorded n := by
  simp only [latest, List.reverse_append, List.reverse_cons, List.reverse_nil, List.nil_append,
    List.singleton_append, find_cons]

lemma latest_mem {recorded : List Checkpoint} {n : ℕ} {cp : Checkpoint}
    (h : latest recorded n = some cp) :
    cp ∈ recorded ∧ cp.sync = n := by
  refine ⟨List.mem_reverse.mp (List.mem_of_find?_eq_some h), ?_⟩
  simpa using List.find?_some h

lemma latest_some {recorded : List Checkpoint} {cp : Checkpoint} (h : cp ∈ recorded) :
    ∃ cp', latest recorded cp.sync = some cp' := by
  cases hfind : latest recorded cp.sync with
  | some cp' => exact ⟨cp', rfl⟩
  | none =>
    rw [latest, List.find?_eq_none] at hfind
    exact absurd (by simp) (hfind cp (List.mem_reverse.mpr h))

lemma get_mem {m : MemoryCheckpoints} {n : ℕ} (hn : n ≠ 0) {cp : Checkpoint} (h : m.get n = some cp) :
    cp ∈ m.points ∧ cp.sync = n := by
  rw [get, if_neg hn] at h
  refine ⟨List.mem_of_find?_eq_some h, ?_⟩
  simpa using List.find?_some h

lemma get_some {m : MemoryCheckpoints} {cp : Checkpoint} (h : cp ∈ m.points) :
    ∃ cp', m.get cp.sync = some cp' := by
  rw [get]
  split
  · exact ⟨_, rfl⟩
  · cases hfind : m.points.find? (fun c => c.sync == cp.sync) with
    | some cp' => exact ⟨cp', rfl⟩
    | none =>
      rw [List.find?_eq_none] at hfind
      exact absurd (by simp) (hfind cp h)

lemma le_last {m : MemoryCheckpoints} {c : Checkpoint} (h : c ∈ m.points) :
    ∃ l, m.last = some l ∧ c.sync ≤ l.sync := by
  obtain ⟨init, l, hl⟩ := List.eq_nil_or_concat m.points |>.resolve_left (List.ne_nil_of_mem h)
  have hasc := m.ascending
  rw [hl, List.concat_eq_append] at h
  rw [hl, Ascending, List.concat_eq_append, List.pairwise_append] at hasc
  refine ⟨l, by rw [last, hl, List.concat_eq_append, List.getLast?_concat], ?_⟩
  rcases List.mem_append.mp h with h | h
  · have := hasc.2.2 c h l (List.mem_singleton.mpr rfl)
    omega
  · obtain rfl := List.mem_singleton.mp h
    exact Nat.le_refl _

end MemoryCheckpoints

end PesitWizard.Io
