import PesitWizard.Node.Replication

/-! The leader of a cluster. A lease in the key-value store of the cluster says who it is until it
expires, and every node looks at it from time to time. -/

namespace PesitWizard.Node

open Library

/-- How far a node has come in its turn: it has read who holds the lease, and then it has decided
whether it leads. -/
inductive Turn
  | idle
  | read (held : Option String)
  | decided (leader : Bool)
  deriving DecidableEq

structure Election (N : Type) where
  lease : Option String
  turn : N → Turn
  isLeader : N → Bool

/-- A request may not reach the store, or its answer may be lost. A lease expires by itself, and a node
may stop at any time and start again. -/
inductive ElectionMove (N : Type)
  | read (n : N) (answered : Bool)
  | decide (n : N) (reached answered : Bool)
  | settle (n : N)
  | stop (n : N)
  | expire

def ElectionMove.expires {N : Type} : ElectionMove N → ℕ
  | .expire => 1
  | _ => 0

namespace Election

variable {N : Type} (net : Nodes N)

def initial (lease : Option String) : Election N := ⟨lease, fun _ => .idle, fun _ => false⟩

section Turns

variable [DecidableEq N]

def setTurn (s : Election N) (n : N) (t : Turn) : Election N :=
  { s with turn := Function.update s.turn n t }

/-- A node that holds the lease puts it once more, whoever has it by now, and leads even if that fails. A
node that finds no lease creates one, which fails if there is one by now. -/
def act (s : Election N) (n : N) (reached answered : Bool) : Option String → Election N
  | some holder =>
    if holder = net.id n then
      { s.setTurn n (.decided true) with lease := if reached then some (net.id n) else s.lease }
    else s.setTurn n (.decided false)
  | none =>
    if reached ∧ s.lease = none then { s.setTurn n (.decided answered) with lease := some (net.id n) }
    else s.setTurn n (.decided false)

def step (s : Election N) : ElectionMove N → Option (Election N)
  | .read n answered => if s.turn n = .idle then
    some (s.setTurn n (.read (if answered then s.lease else none))) else none
  | .decide n reached answered =>
    match s.turn n with
    | .read held => some (s.act net n reached answered held)
    | _ => none
  | .settle n =>
    match s.turn n with
    | .decided leader => some { s.setTurn n .idle with isLeader := Function.update s.isLeader n leader }
    | _ => none
  | .stop n => some { s.setTurn n .idle with isLeader := Function.update s.isLeader n false }
  | .expire => some { s with lease := none }

end Turns

/-- The node leads, or it is about to. -/
def Claims (s : Election N) (n : N) : Prop :=
  s.isLeader n = true ∨ s.turn n = .decided true ∨ s.turn n = .read (some (net.id n))

/-- The node leads, or it is about to, and does not hold the lease. -/
def Rival (s : Election N) (n : N) : Prop := s.Claims net n ∧ s.lease ≠ some (net.id n)

def Few (s : Election N) (k : ℕ) : Prop :=
  ∀ l : List N, l.Nodup → (∀ n ∈ l, s.Rival net n) → l.length ≤ k

variable {net} {s s' : Election N} {n : N} {k : ℕ}

section Rivals

lemma Few.mono (h : s.Few net k) (hrival : ∀ m, s'.Rival net m → s.Rival net m) : s'.Few net k :=
  fun l hl hs => h l hl fun m hm => hrival m (hs m hm)

lemma holder_alone (net : Nodes N) {l : List N} (hl : l.Nodup) (lease : Option String) :
    (l.filter fun m => lease = some (net.id m)).length ≤ 1 := by
  have hnodup := hl.filter fun m => decide (lease = some (net.id m))
  have hsame : ∀ m ∈ l.filter fun m => decide (lease = some (net.id m)), lease = some (net.id m) := by
    intro m hm
    exact of_decide_eq_true (List.mem_filter.mp hm).2
  generalize l.filter (fun m => decide (lease = some (net.id m))) = holders at hnodup hsame ⊢
  cases holders with
  | nil => exact Nat.zero_le 1
  | cons a rest =>
    cases rest with
    | nil => exact le_rfl
    | cons b rest =>
      have heq := (hsame a (by simp)).symm.trans (hsame b (by simp))
      have hab : a = b := net.injective (Option.some.inj heq)
      exact absurd (hab ▸ List.mem_cons_self) (List.nodup_cons.mp hnodup).1

lemma length_le_others (net : Nodes N) {l : List N} (hl : l.Nodup) (lease : Option String) :
    l.length ≤ (l.filter fun m => lease ≠ some (net.id m)).length + 1 := by
  have hsplit := List.length_eq_length_filter_add (l := l) fun m => decide (lease ≠ some (net.id m))
  have hholders := holder_alone net hl lease
  simp only [decide_not, Bool.not_not] at hsplit ⊢
  omega

/-- Of the nodes that claim to lead, all but one are rivals. -/
lemma Few.claimants (h : s.Few net k) {l : List N} (hl : l.Nodup) (hs : ∀ m ∈ l, s.Claims net m) :
    l.length ≤ k + 1 := by
  refine le_trans (length_le_others net hl s.lease) (Nat.succ_le_succ (h _ (hl.filter _) ?_))
  intro m hm
  obtain ⟨hmem, hne⟩ := List.mem_filter.mp hm
  exact ⟨hs m hmem, of_decide_eq_true hne⟩

lemma few_expire (h : s.Few net k) : Few net { s with lease := none } (k + 1) :=
  fun _ hl hs => h.claimants hl fun m hm => (hs m hm).1

/-- A node that takes the lease and that has claimed it before is no rival any more, and in its place
there is at most the node that held it. -/
lemma few_taken (h : s.Few net k) (hclaims : s.Claims net n) (hlease : s'.lease = some (net.id n))
    (hothers : ∀ m, m ≠ n → s'.Claims net m → s.Claims net m) : s'.Few net k := by
  intro l hl hs
  have hnot {m : N} (hm : m ∈ l) : m ≠ n := by
    rintro rfl
    exact (hs m hm).2 hlease
  have hrival : ∀ m ∈ l.filter (fun m => s.lease ≠ some (net.id m)), s.Rival net m := by
    intro m hm
    obtain ⟨hmem, hne⟩ := List.mem_filter.mp hm
    exact ⟨hothers m (hnot hmem) (hs m hmem).1, of_decide_eq_true hne⟩
  by_cases hholder : s.lease = some (net.id n)
  · refine h l hl fun m hm => ⟨hothers m (hnot hm) (hs m hm).1, ?_⟩
    intro heq
    exact hnot hm (net.injective (Option.some.inj (heq.symm.trans hholder)))
  · refine le_trans (length_le_others net hl s.lease) ?_
    have hfresh : n ∉ l.filter fun m => s.lease ≠ some (net.id m) :=
      fun hn => hnot (List.mem_filter.mp hn).1 rfl
    refine h (n :: l.filter _) (List.nodup_cons.mpr ⟨hfresh, hl.filter _⟩) ?_
    intro m hm
    rcases List.mem_cons.mp hm with rfl | hm
    · exact ⟨hclaims, hholder⟩
    · exact hrival m hm

end Rivals

section Steps

variable [DecidableEq N]

lemma turn_self (t : Turn) : (s.setTurn n t).turn n = t := Function.update_self ..

lemma turn_other {m : N} (hm : m ≠ n) (t : Turn) : (s.setTurn n t).turn m = s.turn m :=
  Function.update_of_ne hm ..

lemma claims_other {m : N} (hm : m ≠ n) (t : Turn) : (s.setTurn n t).Claims net m ↔ s.Claims net m := by
  rw [Claims, Claims, turn_other hm]
  rfl

/-- A node that goes on to a turn in which it claims nothing new. -/
lemma few_turn {t : Turn} (h : s.Few net k)
    (ht : t = .decided true ∨ t = .read (some (net.id n)) → s.Claims net n ∨
    s.lease = some (net.id n)) : (s.setTurn n t).Few net k := by
  refine h.mono fun m hm => ?_
  by_cases hmn : m = n
  · subst hmn
    refine ⟨?_, hm.2⟩
    rcases hm.1 with hlead | hturn
    · exact .inl hlead
    · rw [turn_self] at hturn
      exact (ht hturn).resolve_right hm.2
  · exact ⟨(claims_other hmn t).mp hm.1, hm.2⟩

lemma few_leads {leader : Bool} (h : s.Few net k) (hleader : leader = true → s.Claims net n) :
    Few net { s.setTurn n .idle with isLeader := Function.update s.isLeader n leader } k := by
  refine h.mono fun m hm => ⟨?_, hm.2⟩
  by_cases hmn : m = n
  · subst hmn
    rcases hm.1 with hlead | hturn | hturn
    · exact hleader ((Function.update_self ..).symm.trans hlead)
    · exact Turn.noConfusion ((turn_self (s := s) .idle).symm.trans hturn)
    · exact Turn.noConfusion ((turn_self (s := s) .idle).symm.trans hturn)
  · refine (claims_other hmn .idle).mp (hm.1.imp_left fun hlead => ?_)
    exact (Function.update_of_ne hmn ..).symm.trans hlead

lemma few_act {held : Option String} (reached answered : Bool) (h : s.Few net k)
    (hturn : s.turn n = .read held) :
    (s.act net n reached answered held).Few net k := by
  cases held with
  | some holder =>
    rw [act]
    split
    · rename_i hholder
      have hclaims : s.Claims net n := .inr (.inr (by rw [hturn, hholder]))
      cases reached with
      | true => exact few_taken h hclaims rfl fun m hm hc => (claims_other hm (.decided true)).mp hc
      | false => exact few_turn h fun _ => .inl hclaims
    · exact few_turn h (by simp)
  | none =>
    rw [act]
    split
    · rename_i hfree
      refine h.mono fun m hm => ?_
      have hmn : m ≠ n := by
        rintro rfl
        exact hm.2 rfl
      exact ⟨(claims_other hmn (.decided answered)).mp hm.1, by
        rw [hfree.2]; exact (Option.some_ne_none _).symm⟩
    · exact few_turn h (by simp)

lemma few_step {move : ElectionMove N} (h : s.Few net k) :
    (after (step net) s move).Few net (k + move.expires) := by
  rw [after]
  cases move with
  | read n answered =>
    rw [step]
    split
    · refine few_turn h ?_
      cases answered with
      | true => exact fun hread => .inr (by simpa using hread)
      | false => simp
    · exact h
  | decide n reached answered =>
    rw [step]
    split
    · rename_i held hturn
      exact few_act reached answered h hturn
    · exact h
  | settle n =>
    rw [step]
    split
    · rename_i leader hturn
      exact few_leads h fun hleader => .inr (.inl (hleader ▸ hturn))
    · exact h
  | stop n => exact few_leads h (by simp)
  | expire => exact few_expire h

/-- Whatever the nodes do in whatever order, those that take themselves for the leader are at most one
more than the times that the lease has expired. -/
theorem leaders_bounded (net : Nodes N) (lease : Option String) (moves : List (ElectionMove N))
    {l : List N} (hl : l.Nodup)
    (hleads : ∀ n ∈ l, (moves.foldl (after (step net)) (initial lease)).isLeader n = true) :
    l.length ≤ (moves.map ElectionMove.expires).sum + 1 := by
  have hfew : ∀ (moves : List (ElectionMove N)) (s : Election N) (k : ℕ), s.Few net k →
      (moves.foldl (after (step net)) s).Few net (k + (moves.map ElectionMove.expires).sum) := by
    intro moves
    induction moves with
    | nil => exact fun s k h => h
    | cons move moves ih =>
      intro s k h
      rw [List.map_cons, List.sum_cons, ← Nat.add_assoc]
      exact ih _ _ (few_step h)
  have hstart : (initial lease : Election N).Few net 0 := by
    intro l _ hs
    cases l with
    | nil => exact le_rfl
    | cons n l =>
      rcases (hs n List.mem_cons_self).1 with h | h | h <;> cases h
  have h := hfew moves _ 0 hstart
  rw [Nat.zero_add] at h
  exact h.claimants hl fun n hn => .inl (hleads n hn)

end Steps

def twoNodes : Nodes Bool := ⟨fun b => if b then "a" else "b", fun a b h => by revert a b; decide⟩

def turnOf (n : Bool) : List (ElectionMove Bool) := [.read n true, .decide n true true, .settle n]

/-- A leader that has not looked at its lease since it expired still leads beside the next one. -/
theorem leaders_bounded_two :
    (∀ n ∈ [true, false],
      ((turnOf true ++ .expire :: turnOf false).foldl (after (step twoNodes))
        (initial none)).isLeader n = true) ∧
      [true, false].length ≤
      ((turnOf true ++ .expire :: turnOf false).map ElectionMove.expires).sum + 1 := by
  have h : ∀ n ∈ [true, false],
      ((turnOf true ++ .expire :: turnOf false).foldl (after (step twoNodes)) (initial none)).isLeader
      n = true := by decide
  exact ⟨h, leaders_bounded twoNodes none _ (by decide) h⟩

end Election

end PesitWizard.Node
