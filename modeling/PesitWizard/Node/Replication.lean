import Mathlib.Logic.Function.Basic
import PesitWizard.Library.Moves
import PesitWizard.Node.Configuration

/-! The nodes of a cluster, the changes that they publish, and the nodes that join. -/

namespace PesitWizard.Node

open App Library NodeClusterHandler

abbrev Cell := String × String

def cell (s : JsonStore) (κ : Cell) : Option Value := (s.tables κ.1).find κ.2

namespace ConfigChange

def cell (c : ConfigChange) : Cell := (c.table, c.key)

def result (c : ConfigChange) : Option Value := if c.op = "delete" then none else c.doc

end ConfigChange

def outcome (l : List ConfigChange) (κ : Cell) : Option (Option Value) :=
  Table.lastFor (l.map fun c => (c.cell, c.result)) κ

structure Published (nodeId : String) (c : ConfigChange) : Prop where
  origin : c.origin = nodeId
  shared : c.table ∈ CLUSTER_TABLES
  complete : c.op = "delete" ∨ ∃ doc, c.doc = some doc
  told : Told c

lemma cell_apply {nodeId : String} {c : ConfigChange} (h : Published nodeId c)
    (s : JsonStore) (κ : Cell) :
    cell (apply s c) κ = if κ = c.cell then c.result else cell s κ := by
  obtain ⟨t, k⟩ := κ
  rw [apply, if_pos h.shared]
  simp only [cell, ConfigChange.cell, ConfigChange.result, Prod.mk.injEq]
  by_cases hop : c.op = "delete"
  · rw [if_pos hop, if_pos hop, JsonStore.delete_tables]
    by_cases ht : t = c.table
    · simp [ht]
    · simp [ht]
  · obtain ⟨doc, hdoc⟩ := h.complete.resolve_left hop
    rw [if_neg hop, if_neg hop, hdoc]
    simp only [JsonStore.put_tables]
    by_cases ht : t = c.table
    · simp [ht]
    · simp [ht]

@[simp] lemma outcome_nil (κ : Cell) : outcome [] κ = none := rfl

lemma outcome_concat (l : List ConfigChange) (c : ConfigChange) (κ : Cell) :
    outcome (l ++ [c]) κ = if κ = c.cell then some c.result else outcome l κ := by
  rw [outcome, List.map_append, List.map_singleton, Table.lastFor_concat]
  rfl

lemma outcome_append (l m : List ConfigChange) (κ : Cell) :
    outcome (l ++ m) κ = (outcome m κ).or (outcome l κ) := by
  induction m using List.reverseRecOn with
  | nil => simp
  | append_singleton m c ih =>
    rw [← List.append_assoc, outcome_concat, outcome_concat, ih]
    by_cases h : κ = c.cell <;> simp [h]

lemma outcome_of_ne {l : List ConfigChange} {κ : Cell} (h : ∀ c ∈ l, c.cell ≠ κ) :
    outcome l κ = none := by
  induction l using List.reverseRecOn with
  | nil => rfl
  | append_singleton l c ih =>
    rw [outcome_concat, if_neg (Ne.symm (h c (by simp))), ih fun d hd => h d (by simp [hd])]

lemma outcome_singleton (c : ConfigChange) (κ : Cell) :
    outcome [c] κ = if κ = c.cell then some c.result else none :=
  outcome_concat [] c κ

lemma outcome_moved {before after sent : List ConfigChange} {c : ConfigChange} {κ : Cell}
    (h : κ = c.cell → outcome before κ = none) :
    outcome (sent ++ [c] ++ (before ++ after)) κ = outcome (sent ++ (before ++ c :: after)) κ := by
  rw [← List.singleton_append (l := after)]
  simp only [outcome_append, outcome_singleton]
  by_cases hκ : κ = c.cell
  · rw [h hκ, if_pos hκ]
    cases outcome after κ <;> rfl
  · simp [hκ]

lemma outcome_missed {before after : List ConfigChange} {c : ConfigChange} {κ : Cell} {v : Option Value}
    (h : κ = c.cell → outcome before κ = none) (hv : κ = c.cell → v = c.result) :
    (outcome (before ++ after) κ).getD v = (outcome (before ++ c :: after) κ).getD v := by
  rw [← List.singleton_append (l := after)]
  simp only [outcome_append, outcome_singleton]
  by_cases hκ : κ = c.cell
  · rw [h hκ, if_pos hκ, hv hκ]
    cases outcome after κ <;> rfl
  · simp [hκ]

/-- The place that a request on the shared tables is about. -/
def Write.target : Write → Option Cell
  | .createEntity _ kind body => some (kind.table, body.id)
  | .updateEntity _ kind id _ => some (kind.table, id)
  | .deleteEntity kind id => some (kind.table, id)
  | .createSchedule _ _ id _ => some ("schedules", id)
  | .updateSchedule _ _ id _ => some ("schedules", id)
  | .deleteSchedule id => some ("schedules", id)
  | _ => none

def Echoes (nodeId : String) (s : JsonStore) (κ : Cell) (r : Written) : Prop :=
  ∀ c, r.published = some c → Published nodeId c ∧ c.cell = κ ∧ r.store = apply s c

section Requests

variable {s : JsonStore}

lemma Touches.echoes {nodeId t key : String} {r : Written} (hr : Touches nodeId s t key r) :
    Echoes nodeId s (t, key) r := by
  intro c hc
  cases hr with
  | put doc hdoc =>
    have htold := told_publish (fun d hd => by rwa [← Option.some.inj hd]) c hc
    by_cases ht : t ∈ CLUSTER_TABLES
    · simp only [publish, if_pos ht] at hc
      obtain rfl := Option.some.inj hc
      refine ⟨⟨rfl, ht, .inr ⟨doc, rfl⟩, htold⟩, rfl, ?_⟩
      have hop : ("put" : String) ≠ "delete" := by decide
      rw [apply, if_pos ht, if_neg hop]
    · simp only [publish, if_neg ht] at hc
      cases hc
  | delete =>
    have htold := told_publish (fun d hd => by cases hd) c hc
    by_cases ht : t ∈ CLUSTER_TABLES
    · simp only [publish, if_pos ht] at hc
      obtain rfl := Option.some.inj hc
      refine ⟨⟨rfl, ht, .inl rfl, htold⟩, rfl, ?_⟩
      rw [apply, if_pos ht, if_pos rfl]
    · simp only [publish, if_neg ht] at hc
      cases hc

lemma perform_echoes (cron : Cron) (nodeId : String) (h : KeyedIn "schedules" s) {w : Write} {κ : Cell}
    (hw : w.target = some κ) : Ensures (w.perform cron nodeId s) (Echoes nodeId s κ) := by
  cases w with
  | createEntity now kind body =>
    cases hw
    exact (create_touches nodeId now kind body).mono fun _ => Touches.echoes
  | updateEntity now kind id body =>
    cases hw
    exact (update_touches nodeId now kind id body).mono fun _ => Touches.echoes
  | deleteEntity kind id =>
    cases hw
    exact (delete_touches nodeId kind id).mono fun _ => Touches.echoes
  | createSchedule now nowMs id body =>
    cases hw
    exact (createSchedule_touches cron nodeId now nowMs id body).mono fun _ => Touches.echoes
  | updateSchedule now nowMs id body =>
    cases hw
    exact (updateSchedule_touches cron h nodeId now nowMs id body).mono fun _ => Touches.echoes
  | deleteSchedule id =>
    cases hw
    exact (deleteSchedule_touches nodeId id).mono fun _ => Touches.echoes
  | _ => cases hw

end Requests

structure Nodes (N : Type) where
  id : N → String
  injective : Function.Injective id

/-- How far a node has come in joining the cluster: a peer has answered it with a snapshot, it has
restored that snapshot, it follows the changes. -/
inductive Phase
  | outside
  | answered (snapshot : Value)
  | restored
  | subscribed

def Phase.isSubscribed : Phase → Bool
  | subscribed => true
  | _ => false

/-- The stores, the changes that a node has applied and not yet published, and those on their way from
one node to another. -/
structure ClusterState (N : Type) where
  store : N → JsonStore
  phase : N → Phase
  pending : N → List ConfigChange
  inFlight : N → N → List ConfigChange

inductive Move (N : Type)
  | request (n : N) (w : Write)
  | publish (n : N) (i : ℕ)
  | deliver (p m : N)
  | answer (j p : N)
  | restore (j : N)
  | subscribe (j : N)

namespace ClusterState

variable {N : Type}

def snapshotCell (v : Value) (κ : Cell) : Option Value := Table.lastFor (rowsFor κ.1 (tablesOf v)) κ.2

def view (s : ClusterState N) (m : N) (κ : Cell) : Option Value :=
  match s.phase m with
  | .answered v => snapshotCell v κ
  | _ => cell (s.store m) κ

/-- No change of a place by another node is on its way, or waits to be published. -/
def Alone (s : ClusterState N) (n : N) (κ : Cell) : Prop :=
  (∀ p ≠ n, ∀ c ∈ s.pending p, c.cell ≠ κ) ∧ ∀ p ≠ n, ∀ m, ∀ c ∈ s.inFlight p m, c.cell ≠ κ

/-- Nothing is on its way, and nothing waits to be published. -/
def Quiet (s : ClusterState N) : Prop := ∀ p, s.pending p = [] ∧ ∀ m, s.inFlight p m = []

/-- Requests on one place by different nodes do not overlap, and one node publishes its changes of one
place in the order in which it made them. -/
def Orderly (s : ClusterState N) : Move N → Prop
  | .request n w => ∀ κ, w.target = some κ → s.Alone n κ
  | .publish n i => ∀ c ∈ (s.pending n)[i]?, ∀ d ∈ (s.pending n).take i, d.cell ≠ c.cell
  | _ => True

/-- The peer that answers a joining node is up to date, the joining node has no rows that the snapshot
lacks, and what is published before it has subscribed is in the snapshot. -/
def CatchesUp (s : ClusterState N) : Move N → Prop
  | .answer _ p => ∀ q, s.inFlight q p = []
  | .restore j => ∀ κ : Cell, κ.1 ∈ CLUSTER_TABLES → s.view j κ = none → cell (s.store j) κ = none
  | .publish n i => ∀ c ∈ (s.pending n)[i]?, ∀ j,
      (∃ v, s.phase j = .answered v) ∨ s.phase j = .restored → s.view j c.cell = c.result
  | _ => True

/-- All that is on its way about a place comes from one node, and it brings the others to
what that node has. -/
structure Owned (s : ClusterState N) (κ : Cell) (o : N) : Prop where
  here : s.phase o = .subscribed
  alone : s.Alone o κ
  settles : ∀ m, s.phase m ≠ .outside →
    (outcome (s.inFlight o m ++ s.pending o) κ).getD (s.view m κ) = cell (s.store o) κ

structure Coherent (net : Nodes N) (s : ClusterState N) : Prop where
  pending : ∀ p, ∀ c ∈ s.pending p, Published (net.id p) c
  inFlight : ∀ p m, ∀ c ∈ s.inFlight p m, Published (net.id p) c
  silent : ∀ j, s.phase j ≠ .subscribed → ∀ p, s.inFlight p j = []
  keyed : ∀ n, s.phase n = .subscribed ∨ s.phase n = .restored → ∀ t ∈ CLUSTER_TABLES,
    KeyedIn t (s.store n)
  owned : ∀ κ : Cell, κ.1 ∈ CLUSTER_TABLES → ∃ o, s.Owned κ o

variable {s s' : ClusterState N}

lemma isSubscribed_iff {p : Phase} : p.isSubscribed = true ↔ p = .subscribed := by
  cases p <;> simp [Phase.isSubscribed]

lemma view_of_subscribed {m : N} (h : s.phase m = .subscribed) (κ : Cell) :
    s.view m κ = cell (s.store m) κ := by
  simp only [view, h]

lemma view_congr {m : N} {κ : Cell} (hphase : s'.phase m = s.phase m)
    (hcell : cell (s'.store m) κ = cell (s.store m) κ) : s'.view m κ = s.view m κ := by
  rw [view, view, hphase]
  split
  · rfl
  · exact hcell

lemma snapshotCell_snapshot {store : JsonStore} {κ : Cell} (hκ : κ.1 ∈ CLUSTER_TABLES)
    (h : KeyedIn κ.1 store) :
    snapshotCell (snapshot store) κ = cell store κ := by
  have hrows : rowsFor κ.1 (tablesOf (snapshot store)) = (store.tables κ.1).rows := by
    rw [← keyed_docs h]
    exact rowsFor_dumpOnly store hκ (by decide)
  rw [snapshotCell, hrows, Table.lastFor_rows]
  rfl

lemma cell_restore {store : JsonStore} {v : Value} {κ : Cell} (hκ : κ.1 ∈ CLUSTER_TABLES) :
    cell (NodeClusterHandler.restore store v) κ = (snapshotCell v κ).or (cell store κ) := by
  have hconfig : κ.1 ∈ CONFIG_TABLES := by
    revert hκ
    simp only [CLUSTER_TABLES, CONFIG_TABLES, List.mem_cons, List.not_mem_nil, or_false]
    tauto
  rw [cell, restore_tables, if_pos hconfig, Table.find_putAll]
  rfl

/-- Two nodes hold the same rows in the shared tables. -/
def SameRows (s : ClusterState N) (n m : N) : Prop :=
  ∀ t ∈ CLUSTER_TABLES, ∀ row, row ∈ ((s.store n).tables t).rows ↔ row ∈ ((s.store m).tables t).rows

lemma sameRows_of_cell {n m : N}
    (h : ∀ κ : Cell, κ.1 ∈ CLUSTER_TABLES → cell (s.store n) κ = cell (s.store m) κ) :
    s.SameRows n m := by
  intro t ht row
  have hcell := h (t, row.1) ht
  rw [cell, cell] at hcell
  rw [← Table.find_eq_some, ← Table.find_eq_some, hcell]

lemma SameRows.cell {n m : N} (h : s.SameRows n m) {κ : Cell} (hκ : κ.1 ∈ CLUSTER_TABLES) :
    cell (s.store n) κ = cell (s.store m) κ := by
  apply Option.ext
  intro doc
  rw [Node.cell, Node.cell, Table.find_eq_some, Table.find_eq_some]
  exact h κ.1 hκ (κ.2, doc)

variable {net : Nodes N} {cron : Cron}

lemma Coherent.sameRows (h : s.Coherent net) (hquiet : s.Quiet) {n m : N} (hn : s.phase n = .subscribed)
    (hm : s.phase m = .subscribed) : s.SameRows n m := by
  apply sameRows_of_cell
  intro κ hκ
  obtain ⟨o, ho⟩ := h.owned κ hκ
  have heq : ∀ k, s.phase k = .subscribed → Node.cell (s.store k) κ = Node.cell (s.store o) κ := by
    intro k hk
    have hsettled := ho.settles k (by rw [hk]; simp)
    rwa [(hquiet o).1, (hquiet o).2 k, List.append_nil, outcome_nil, Option.getD_none,
      view_of_subscribed hk] at hsettled
  rw [heq n hn, heq m hm]

structure Started (cron : Cron) (s : ClusterState N) : Prop where
  quiet : s.Quiet
  phase : ∀ n, s.phase n = .outside ∨ s.phase n = .subscribed
  peer : ∃ n, s.phase n = .subscribed
  reachable : ∀ n, s.phase n = .subscribed → Reachable cron (s.store n)
  agree : ∀ n m, s.phase n = .subscribed → s.phase m = .subscribed → s.SameRows n m

lemma Started.coherent (h : s.Started cron) : s.Coherent net := by
  have hphase : ∀ n, s.phase n ≠ .outside → s.phase n = .subscribed :=
    fun n hn => (h.phase n).resolve_left hn
  refine ⟨?_, ?_, fun j _ p => (h.quiet p).2 j, ?_, ?_⟩
  · intro p c hc
    rw [(h.quiet p).1] at hc
    cases hc
  · intro p m c hc
    rw [(h.quiet p).2 m] at hc
    cases hc
  · intro n hn t ht
    have hsub := hphase n (by rcases hn with hn | hn <;> simp [hn])
    have htables : t ∈ CONFIG_TABLES ∧ t ≠ "pki" := by
      revert t
      decide
    exact (h.reachable n hsub).keyed t htables.1 htables.2
  · intro κ hκ
    obtain ⟨o, ho⟩ := h.peer
    refine ⟨o, ho, ⟨?_, ?_⟩, ?_⟩
    · intro p _ c hc
      rw [(h.quiet p).1] at hc
      cases hc
    · intro p _ m c hc
      rw [(h.quiet p).2 m] at hc
      cases hc
    · intro m hm
      rw [(h.quiet o).1, (h.quiet o).2 m, List.append_nil, outcome_nil, Option.getD_none,
        view_of_subscribed (hphase m hm)]
      exact (h.agree m o (hphase m hm) ho).cell hκ

section Runs

variable [DecidableEq N] (net cron)

/-- A request that does not succeed changes nothing, and one move is a request that does. Requests that
run at the same time may publish in another order than they were applied in. -/
def move (s : ClusterState N) : Move N → Option (ClusterState N)
  | .request n w =>
    if (s.phase n).isSubscribed && w.target.isSome then
      match w.perform cron (net.id n) (s.store n) with
      | .ok ⟨store, some c⟩ =>
        some { s with
          store := Function.update s.store n store, pending :=
            Function.update s.pending n (s.pending n ++ [c]) }
      | _ => none
    else none
  | .publish n i =>
    match (s.pending n)[i]? with
    | some c =>
      some { s with
        pending := Function.update s.pending n ((s.pending n).eraseIdx i)
        inFlight := fun p m => if p = n ∧ (s.phase m).isSubscribed then s.inFlight p m ++
          [c] else s.inFlight p m }
    | none => none
  | .deliver p m =>
    match s.inFlight p m with
    | c :: rest =>
      some { s with
        inFlight := Function.update s.inFlight p (Function.update (s.inFlight p) m rest)
        store := if c.origin = net.id m then s.store else
          Function.update s.store m (apply (s.store m) c) }
    | [] => none
  | .answer j p =>
    match s.phase j, s.phase p with
    | .outside, .subscribed =>
      some { s with phase := Function.update s.phase j (.answered (snapshot (s.store p))) }
    | _, _ => none
  | .restore j =>
    match s.phase j with
    | .answered v =>
      some { s with
        phase := Function.update s.phase j .restored
        store := Function.update s.store j (NodeClusterHandler.restore (s.store j) v) }
    | _ => none
  | .subscribe j =>
    match s.phase j with
    | .restored => some { s with phase := Function.update s.phase j .subscribed }
    | _ => none

variable {net cron}

structure Requested (s s' : ClusterState N) (n : N) (c : ConfigChange) : Prop where
  phase : s'.phase = s.phase
  inFlight : s'.inFlight = s.inFlight
  stored : s'.store n = apply (s.store n) c
  others : ∀ m, m ≠ n → s'.store m = s.store m
  waits : s'.pending n = s.pending n ++ [c]
  pending : ∀ p, p ≠ n → s'.pending p = s.pending p

lemma move_request (h : s.Coherent net) {n : N} {w : Write}
    (hmove : s.move net cron (.request n w) = some s') :
    ∃ c, s.phase n = .subscribed ∧ w.target = some c.cell ∧ Published (net.id n) c ∧
    Requested s s' n c := by
  rw [move] at hmove
  split at hmove
  · rename_i hen
    rw [Bool.and_eq_true, isSubscribed_iff, Option.isSome_iff_exists] at hen
    obtain ⟨hn, κ, hκ⟩ := hen
    split at hmove
    · rename_i store c hperform
      obtain ⟨hc, rfl, rfl⟩ :=
        perform_echoes cron (net.id n) (h.keyed n (.inl hn) "schedules" (by decide)) hκ _ hperform c rfl
      obtain rfl := Option.some.inj hmove
      refine ⟨c, hn, hκ, hc, rfl, rfl, Function.update_self .., ?_, Function.update_self .., ?_⟩
      · exact fun m hm => Function.update_of_ne hm ..
      · exact fun p hp => Function.update_of_ne hp ..
    · cases hmove
  · cases hmove

lemma Requested.cell {n : N} {c : ConfigChange} (h : Requested s s' n c)
    (hc : Published (net.id n) c) (m : N) {κ : Cell} (hκ : κ ≠ c.cell) :
    cell (s'.store m) κ = cell (s.store m) κ := by
  by_cases hm : m = n
  · subst hm
    rw [h.stored, cell_apply hc, if_neg hκ]
  · rw [h.others m hm]

lemma Requested.mem_pending {n : N} {c : ConfigChange} (h : Requested s s' n c) {p : N}
    {d : ConfigChange} (hd : d ∈ s'.pending p) : d ∈ s.pending p ∨ p = n ∧ d = c := by
  by_cases hp : p = n
  · subst hp
    rw [h.waits, List.mem_append, List.mem_singleton] at hd
    exact hd.imp_right fun hd => ⟨rfl, hd⟩
  · rw [h.pending p hp] at hd
    exact .inl hd

lemma Coherent.request (h : s.Coherent net) {n : N} {w : Write} (hok : s.Orderly (.request n w))
    (hmove : s.move net cron (.request n w) = some s') : s'.Coherent net := by
  obtain ⟨c, hn, hw, hc, hs⟩ := move_request h hmove
  refine ⟨?_, ?_, ?_, ?_, ?_⟩
  · intro p d hd
    rcases hs.mem_pending hd with hd | ⟨rfl, rfl⟩
    · exact h.pending p d hd
    · exact hc
  · rw [hs.inFlight]
    exact h.inFlight
  · rw [hs.inFlight, hs.phase]
    exact h.silent
  · rw [hs.phase]
    intro m hm t ht
    by_cases hmn : m = n
    · subst hmn
      rw [hs.stored]
      exact (h.keyed m hm t ht).apply hc.told
    · rw [hs.others m hmn]
      exact h.keyed m hm t ht
  · intro κ hκ
    by_cases hkc : κ = c.cell
    · -- the node that made the request is the one whose changes are on their way now
      subst hkc
      refine ⟨n, hs.phase ▸ hn, ⟨?_, ?_⟩, ?_⟩
      · intro p hp d hd
        rw [hs.pending p hp] at hd
        exact (hok c.cell hw).1 p hp d hd
      · rw [hs.inFlight]
        exact (hok c.cell hw).2
      · intro m _
        rw [hs.waits, hs.stored, ← List.append_assoc, outcome_concat, if_pos rfl,
          cell_apply hc, if_pos rfl]
        rfl
    · obtain ⟨o, ho⟩ := h.owned κ hκ
      refine ⟨o, hs.phase ▸ ho.here, ⟨?_, ?_⟩, ?_⟩
      · intro p hp d hd
        rcases hs.mem_pending hd with hd | ⟨rfl, rfl⟩
        · exact ho.alone.1 p hp d hd
        · exact Ne.symm hkc
      · rw [hs.inFlight]
        exact ho.alone.2
      · intro m hm
        rw [hs.phase] at hm
        rw [view_congr (congrFun hs.phase m) (hs.cell hc m hkc), hs.cell hc o hkc, hs.inFlight,
          ← ho.settles m hm]
        by_cases hon : o = n
        · subst hon
          rw [hs.waits, ← List.append_assoc, outcome_concat, if_neg hkc]
        · rw [hs.pending o hon]

structure Sent (s s' : ClusterState N) (n : N) (before : List ConfigChange) (c : ConfigChange)
    (after : List ConfigChange) : Prop where
  phase : s'.phase = s.phase
  store : s'.store = s.store
  waited : s.pending n = before ++ c :: after
  waits : s'.pending n = before ++ after
  pending : ∀ p, p ≠ n → s'.pending p = s.pending p
  sent : ∀ m, s.phase m = .subscribed → s'.inFlight n m = s.inFlight n m ++ [c]
  missed : ∀ m, s.phase m ≠ .subscribed → s'.inFlight n m = s.inFlight n m
  inFlight : ∀ p, p ≠ n → s'.inFlight p = s.inFlight p

lemma move_publish {n : N} {i : ℕ} (hmove : s.move net cron (.publish n i) = some s') :
    ∃ c, (s.pending n)[i]? = some c ∧
    Sent s s' n ((s.pending n).take i) c ((s.pending n).drop (i + 1)) := by
  rw [move] at hmove
  split at hmove
  · rename_i c hc
    obtain rfl := Option.some.inj hmove
    obtain ⟨hi, rfl⟩ := List.getElem?_eq_some_iff.mp hc
    refine ⟨_, hc, rfl, rfl, ?_, ?_, ?_, ?_, ?_, ?_⟩
    · rw [← List.drop_eq_getElem_cons hi, List.take_append_drop]
    · exact (Function.update_self ..).trans (List.eraseIdx_eq_take_drop_succ ..)
    · exact fun p hp => Function.update_of_ne hp ..
    · intro m hm
      exact if_pos ⟨rfl, isSubscribed_iff.mpr hm⟩
    · intro m hm
      exact if_neg fun hc => hm (isSubscribed_iff.mp hc.2)
    · intro p hp
      funext m
      exact if_neg fun hc => hp hc.1
  · cases hmove

lemma Coherent.publish (h : s.Coherent net) {n : N} {i : ℕ} (hok : s.Orderly (.publish n i))
    (hcatch : s.CatchesUp (.publish n i)) (hmove : s.move net cron (.publish n i) = some s') :
    s'.Coherent net := by
  obtain ⟨c, hi, hs⟩ := move_publish hmove
  have hc : c ∈ s.pending n := by
    rw [hs.waited]
    simp
  have hbefore : ∀ {κ}, κ = c.cell → outcome ((s.pending n).take i) κ = none := by
    rintro κ rfl
    exact outcome_of_ne (hok c hi)
  have hpending : ∀ p, ∀ d ∈ s'.pending p, d ∈ s.pending p := by
    intro p d hd
    by_cases hp : p = n
    · subst hp
      rw [hs.waits] at hd
      rw [hs.waited]
      rcases List.mem_append.mp hd with hd | hd <;> simp [hd]
    · rwa [hs.pending p hp] at hd
  have hflight : ∀ p m, ∀ d ∈ s'.inFlight p m, d ∈ s.inFlight p m ∨ p = n ∧ d = c := by
    intro p m d hd
    by_cases hp : p = n
    · subst hp
      by_cases hm : s.phase m = .subscribed
      · rw [hs.sent m hm, List.mem_append, List.mem_singleton] at hd
        exact hd.imp_right fun hd => ⟨rfl, hd⟩
      · rw [hs.missed m hm] at hd
        exact .inl hd
    · rw [hs.inFlight p hp] at hd
      exact .inl hd
  refine ⟨fun p d hd => h.pending p d (hpending p d hd), ?_, ?_, ?_, ?_⟩
  · intro p m d hd
    rcases hflight p m d hd with hd | ⟨rfl, rfl⟩
    · exact h.inFlight p m d hd
    · exact h.pending p d hc
  · intro j hj p
    rw [hs.phase] at hj
    by_cases hp : p = n
    · subst hp
      rw [hs.missed j hj]
      exact h.silent j hj p
    · rw [hs.inFlight p hp]
      exact h.silent j hj p
  · rw [hs.phase, hs.store]
    exact h.keyed
  · intro κ hκ
    obtain ⟨o, ho⟩ := h.owned κ hκ
    refine ⟨o, hs.phase ▸ ho.here, ⟨fun p hp d hd => ho.alone.1 p hp d (hpending p d hd), ?_⟩, ?_⟩
    · intro p hp m d hd
      rcases hflight p m d hd with hd | ⟨rfl, rfl⟩
      · exact ho.alone.2 p hp m d hd
      · exact ho.alone.1 p hp d hc
    · intro m hm
      have hold := ho.settles m (hs.phase ▸ hm)
      rw [view_congr (congrFun hs.phase m) (by rw [hs.store]), hs.store]
      by_cases hon : o = n
      · subst hon
        rw [hs.waited] at hold
        rw [hs.waits]
        by_cases hsub : s.phase m = .subscribed
        · -- what is taken from the one list goes to the end of the other
          rw [← hold, hs.sent m hsub, outcome_moved hbefore]
        · have hwaits : (∃ v, s.phase m = .answered v) ∨ s.phase m = .restored := by
            rw [hs.phase] at hm
            cases hp : s.phase m with
            | outside => exact absurd hp hm
            | answered v => exact .inl ⟨v, rfl⟩
            | restored => exact .inr rfl
            | subscribed => exact absurd hp hsub
          rw [h.silent m hsub, List.nil_append] at hold
          rw [hs.missed m hsub, h.silent m hsub, List.nil_append, ← hold]
          exact outcome_missed hbefore fun hkc => hkc ▸ hcatch c hi m hwaits
      · rw [hs.pending o hon, hs.inFlight o hon]
        exact hold

structure Delivered (net : Nodes N) (s s' : ClusterState N) (p m : N) (c : ConfigChange)
    (rest : List ConfigChange) :
    Prop where
  phase : s'.phase = s.phase
  pending : s'.pending = s.pending
  queued : s.inFlight p m = c :: rest
  left : s'.inFlight p m = rest
  inFlight : ∀ q k, ¬ (q = p ∧ k = m) → s'.inFlight q k = s.inFlight q k
  applied : c.origin ≠ net.id m → s'.store m = apply (s.store m) c
  skipped : c.origin = net.id m → s'.store m = s.store m
  others : ∀ k, k ≠ m → s'.store k = s.store k

lemma move_deliver {p m : N} (hmove : s.move net cron (.deliver p m) = some s') :
    ∃ c rest, Delivered net s s' p m c rest := by
  rw [move] at hmove
  split at hmove
  · rename_i c rest hqueue
    obtain rfl := Option.some.inj hmove
    refine ⟨c, rest, rfl, rfl, hqueue, ?_, ?_, ?_, ?_, ?_⟩
    · simp only [Function.update_self]
    · intro q k hqk
      by_cases hq : q = p
      · subst hq
        simp only [Function.update_self]
        exact Function.update_of_ne (fun hk => hqk ⟨rfl, hk⟩) ..
      · simp only [Function.update_of_ne hq]
    · intro ho
      simp only [if_neg ho, Function.update_self]
    · intro ho
      simp only [if_pos ho]
    · intro k hk
      by_cases ho : c.origin = net.id m
      · simp only [if_pos ho]
      · simp only [if_neg ho, Function.update_of_ne hk]
  · cases hmove

lemma Coherent.deliver (h : s.Coherent net) {p m : N}
    (hmove : s.move net cron (.deliver p m) = some s') :
    s'.Coherent net := by
  obtain ⟨c, rest, hs⟩ := move_deliver hmove
  have hmem : c ∈ s.inFlight p m := by
    rw [hs.queued]
    exact List.mem_cons_self
  have hc := h.inFlight p m c hmem
  have hm : s.phase m = .subscribed := by
    by_contra hm
    rw [h.silent m hm p] at hmem
    cases hmem
  have hown : c.origin = net.id m ↔ p = m := by
    rw [hc.origin]
    exact net.injective.eq_iff
  have hflight : ∀ q k, ∀ d ∈ s'.inFlight q k, d ∈ s.inFlight q k := by
    intro q k d hd
    by_cases hqk : q = p ∧ k = m
    · obtain ⟨rfl, rfl⟩ := hqk
      rw [hs.left] at hd
      rw [hs.queued]
      exact List.mem_cons_of_mem c hd
    · rwa [hs.inFlight q k hqk] at hd
  have hcell : ∀ k κ, (k = m → p = m ∨ κ ≠ c.cell) → cell (s'.store k) κ = cell (s.store k) κ := by
    intro k κ hk
    by_cases hkm : k = m
    · subst hkm
      by_cases hp : p = k
      · rw [hs.skipped (hown.mpr hp)]
      · rw [hs.applied fun ho => hp (hown.mp ho), cell_apply hc, if_neg ((hk rfl).resolve_left hp)]
    · rw [hs.others k hkm]
  refine ⟨?_, fun q k d hd => h.inFlight q k d (hflight q k d hd), ?_, ?_, ?_⟩
  · rw [hs.pending]
    exact h.pending
  · intro j hj q
    rw [hs.phase] at hj
    have hjm : ¬ (q = p ∧ j = m) := fun hqj => hj (hqj.2 ▸ hm)
    rw [hs.inFlight q j hjm]
    exact h.silent j hj q
  · intro k hk t ht
    rw [hs.phase] at hk
    by_cases hkm : k = m
    · subst hkm
      by_cases hp : p = k
      · rw [hs.skipped (hown.mpr hp)]
        exact h.keyed k hk t ht
      · rw [hs.applied fun ho => hp (hown.mp ho)]
        exact (h.keyed k hk t ht).apply hc.told
    · rw [hs.others k hkm]
      exact h.keyed k hk t ht
  · intro κ hκ
    obtain ⟨o, ho⟩ := h.owned κ hκ
    have hocell : p ≠ o → κ ≠ c.cell := fun hp => Ne.symm (ho.alone.2 p hp m c hmem)
    have hstore : cell (s'.store o) κ = cell (s.store o) κ := by
      apply hcell
      rintro rfl
      by_cases hp : p = o
      · exact .inl hp
      · exact .inr (hocell hp)
    refine ⟨o, hs.phase ▸ ho.here, ⟨hs.pending ▸ ho.alone.1, ?_⟩, ?_⟩
    · intro q hq k d hd
      exact ho.alone.2 q hq k d (hflight q k d hd)
    · intro k hk
      rw [hs.phase] at hk
      have hold := ho.settles k hk
      rw [hs.pending, hstore]
      by_cases hok : o = p ∧ k = m
      · obtain ⟨rfl, rfl⟩ := hok
        rw [hs.queued, List.cons_append, ← List.singleton_append, outcome_append,
          outcome_singleton] at hold
        rw [hs.left, view_of_subscribed (hs.phase ▸ hm)]
        rw [view_of_subscribed hm] at hold
        cases hlater : outcome (rest ++ s.pending o) κ with
        | some r =>
          rw [hlater] at hold
          exact hold
        | none =>
          rw [hlater, Option.none_or] at hold
          rw [Option.getD_none]
          by_cases hp : o = k
          · rw [hs.skipped (hown.mpr hp), hp]
          · by_cases hkc : κ = c.cell
            · rw [if_pos hkc] at hold
              rw [hs.applied fun ho => hp (hown.mp ho), cell_apply hc, if_pos hkc]
              exact hold
            · rw [if_neg hkc] at hold
              rw [hcell k κ fun _ => .inr hkc]
              exact hold
      · have hsame : cell (s'.store k) κ = cell (s.store k) κ := by
          apply hcell
          intro hkm
          exact .inr (hocell fun hp => hok ⟨hp.symm, hkm⟩)
        rw [hs.inFlight o k hok, view_congr (congrFun hs.phase k) hsame]
        exact hold

structure Joined (s s' : ClusterState N) (j : N) (phase : Phase) (store : JsonStore) : Prop where
  phase : s'.phase j = phase
  phases : ∀ m, m ≠ j → s'.phase m = s.phase m
  store : s'.store j = store
  stores : ∀ m, m ≠ j → s'.store m = s.store m
  pending : s'.pending = s.pending
  inFlight : s'.inFlight = s.inFlight

lemma Coherent.joined (h : s.Coherent net) {j : N} {phase : Phase} {store : JsonStore}
    (hs : Joined s s' j phase store) (hj : s.phase j ≠ .subscribed)
    (hkeyed : phase = .subscribed ∨ phase = .restored → ∀ t ∈ CLUSTER_TABLES, KeyedIn t store)
    (hview : ∀ κ : Cell, κ.1 ∈ CLUSTER_TABLES → ∀ o, s.Owned κ o →
      (outcome (s.pending o) κ).getD (s'.view j κ) = cell (s.store o) κ) : s'.Coherent net := by
  have hne : ∀ {o}, s.phase o = .subscribed → o ≠ j := fun ho hoj => hj (hoj ▸ ho)
  refine ⟨hs.pending ▸ h.pending, hs.inFlight ▸ h.inFlight, ?_, ?_, ?_⟩
  · intro k hk q
    rw [hs.inFlight]
    by_cases hkj : k = j
    · rw [hkj]
      exact h.silent j hj q
    · rw [hs.phases k hkj] at hk
      exact h.silent k hk q
  · intro k hk
    by_cases hkj : k = j
    · rw [hkj, hs.store]
      rw [hkj, hs.phase] at hk
      exact hkeyed hk
    · rw [hs.stores k hkj]
      rw [hs.phases k hkj] at hk
      exact h.keyed k hk
  · intro κ hκ
    obtain ⟨o, ho⟩ := h.owned κ hκ
    have hoj := hne ho.here
    refine ⟨o, (hs.phases o hoj).trans ho.here, ⟨hs.pending ▸ ho.alone.1, hs.inFlight ▸ ho.alone.2⟩, ?_⟩
    intro k hk
    rw [hs.pending, hs.inFlight, hs.stores o hoj]
    by_cases hkj : k = j
    · rw [hkj, h.silent j hj o, List.nil_append]
      exact hview κ hκ o ho
    · rw [hs.phases k hkj] at hk
      rw [view_congr (hs.phases k hkj) (by rw [hs.stores k hkj])]
      exact ho.settles k hk

lemma Coherent.answer (h : s.Coherent net) {j p : N} (hcatch : s.CatchesUp (.answer j p))
    (hmove : s.move net cron (.answer j p) = some s') : s'.Coherent net := by
  rw [move] at hmove
  split at hmove
  · rename_i hj hp
    obtain rfl := Option.some.inj hmove
    refine h.joined (j := j) ⟨Function.update_self .., fun m hm => Function.update_of_ne hm .., rfl,
      fun _ _ => rfl, rfl, rfl⟩ (by rw [hj]; simp) (by simp) ?_
    intro κ hκ o ho
    have hview :
        view { s with phase := Function.update s.phase j (.answered (snapshot (s.store p))) } j κ =
        cell (s.store p) κ := by
      simp only [view, Function.update_self]
      exact snapshotCell_snapshot hκ (h.keyed p (.inl hp) κ.1 hκ)
    have hold := ho.settles p (by rw [hp]; simp)
    rw [hcatch o, List.nil_append, view_of_subscribed hp] at hold
    rw [hview]
    exact hold
  · cases hmove

lemma Coherent.restore (h : s.Coherent net) {j : N} (hcatch : s.CatchesUp (.restore j))
    (hmove : s.move net cron (.restore j) = some s') : s'.Coherent net := by
  rw [move] at hmove
  split at hmove
  · rename_i v hj
    obtain rfl := Option.some.inj hmove
    have hview : ∀ κ, s.view j κ = snapshotCell v κ := fun κ => by simp only [view, hj]
    have hcell : ∀ κ : Cell, κ.1 ∈ CLUSTER_TABLES →
        cell (NodeClusterHandler.restore (s.store j) v) κ = snapshotCell v κ := by
      intro κ hκ
      rw [cell_restore hκ]
      cases hsnap : snapshotCell v κ with
      | some doc => rfl
      | none => rw [Option.none_or, hcatch κ hκ (by rw [hview, hsnap])]
    refine h.joined (j := j) ⟨Function.update_self .., fun m hm => Function.update_of_ne hm ..,
      Function.update_self .., fun m hm => Function.update_of_ne hm .., rfl, rfl⟩
      (by rw [hj]; simp) ?_ ?_
    · intro _ t ht row hrow
      have hrow' := hcell (t, row.1) ht
      rw [cell, Table.find_eq_some.mpr hrow] at hrow'
      exact backupKey_of_rowsFor (Table.mem_of_lastFor hrow'.symm)
    · intro κ hκ o ho
      have hold := ho.settles j (by rw [hj]; simp)
      rw [h.silent j (by rw [hj]; simp) o, List.nil_append, hview] at hold
      simp only [view, Function.update_self]
      rw [hcell κ hκ]
      exact hold
  · cases hmove

lemma Coherent.subscribe (h : s.Coherent net) {j : N}
    (hmove : s.move net cron (.subscribe j) = some s') :
    s'.Coherent net := by
  rw [move] at hmove
  split at hmove
  · rename_i hj
    obtain rfl := Option.some.inj hmove
    refine h.joined (j := j) ⟨Function.update_self .., fun m hm => Function.update_of_ne hm .., rfl,
      fun _ _ => rfl, rfl, rfl⟩ (by rw [hj]; simp) (fun _ => h.keyed j (.inr hj)) ?_
    intro κ hκ o ho
    have hold := ho.settles j (by rw [hj]; simp)
    rw [h.silent j (by rw [hj]; simp) o, List.nil_append] at hold
    rw [← hold]
    simp only [view, Function.update_self, hj]
  · cases hmove

lemma Coherent.move (h : s.Coherent net) {m : Move N} (hok : s.Orderly m ∧ s.CatchesUp m)
    (hmove : s.move net cron m = some s') : s'.Coherent net := by
  cases m with
  | request n w => exact h.request hok.1 hmove
  | publish n i => exact h.publish hok.1 hok.2 hmove
  | deliver p m => exact h.deliver hmove
  | answer j p => exact h.answer hok.2 hmove
  | restore j => exact h.restore hok.2 hmove
  | subscribe j => exact h.subscribe hmove

lemma phase_of_all (hall : ∀ n, s.phase n = .subscribed) {m : Move N}
    (hmove : s.move net cron m = some s') :
    s.CatchesUp m ∧ ∀ n, s'.phase n = .subscribed := by
  cases m with
  | request n w =>
    refine ⟨trivial, ?_⟩
    rw [move] at hmove
    split at hmove
    · split at hmove
      · obtain rfl := Option.some.inj hmove
        exact hall
      · cases hmove
    · cases hmove
  | publish n i =>
    refine ⟨fun c _ j hj => ?_, ?_⟩
    · simp [hall j] at hj
    · obtain ⟨c, -, hs⟩ := move_publish hmove
      rw [hs.phase]
      exact hall
  | deliver p m =>
    obtain ⟨c, rest, hs⟩ := move_deliver hmove
    refine ⟨trivial, ?_⟩
    rw [hs.phase]
    exact hall
  | answer j p => simp [move, hall j] at hmove
  | restore j => simp [move, hall j] at hmove
  | subscribe j => simp [move, hall j] at hmove

/-- Nodes that all follow the changes hold the same rows once everything has been delivered, in every run
in which the requests on one row do not overlap. -/
theorem replication_converges {s₀ : ClusterState N} (hstart : s₀.Started cron)
    (hall : ∀ n, s₀.phase n = .subscribed) (hrun : Moves (move net cron) Orderly s₀ s) (hquiet : s.Quiet)
    (n m : N) : s.SameRows n m := by
  have hinv : s.Coherent net ∧ ∀ n, s.phase n = .subscribed := by
    refine hrun.invariant (I := fun s => s.Coherent net ∧ ∀ n, s.phase n = .subscribed) ?_
      ⟨hstart.coherent, hall⟩
    rintro u m v ⟨hcoherent, hu⟩ hok hmove
    obtain ⟨hcatch, hphase⟩ := phase_of_all hu hmove
    exact ⟨hcoherent.move ⟨hok, hcatch⟩ hmove, hphase⟩
  exact hinv.1.sameRows hquiet (hinv.2 n) (hinv.2 m)

/-- A node that has joined holds the rows of its peers once everything has been delivered, in every run
in which the requests on one row do not overlap, and every join catches up. -/
theorem join_catches_up {s₀ : ClusterState N} (hstart : s₀.Started cron)
    (hrun : Moves (move net cron) (fun s m => s.Orderly m ∧ s.CatchesUp m) s₀ s)
    (hquiet : s.Quiet) {j p : N} (hj : s.phase j = .subscribed) (hp : s.phase p = .subscribed) :
    s.SameRows j p := by
  have hcoherent : s.Coherent net :=
    hrun.invariant (fun _ _ _ h hok hmove => h.move hok hmove) hstart.coherent
  exact hcoherent.sameRows hquiet hj hp

end Runs

end ClusterState

section Instances

open ClusterState

def pair : Nodes Bool where
  id n := if n then "node-2" else "node-1"
  injective a b h := by
    revert a b
    decide

def freshPair : ClusterState Bool := ⟨fun _ => .empty, fun _ => .subscribed, fun _ => [], fun _ _ => []⟩

def partnerA : Entity := ⟨"P", none, none, ⟨[("description", .string "A")], by decide⟩⟩

def partnerB : Entity := ⟨"P", none, none, ⟨[("description", .string "B")], by decide⟩⟩

lemma freshPair_started : freshPair.Started noCron where
  quiet _ := ⟨rfl, fun _ => rfl⟩
  phase _ := .inr rfl
  peer := ⟨false, rfl⟩
  reachable _ _ := .empty
  agree _ _ _ _ _ _ _ := Iff.rfl

def quietPair (s : ClusterState Bool) : Bool :=
  (s.pending false).isEmpty && (s.pending true).isEmpty && (s.inFlight false false).isEmpty &&
    (s.inFlight false true).isEmpty && (s.inFlight true false).isEmpty && (s.inFlight true true).isEmpty

lemma quiet_of_quietPair {s : ClusterState Bool} (h : quietPair s = true) : s.Quiet := by
  simp only [quietPair, Bool.and_eq_true, List.isEmpty_iff] at h
  obtain ⟨⟨⟨⟨⟨h1, h2⟩, h3⟩, h4⟩, h5⟩, h6⟩ := h
  intro p
  cases p
  · exact ⟨h1, fun m => by cases m <;> assumption⟩
  · exact ⟨h2, fun m => by cases m <;> assumption⟩

abbrev pairAfter : ClusterState Bool → Move Bool → ClusterState Bool := after (move pair noCron)

def requested : ClusterState Bool :=
  pairAfter freshPair (.request false (.createEntity "now" .partner partnerA))

def publishedOnce : ClusterState Bool := pairAfter requested (.publish false 0)

def replicated : ClusterState Bool :=
  pairAfter (pairAfter publishedOnce (.deliver false false)) (.deliver false true)

theorem replication_converges_partner : replicated.SameRows false true := by
  have hrequest : Steps (move pair noCron) Orderly freshPair requested := by
    apply steps_after
    · exact fun κ _ => ⟨fun p _ c hc => absurd hc List.not_mem_nil, fun p _ m c hc =>
        absurd hc List.not_mem_nil⟩
    · decide +kernel
  have hpublish : Steps (move pair noCron) Orderly requested publishedOnce := by
    apply steps_after
    · exact fun c _ d hd => absurd hd List.not_mem_nil
    · decide +kernel
  have hdeliver : Moves (move pair noCron) Orderly publishedOnce replicated := by
    refine .tail (.single (steps_after (m := Move.deliver false false) trivial ?_))
      (steps_after (m := Move.deliver false true) trivial ?_)
    · decide +kernel
    · decide +kernel
  refine replication_converges freshPair_started (fun _ => rfl)
    (.head hrequest (.head hpublish hdeliver)) ?_ false true
  exact quiet_of_quietPair (by decide +kernel)

def crossed : ClusterState Bool :=
  [Move.request false (.createEntity "now" .partner partnerA),
    .request true (.createEntity "now" .partner partnerB), .publish false 0, .publish true 0,
    .deliver false false, .deliver true true, .deliver false true,
    .deliver true false].foldl pairAfter freshPair

def descriptionOf (s : JsonStore) (id : String) : Option String :=
  ((cell s ("partners", id)).bind fun doc => doc.get "description").bind Value.asStr

theorem replication_diverges :
    ¬ ∀ s₀ s : ClusterState Bool, s₀.Started noCron → (∀ n, s₀.phase n = .subscribed) →
      Moves (move pair noCron) (fun _ _ => True) s₀ s → s.Quiet → ∀ n m, s.SameRows n m := by
  intro h
  have hsame := h freshPair crossed freshPair_started (fun _ => rfl) (moves_foldl _ freshPair)
    (quiet_of_quietPair (by decide +kernel)) false true
  have hcell : cell (crossed.store false) ("partners", "P") = cell (crossed.store true)
      ("partners", "P") :=
    hsame.cell (by decide)
  have hdescription :
      descriptionOf (crossed.store false) "P" = descriptionOf (crossed.store true) "P" := by
    rw [descriptionOf, descriptionOf, hcell]
  revert hdescription
  decide +kernel

def partnerStore : JsonStore := JsonStore.empty.put "partners" "P" (toValue (partnerA.touch "now" true))

lemma partnerStore_reachable : Reachable noCron partnerStore :=
  Reachable.write "node-1" (.createEntity "now" .partner partnerA) .empty rfl

def joining (store : JsonStore) : ClusterState Bool where
  store n := if n then store else partnerStore
  phase n := if n then .outside else .subscribed
  pending _ := []
  inFlight _ _ := []

lemma joining_started (store : JsonStore) : (joining store).Started noCron where
  quiet _ := ⟨rfl, fun _ => rfl⟩
  phase n := by cases n <;> simp [joining]
  peer := ⟨false, rfl⟩
  reachable n hn := by
    cases n with
    | true => cases hn
    | false => exact partnerStore_reachable
  agree n m hn hm := by
    cases n with
    | true => cases hn
    | false =>
      cases m with
      | true => cases hm
      | false => exact fun _ _ _ => Iff.rfl

def answered (store : JsonStore) : ClusterState Bool := pairAfter (joining store) (.answer true false)

def joined (store : JsonStore) : ClusterState Bool :=
  pairAfter (pairAfter (answered store) (.restore true)) (.subscribe true)

theorem join_catches_up_empty : (joined .empty).SameRows true false := by
  have hanswer : Steps (move pair noCron) (fun s m => s.Orderly m ∧ s.CatchesUp m) (joining .empty)
      (answered .empty) :=
    steps_after ⟨trivial, fun _ => rfl⟩ (by decide +kernel)
  have hrestore : Steps (move pair noCron) (fun s m => s.Orderly m ∧ s.CatchesUp m) (answered .empty)
      (pairAfter (answered .empty) (.restore true)) :=
    steps_after ⟨trivial, fun _ _ _ => rfl⟩ (by decide +kernel)
  have hsubscribe : Steps (move pair noCron) (fun s m => s.Orderly m ∧ s.CatchesUp m)
      (pairAfter (answered .empty) (.restore true)) (joined .empty) :=
    steps_after (m := Move.subscribe true) (And.intro trivial trivial) (by decide +kernel)
  refine join_catches_up (joining_started .empty)
    (.head hanswer (.head hrestore (.single hsubscribe))) ?_ rfl rfl
  exact quiet_of_quietPair (by decide +kernel)

def leftover : JsonStore :=
  JsonStore.empty.put "partners" "Q" (toValue (Entity.touch { partnerA with id := "Q" } "now" true))

theorem join_keeps_leftover :
    ¬ ∀ s₀ s : ClusterState Bool, s₀.Started noCron →
      Moves (move pair noCron) (fun _ _ => True) s₀ s → s.Quiet →
      ∀ j p, s.phase j = .subscribed → s.phase p = .subscribed → s.SameRows j p := by
  intro h
  have hrun : Moves (move pair noCron) (fun _ _ => True) (joining leftover) (joined leftover) :=
    moves_foldl [Move.answer true false, .restore true, .subscribe true] (joining leftover)
  have hsame :=
    h (joining leftover) _ (joining_started leftover) hrun
      (quiet_of_quietPair (by decide +kernel)) true false
    rfl rfl
  have hcell :
      cell ((joined leftover).store true) ("partners", "Q") = cell ((joined leftover).store false)
      ("partners", "Q") :=
    hsame.cell (by decide)
  have hdescription :
      descriptionOf ((joined leftover).store true) "Q" =
      descriptionOf ((joined leftover).store false) "Q" := by
    rw [descriptionOf, descriptionOf, hcell]
  revert hdescription
  decide +kernel

end Instances

end PesitWizard.Node
