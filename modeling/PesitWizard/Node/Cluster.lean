import PesitWizard.Node.Backup

/-! The configuration of a node as the others of its cluster change it. -/

namespace PesitWizard.Node

open App Library

structure ConfigChange where
  origin : String
  op : String
  table : String
  key : String
  doc : Option Value

namespace NodeClusterHandler

/-- The writes to the store are assumed to go through: one that fails is only logged, and
the change is lost. -/
def apply (s : JsonStore) (change : ConfigChange) : JsonStore :=
  if change.table ∈ CLUSTER_TABLES then
    if change.op = "delete" then s.delete change.table change.key
    else
      match change.doc with
      | some doc => s.put change.table change.key doc
      | none => s
  else s

def snapshot (s : JsonStore) : Value := .object [("tables", dumpOnly s CLUSTER_TABLES)]

def tablesOf (snapshot : Value) : List (String × Value) :=
  ((snapshot.get "tables").bind Value.asObject).getD []

def restore (s : JsonStore) (snapshot : Value) : JsonStore := (applyTables s (tablesOf snapshot)).1

end NodeClusterHandler

inductive BusMessage
  | change (c : ConfigChange)
  | snapshot (v : Value)

open NodeClusterHandler

def receive (s : JsonStore) : BusMessage → JsonStore
  | .change c => apply s c
  | .snapshot v => restore s v

lemma apply_tables_local (s : JsonStore) (c : ConfigChange) {t : String} (ht : t ∉ CLUSTER_TABLES) :
    (apply s c).tables t = s.tables t := by
  rw [apply]
  by_cases hc : c.table ∈ CLUSTER_TABLES
  · have hne : t ≠ c.table := fun h => ht (h ▸ hc)
    rw [if_pos hc]
    split
    · rw [JsonStore.delete_tables, if_neg hne]
    · split
      · rw [JsonStore.put_tables, if_neg hne]
      · rfl
  · rw [if_neg hc]

lemma restore_tables (s : JsonStore) (v : Value) (t : String) :
    (restore s v).tables t =
      if t ∈ CONFIG_TABLES then (s.tables t).putAll (rowsFor t (tablesOf v)) else s.tables t :=
      applyTables_tables ..

/-- A snapshot brings nothing new for the tables that a node does not share. -/
def Confined (s : JsonStore) : BusMessage → Prop
  | .change _ => True
  | .snapshot v => ∀ t ∈ CONFIG_TABLES, t ∉ CLUSTER_TABLES → ∀ key doc,
      Table.lastFor (rowsFor t (tablesOf v)) key = some doc → (s.tables t).find key = some doc

/-- The tables that are not shared are the same. -/
def SameLocal (s u : JsonStore) : Prop := ∀ t ∉ CLUSTER_TABLES, u.tables t = s.tables t

lemma receive_sameLocal_iff {s u : JsonStore} (h : SameLocal s u) (m : BusMessage) :
    SameLocal s (receive u m) ↔ Confined s m := by
  cases m with
  | change c =>
    refine ⟨fun _ => trivial, fun _ t ht => ?_⟩
    rw [receive, apply_tables_local u c ht, h t ht]
  | snapshot v =>
    have hput : ∀ t ∈ CONFIG_TABLES, t ∉ CLUSTER_TABLES →
        ((receive u (.snapshot v)).tables t = s.tables t ↔
        ∀ key doc, Table.lastFor (rowsFor t (tablesOf v)) key = some doc →
        (s.tables t).find key = some doc) := by
      intro t hc ht
      rw [receive, restore_tables, if_pos hc, h t ht, Table.putAll_eq_self_iff]
    constructor
    · intro hs t hc ht
      exact (hput t hc ht).mp (hs t ht)
    · intro hs t ht
      by_cases hc : t ∈ CONFIG_TABLES
      · exact (hput t hc ht).mpr (hs t hc ht)
      · rw [receive, restore_tables, if_neg hc, h t ht]

/-- Whatever a node receives from the bus, its own tables stay as they were exactly if no snapshot brings
anything new for them. -/
theorem cluster_confined_iff (s : JsonStore) (messages : List BusMessage) :
    (∀ received, received <+: messages → SameLocal s (received.foldl receive s)) ↔ ∀ m ∈ messages,
    Confined s m := by
  induction messages using List.reverseRecOn with
  | nil =>
    refine ⟨fun _ m hm => absurd hm List.not_mem_nil, fun _ received hr => ?_⟩
    rw [List.prefix_nil.mp hr]
    exact fun t _ => rfl
  | append_singleton messages m ih =>
    simp only [List.prefix_concat_iff, List.mem_append, List.mem_singleton]
    constructor
    · intro h
      have hbefore : ∀ received, received <+: messages → SameLocal s (received.foldl receive s) :=
        fun received hr => h received (.inr hr)
      have hlast := h _ (.inl rfl)
      rw [List.foldl_append] at hlast
      rintro m' (hm' | rfl)
      · exact ih.mp hbefore m' hm'
      · exact (receive_sameLocal_iff (hbefore messages List.prefix_rfl) m').mp hlast
    · intro h
      have hbefore := ih.mpr fun m' hm' => h m' (.inl hm')
      rintro received (rfl | hr)
      · rw [List.foldl_append]
        exact (receive_sameLocal_iff (hbefore messages List.prefix_rfl) m).mpr (h m (.inr rfl))
      · exact hbefore received hr

def foreignSnapshot : Value :=
  .object [("tables", .object [("connectors", .array [.object [("id", .string "archive")]])])]

theorem cluster_not_confined :
    ¬ ∀ (s : JsonStore) (messages : List BusMessage), SameLocal s (messages.foldl receive s) := by
  intro h
  have hc := congrArg Table.keys (h .empty [.snapshot foreignSnapshot] "connectors" (by decide))
  revert hc
  decide

end PesitWizard.Node
