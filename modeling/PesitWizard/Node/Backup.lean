import PesitWizard.App.Store

/-! Configuration as one bundle: the tables that it carries, how it is taken from a store
and written to one. -/

namespace PesitWizard.Node

open App Library

def CONFIG_TABLES : List String :=
  ["partners", "virtual_files", "remote_partners", "servers", "remote_servers",
    "client_partners", "connectors", "schedules", "pki"]

def CLUSTER_TABLES : List String := ["partners", "virtual_files", "remote_partners", "schedules"]

def dumpOnly (s : JsonStore) (which : List String) : Value :=
  .object (which.map fun t => (t, .array (s.list t)))

def dump (s : JsonStore) : Value := dumpOnly s CONFIG_TABLES

def backupKey (table : String) (item : Value) : Option String :=
  if table = "servers" then (item.get "serverId").bind Value.asStr
  else if table = "pki" then some "vault"
  else (item.get "id").bind Value.asStr

def applyItem (table : String) (acc : JsonStore × ℕ) (item : Value) : JsonStore × ℕ :=
  match backupKey table item with
  | some key => (acc.1.put table key item, acc.2 + 1)
  | none => acc

def applyTable (acc : JsonStore × ℕ) (entry : String × Value) : JsonStore × ℕ :=
  if entry.1 ∈ CONFIG_TABLES then entry.2.items.foldl (applyItem entry.1) acc else acc

def applyTables (s : JsonStore) (tables : List (String × Value)) : JsonStore × ℕ :=
  tables.foldl applyTable (s, 0)

def keyed (table : String) (items : List Value) : List (String × Value) :=
  items.filterMap fun item => (backupKey table item).map fun key => (key, item)

def rowsFor (table : String) (tables : List (String × Value)) : List (String × Value) :=
  (tables.filter fun entry => entry.1 = table).flatMap fun entry => keyed table entry.2.items

lemma applyItem_tables (table : String) (acc : JsonStore × ℕ) (item : Value) (t : String) :
    (applyItem table acc item).1.tables t =
      if t = table then (acc.1.tables t).putAll (keyed table [item]) else acc.1.tables t := by
  cases h : backupKey table item with
  | none => simp [applyItem, keyed, h]
  | some key => simp [applyItem, keyed, h]

lemma applyItems_tables (table : String) (items : List Value) (acc : JsonStore × ℕ) (t : String) :
    (items.foldl (applyItem table) acc).1.tables t =
      if t = table then (acc.1.tables t).putAll (keyed table items) else acc.1.tables t := by
  induction items generalizing acc with
  | nil => simp [keyed]
  | cons item items ih =>
    rw [List.foldl_cons, ih, applyItem_tables]
    have hkeyed : keyed table (item :: items) = keyed table [item] ++ keyed table items := by
      rw [keyed, keyed, keyed, ← List.filterMap_append]
      rfl
    rw [hkeyed, Table.putAll_append]
    by_cases h : t = table <;> simp [h]

lemma rowsFor_cons (table : String) (entry : String × Value) (tables : List (String × Value)) :
    rowsFor table (entry :: tables) =
      (if table = entry.1 then keyed table entry.2.items else []) ++ rowsFor table tables := by
  by_cases h : entry.1 = table
  · simp [rowsFor, h]
  · simp [rowsFor, h, Ne.symm h]

lemma backupKey_of_rowsFor {table : String} {tables : List (String × Value)} {row : String × Value}
    (h : row ∈ rowsFor table tables) : backupKey table row.2 = some row.1 := by
  obtain ⟨entry, -, hentry⟩ := List.mem_flatMap.mp h
  obtain ⟨item, -, hitem⟩ := List.mem_filterMap.mp hentry
  obtain ⟨key, hkey, rfl⟩ := Option.map_eq_some_iff.mp hitem
  exact hkey

lemma applyTables_tables (s : JsonStore) (tables : List (String × Value)) (t : String) :
    (applyTables s tables).1.tables t =
      if t ∈ CONFIG_TABLES then (s.tables t).putAll (rowsFor t tables) else s.tables t := by
  have hfold : ∀ acc : JsonStore × ℕ, (tables.foldl applyTable acc).1.tables t =
      if t ∈ CONFIG_TABLES then (acc.1.tables t).putAll (rowsFor t tables) else acc.1.tables t := by
    induction tables with
    | nil =>
      intro acc
      by_cases h : t ∈ CONFIG_TABLES <;> simp [h, rowsFor]
    | cons entry tables ih =>
      intro acc
      rw [List.foldl_cons, ih, rowsFor_cons, Table.putAll_append]
      have hentry : (applyTable acc entry).1.tables t =
          if t ∈ CONFIG_TABLES then
          (acc.1.tables t).putAll (if t = entry.1 then keyed t entry.2.items else [])
          else acc.1.tables t := by
        rw [applyTable]
        by_cases he : entry.1 ∈ CONFIG_TABLES
        · rw [if_pos he, applyItems_tables]
          by_cases ht : t = entry.1
          · rw [if_pos ht, if_pos ht, if_pos (ht ▸ he), ht]
          · rw [if_neg ht, if_neg ht, Table.putAll_nil, ite_self]
        · rw [if_neg he]
          by_cases ht : t = entry.1
          · rw [if_neg (ht ▸ he)]
          · rw [if_neg ht, Table.putAll_nil, ite_self]
      rw [hentry]
      by_cases h : t ∈ CONFIG_TABLES <;> simp only [h, if_true, if_false]
  exact hfold (s, 0)

end PesitWizard.Node
