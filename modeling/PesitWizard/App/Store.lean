import Mathlib.Data.Int.Notation
import PesitWizard.Library.Table

/-! Documents in JSON, and the store that keeps them under string keys in named tables. -/

namespace PesitWizard.App

open Library

inductive Value
  | null
  | bool (b : Bool)
  | number (mantissa exponent : ℤ)
  | string (s : String)
  | array (items : List Value)
  | object (fields : List (String × Value))

namespace Value

def asObject : Value → Option (List (String × Value))
  | object fields => some fields
  | _ => none

def asStr : Value → Option String
  | string s => some s
  | _ => none

def items : Value → List Value
  | array items => items
  | _ => []

def field (fields : List (String × Value)) (name : String) : Option Value :=
  (fields.find? fun f => f.1 = name).map Prod.snd

def get (v : Value) (name : String) : Option Value := v.asObject.bind fun fields => field fields name

end Value

structure Extra (names : List String) where
  fields : List (String × Value)
  apart : ∀ f ∈ fields, f.1 ∉ names

namespace Extra

variable {names : List String}

def none : Extra names := ⟨[], by simp⟩

def rest (fields : List (String × Value)) : Extra names :=
  ⟨fields.filter fun f => f.1 ∉ names, fun f hf => by simpa using (List.mem_filter.mp hf).2⟩

lemma rest_append {known : List (String × Value)} (h : ∀ f ∈ known, f.1 ∈ names) (e : Extra names) :
    rest (known ++ e.fields) = e := by
  obtain ⟨fields, hfields⟩ := e
  have hknown : (known.filter fun f => f.1 ∉ names) = [] := by
    rw [List.filter_eq_nil_iff]
    intro f hf
    simpa using h f hf
  have hrest : (fields.filter fun f => f.1 ∉ names) = fields := by
    rw [List.filter_eq_self]
    intro f hf
    simpa using hfields f hf
  simp only [rest, List.filter_append, hknown, hrest, List.nil_append]

end Extra

namespace Value

def ofOption : Option String → Value
  | some s => .string s
  | none => .null

def ofNat (n : ℕ) : Value := .number n 0

def ofInt (n : ℤ) : Value := .number n 0

def readString (fields : List (String × Value)) (name default : String) : Option String :=
  match field fields name with
  | some v => v.asStr
  | none => some default

def readOption (fields : List (String × Value)) (name : String) : Option (Option String) :=
  match field fields name with
  | none | some .null => some none
  | some v => v.asStr.map some

def readNat (fields : List (String × Value)) (name : String) (default : ℕ) : Option ℕ :=
  match field fields name with
  | none => some default
  | some (.number m 0) => if 0 ≤ m then some m.toNat else none
  | some _ => none

def readInt (fields : List (String × Value)) (name : String) (default : ℤ) : Option ℤ :=
  match field fields name with
  | none => some default
  | some (.number m 0) => some m
  | some _ => none

def readFields (fields : List (String × Value)) (name : String) : Option (List (String × Value)) :=
  match field fields name with
  | none => some []
  | some v => v.asObject

def readBool (fields : List (String × Value)) (name : String) (default : Bool) : Option Bool :=
  match field fields name with
  | none => some default
  | some (.bool b) => some b
  | some _ => none

variable {fields : List (String × Value)} {name : String}

lemma readString_of_field {s default : String} (h : field fields name = some (.string s)) :
    readString fields name default = some s := by
  rw [readString, h]
  rfl

lemma readString_of_get {v : Value} {s default : String} (hv : v.asObject = some fields)
    (h : (v.get name).bind asStr = some s) : readString fields name default = some s := by
  rw [get, hv, Option.bind_some] at h
  obtain ⟨w, hw, hs⟩ := Option.bind_eq_some_iff.mp h
  rw [readString, hw]
  exact hs

lemma readOption_of_field {s : Option String} (h : field fields name = some (ofOption s)) :
    readOption fields name = some s := by
  rw [readOption, h]
  cases s <;> rfl

lemma readNat_of_field {n default : ℕ} (h : field fields name = some (ofNat n)) :
    readNat fields name default = some n := by
  rw [readNat, h]
  simp [ofNat]

lemma readInt_of_field {n default : ℤ} (h : field fields name = some (ofInt n)) :
    readInt fields name default = some n := by
  rw [readInt, h]
  simp [ofInt]

lemma readFields_of_field {nested : List (String × Value)}
    (h : field fields name = some (.object nested)) :
    readFields fields name = some nested := by
  rw [readFields, h]
  rfl

lemma readBool_of_field {b default : Bool} (h : field fields name = some (.bool b)) :
    readBool fields name default = some b := by
  rw [readBool, h]

end Value

class Document (T : Type) where
  toValue : T → Value
  ofValue : Value → Option T
  ofValue_toValue : ∀ x, ofValue (toValue x) = some x

export Document (toValue)

lemma exists_of_mem_mapM {α β : Type} {f : α → Option β} {l : List α} {m : List β} {b : β}
    (h : l.mapM f = some m) (hb : b ∈ m) : ∃ a ∈ l, f a = some b := by
  induction l generalizing m with
  | nil =>
    cases h
    cases hb
  | cons a l ih =>
    rw [List.mapM_cons] at h
    obtain ⟨c, hc, h⟩ := Option.bind_eq_some_iff.mp h
    obtain ⟨cs, hcs, h⟩ := Option.bind_eq_some_iff.mp h
    cases h
    rcases List.mem_cons.mp hb with rfl | hb
    · exact ⟨a, List.mem_cons_self, hc⟩
    · obtain ⟨a', ha', heq⟩ := ih hcs hb
      exact ⟨a', List.mem_cons_of_mem a ha', heq⟩

structure JsonStore where
  tables : String → Table String Value
  counters : String → ℕ

namespace JsonStore

def empty : JsonStore := ⟨fun _ => .empty, fun _ => 0⟩

def alter (s : JsonStore) (table : String) (f : Table String Value → Table String Value) : JsonStore :=
  { s with tables := fun t => if t = table then f (s.tables table) else s.tables t }

def put (s : JsonStore) (table key : String) (doc : Value) : JsonStore :=
  s.alter table fun t => t.put key doc

def delete (s : JsonStore) (table key : String) : JsonStore := s.alter table fun t => t.erase key

def «exists» (s : JsonStore) (table key : String) : Bool := ((s.tables table).find key).isSome

def list (s : JsonStore) (table : String) : List Value := (s.tables table).docs

section Typed

variable {T : Type} [Document T]

def get (s : JsonStore) (table key : String) : Option (Option T) :=
  match (s.tables table).find key with
  | none => some none
  | some doc => (Document.ofValue doc).map some

def listAs (s : JsonStore) (table : String) : Option (List T) := (s.list table).mapM Document.ofValue

end Typed

def nextCounter (s : JsonStore) (name : String) : ℕ × JsonStore :=
  let value := s.counters name + 1
  (value, { s with counters := fun n => if n = name then value else s.counters n })

@[simp] lemma alter_tables (s : JsonStore) (table : String)
    (f : Table String Value → Table String Value) (t : String) :
    (s.alter table f).tables t = if t = table then f (s.tables t) else s.tables t := by
  by_cases h : t = table
  · subst h
    rfl
  · simp [alter, h]

@[simp] lemma put_tables (s : JsonStore) (table key : String) (doc : Value) (t : String) :
    (s.put table key doc).tables t = if t = table then (s.tables t).put key doc else s.tables t :=
    alter_tables ..

@[simp] lemma delete_tables (s : JsonStore) (table key : String) (t : String) :
    (s.delete table key).tables t = if t = table then (s.tables t).erase key else s.tables t :=
    alter_tables ..

@[simp] lemma nextCounter_tables (s : JsonStore) (name : String) :
    (s.nextCounter name).2.tables = s.tables := rfl

end JsonStore

end PesitWizard.App
