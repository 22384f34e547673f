import PesitWizard.App.Store

/-! The configuration documents of a node, with the fields that its interfaces read and write. -/

namespace PesitWizard.Node

open App

structure Entity where
  id : String
  createdAt : Option String
  updatedAt : Option String
  extra : Extra ["id", "createdAt", "updatedAt"]

namespace Entity

def fields (e : Entity) : List (String × Value) :=
  [("id", .string e.id), ("createdAt", .ofOption e.createdAt),
    ("updatedAt", .ofOption e.updatedAt)] ++ e.extra.fields

instance : Document Entity where
  toValue e := .object e.fields
  ofValue v := do
    let fields ← v.asObject
    let id ← Value.readString fields "id" ""
    let createdAt ← Value.readOption fields "createdAt"
    let updatedAt ← Value.readOption fields "updatedAt"
    pure ⟨id, createdAt, updatedAt, .rest fields⟩
  ofValue_toValue e := by
    rw [Value.asObject, Option.bind_eq_bind, Option.bind_some]
    rw [Value.readString_of_field rfl, Value.readOption_of_field rfl,
      Value.readOption_of_field rfl, fields, Extra.rest_append (by simp)]
    rfl

end Entity

inductive ServerStatus
  | stopped | starting | running | stopping | error

namespace ServerStatus

def name : ServerStatus → String
  | stopped => "STOPPED"
  | starting => "STARTING"
  | running => "RUNNING"
  | stopping => "STOPPING"
  | error => "ERROR"

def ofName : String → Option ServerStatus
  | "STOPPED" => some stopped
  | "STARTING" => some starting
  | "RUNNING" => some running
  | "STOPPING" => some stopping
  | "ERROR" => some error
  | _ => none

lemma ofName_name (x : ServerStatus) : ofName x.name = some x := by
  cases x <;> rfl

end ServerStatus

structure PesitServerConfig where
  id : Option ℕ
  serverId : String
  port : ℕ
  bindAddress : String
  maxEntitySize : ℕ
  syncWindow : ℕ
  autoStart : Bool
  status : ServerStatus
  createdAt : Option String
  updatedAt : Option String
  lastStartedAt : Option String
  lastStoppedAt : Option String
  extra : Extra ["id", "serverId", "port", "bindAddress", "maxEntitySize", "syncWindow",
    "autoStart", "status", "createdAt", "updatedAt", "lastStartedAt", "lastStoppedAt"]

namespace PesitServerConfig

def idValue : Option ℕ → Value
  | some n => .ofNat n
  | none => .null

def readId (fields : List (String × Value)) : Option (Option ℕ) :=
  match Value.field fields "id" with
  | none | some .null => some none
  | some _ => (Value.readNat fields "id" 0).map some

lemma readId_of_field {fields : List (String × Value)} {id : Option ℕ}
    (h : Value.field fields "id" = some (idValue id)) :
    readId fields = some id := by
  rw [readId, h]
  cases id with
  | none => rfl
  | some n =>
    have hn : Value.readNat fields "id" 0 = some n := Value.readNat_of_field h
    simp only [idValue, Value.ofNat, hn, Option.map_some]

def fields (c : PesitServerConfig) : List (String × Value) :=
  [("id", idValue c.id), ("serverId", .string c.serverId), ("port", .ofNat c.port),
    ("bindAddress", .string c.bindAddress), ("maxEntitySize", .ofNat c.maxEntitySize),
    ("syncWindow", .ofNat c.syncWindow), ("autoStart", .bool c.autoStart),
    ("status", .string c.status.name), ("createdAt", .ofOption c.createdAt),
    ("updatedAt", .ofOption c.updatedAt), ("lastStartedAt", .ofOption c.lastStartedAt),
    ("lastStoppedAt", .ofOption c.lastStoppedAt)] ++ c.extra.fields

instance : Document PesitServerConfig where
  toValue c := .object c.fields
  ofValue v := do
    let fields ← v.asObject
    let id ← readId fields
    let serverId ← Value.readString fields "serverId" ""
    let port ← Value.readNat fields "port" 5001
    let bindAddress ← Value.readString fields "bindAddress" "0.0.0.0"
    let maxEntitySize ← Value.readNat fields "maxEntitySize" 4096
    let syncWindow ← Value.readNat fields "syncWindow" 4
    let autoStart ← Value.readBool fields "autoStart" false
    let status ← (Value.readString fields "status" "STOPPED").bind ServerStatus.ofName
    let createdAt ← Value.readOption fields "createdAt"
    let updatedAt ← Value.readOption fields "updatedAt"
    let lastStartedAt ← Value.readOption fields "lastStartedAt"
    let lastStoppedAt ← Value.readOption fields "lastStoppedAt"
    pure ⟨id, serverId, port, bindAddress, maxEntitySize, syncWindow, autoStart, status,
      createdAt, updatedAt, lastStartedAt, lastStoppedAt, .rest fields⟩
  ofValue_toValue c := by
    rw [Value.asObject, Option.bind_eq_bind, Option.bind_some]
    rw [readId_of_field rfl, Value.readString_of_field rfl, Value.readNat_of_field rfl,
      Value.readString_of_field rfl, Value.readNat_of_field rfl, Value.readNat_of_field rfl,
      Value.readBool_of_field rfl, Value.readString_of_field rfl, Value.readOption_of_field rfl,
      Value.readOption_of_field rfl, Value.readOption_of_field rfl,
      Value.readOption_of_field rfl, fields, Extra.rest_append (by simp)]
    simp only [Option.bind_some, ServerStatus.ofName_name]
    rfl

end PesitServerConfig

structure ScheduledTransfer where
  id : String
  name : String
  enabled : Bool
  direction : String
  request : List (String × Value)
  intervalSeconds : ℕ
  cron : Option String
  lastRun : Option String
  lastStatus : Option String
  nextRunMs : ℤ
  createdAt : Option String
  updatedAt : Option String

namespace ScheduledTransfer

def fields (s : ScheduledTransfer) : List (String × Value) :=
  [("id", .string s.id), ("name", .string s.name), ("enabled", .bool s.enabled),
    ("direction", .string s.direction), ("request", .object s.request),
    ("intervalSeconds", .ofNat s.intervalSeconds), ("cron", .ofOption s.cron),
    ("lastRun", .ofOption s.lastRun), ("lastStatus", .ofOption s.lastStatus),
    ("nextRunMs", .ofInt s.nextRunMs), ("createdAt", .ofOption s.createdAt),
    ("updatedAt", .ofOption s.updatedAt)]

instance : Document ScheduledTransfer where
  toValue s := .object s.fields
  ofValue v := do
    let fields ← v.asObject
    let id ← Value.readString fields "id" ""
    let name ← Value.readString fields "name" ""
    let enabled ← Value.readBool fields "enabled" true
    let direction ← Value.readString fields "direction" "send"
    let request ← Value.readFields fields "request"
    let intervalSeconds ← Value.readNat fields "intervalSeconds" 3600
    let cron ← Value.readOption fields "cron"
    let lastRun ← Value.readOption fields "lastRun"
    let lastStatus ← Value.readOption fields "lastStatus"
    let nextRunMs ← Value.readInt fields "nextRunMs" 0
    let createdAt ← Value.readOption fields "createdAt"
    let updatedAt ← Value.readOption fields "updatedAt"
    pure ⟨id, name, enabled, direction, request, intervalSeconds, cron, lastRun, lastStatus,
      nextRunMs, createdAt, updatedAt⟩
  ofValue_toValue s := by
    rw [Value.asObject, Option.bind_eq_bind, Option.bind_some]
    rw [Value.readString_of_field rfl, Value.readString_of_field rfl, Value.readBool_of_field rfl,
      Value.readString_of_field rfl, Value.readFields_of_field rfl, Value.readNat_of_field rfl,
      Value.readOption_of_field rfl, Value.readOption_of_field rfl, Value.readOption_of_field rfl,
      Value.readInt_of_field rfl, Value.readOption_of_field rfl, Value.readOption_of_field rfl]
    rfl

end ScheduledTransfer

end PesitWizard.Node
