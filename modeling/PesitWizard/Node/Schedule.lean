import Mathlib.Algebra.Ring.Int.Defs
import Mathlib.Algebra.Ring.Nat
import PesitWizard.Node.Api

/-! Transfers that are started again and again: the requests on them, and how a node decides
which ones it starts. -/

namespace PesitWizard.Node

open App

structure Cron where
  parse : String → Except String (ℤ → Option ℤ)

def cronExpr (raw : String) : String :=
  let raw := trim raw
  if wordCount raw = 5 then "0 " ++ raw else raw

def Cron.parseCron (cron : Cron) (expr : String) : Except String (ℤ → Option ℤ) :=
  cron.parse (cronExpr expr)

/-- An expression names times that are later than the given one. -/
def Cron.Lawful (cron : Cron) : Prop :=
  ∀ expr next t n, cron.parse expr = .ok next → next t = some n → t < n

namespace Schedule

variable (cron : Cron)

def intervalAfter (s : ScheduledTransfer) (fromMs : ℤ) : ℤ :=
  (fromMs + (max s.intervalSeconds 1 : ℕ) * 1000).bmod (2 ^ 64)

def nextRunAfter (s : ScheduledTransfer) (fromMs : ℤ) : ℤ :=
  match nonBlank s.cron with
  | none => intervalAfter s fromMs
  | some expr =>
    match cron.parseCron expr with
    | .error _ => intervalAfter s fromMs
    | .ok next => (next fromMs).getD (intervalAfter s fromMs)

variable (nodeId now : String) (nowMs : ℤ)

def checkCron (s : ScheduledTransfer) : Except ApiError Unit :=
  match nonBlank s.cron with
  | none => .ok ()
  | some expr =>
    match cron.parseCron expr with
    | .error e => .error (.badRequest s!"invalid cron expression: {e}")
    | .ok _ => .ok ()

def create (id : String) (s : JsonStore) (body : ScheduledTransfer) : Except ApiError Written := do
  if isBlank body.name then .error (.badRequest "name is required")
  else
    checkCron cron body
    if (nonBlank body.cron).isNone && body.intervalSeconds == 0 then
      .error (.badRequest "intervalSeconds must be at least 1, or set a cron expression")
    else
      let body := { body with id := id, createdAt := some now, updatedAt := some now }
      let body := { body with nextRunMs := nextRunAfter cron body nowMs }
      let doc := toValue body
      .ok ⟨s.put "schedules" body.id doc, publish nodeId "put" "schedules" body.id (some doc)⟩

def update (s : JsonStore) (id : String) (body : ScheduledTransfer) : Except ApiError Written := do
  match ← (fetch s "schedules" id : Except ApiError (Option ScheduledTransfer)) with
  | none => .error (.notFound s!"schedule '{id}' not found")
  | some old =>
    let body := { body with
      id := old.id, createdAt := old.createdAt, lastRun := old.lastRun, lastStatus := old.lastStatus,
      updatedAt := some now }
    checkCron cron body
    let body := if body.nextRunMs = 0 then
      { body with nextRunMs := nextRunAfter cron body nowMs } else body
    let doc := toValue body
    .ok ⟨s.put "schedules" id doc, publish nodeId "put" "schedules" id (some doc)⟩

def delete (s : JsonStore) (id : String) : Except ApiError Written :=
  if s.exists "schedules" id then
    .ok ⟨s.delete "schedules" id, publish nodeId "delete" "schedules" id none⟩
  else .error (.notFound s!"schedule '{id}' not found")

def runNow (outcome : String) (s : JsonStore) (id : String) : Except ApiError Written := do
  match ← (fetch s "schedules" id : Except ApiError (Option ScheduledTransfer)) with
  | none => .error (.notFound s!"schedule '{id}' not found")
  | some old =>
    let body := { old with lastRun := some now, lastStatus := some outcome }
    .ok ⟨s.put "schedules" id (toValue body), none⟩

def ownerIndex (scheduleId : String) (memberCount : ℕ) : ℕ :=
  if memberCount ≤ 1 then 0
  else
    let hash := scheduleId.toUTF8.data.toList.foldl
      (fun (hash : UInt64) b => (hash ^^^ b.toUInt64) * 0x100000001b3) 0xcbf29ce484222325
    hash.toNat % memberCount

/-- The place of a node among the members that it sees, and their number; both have a default for a list
that does not show the node. -/
def slice (nodeId : String) (members : List String) : ℕ × ℕ :=
  let ids := members.mergeSort fun a b => decide (a ≤ b)
  ((ids.findIdx? fun id => id == nodeId).getD 0, max ids.length 1)

def due (place : ℕ × ℕ) (nowMs : ℤ) (s : ScheduledTransfer) : Bool :=
  s.enabled && decide (s.nextRunMs ≤ nowMs) && ownerIndex s.id place.2 == place.1

def advance (outcome : String) (s : ScheduledTransfer) : ScheduledTransfer :=
  { s with
    lastRun := some now, lastStatus := some outcome, nextRunMs := nextRunAfter cron s nowMs, updatedAt :=
      some now }

variable {cron nowMs}

lemma intervalAfter_gt {s : ScheduledTransfer} (hlow : -2 ^ 63 ≤ nowMs)
    (hhigh : nowMs + (max s.intervalSeconds 1 : ℕ) * 1000 < 2 ^ 63) : nowMs < intervalAfter s nowMs := by
  have hpos : 1 ≤ max s.intervalSeconds 1 := Nat.le_max_right ..
  rw [intervalAfter, Int.bmod_eq_of_le (by omega) (by omega)]
  omega

lemma nextRunAfter_gt (hcron : cron.Lawful) {s : ScheduledTransfer} (hlow : -2 ^ 63 ≤ nowMs)
    (hhigh : nowMs + (max s.intervalSeconds 1 : ℕ) * 1000 < 2 ^ 63) :
    nowMs < nextRunAfter cron s nowMs := by
  have hinterval := intervalAfter_gt hlow hhigh
  rw [nextRunAfter]
  split
  · exact hinterval
  · split
    · exact hinterval
    · rename_i next hnext
      cases ht : next nowMs with
      | none => exact hinterval
      | some t => exact hcron _ next nowMs t hnext ht

end Schedule

end PesitWizard.Node
