import PesitWizard.App.Http
import PesitWizard.Client.Model
import PesitWizard.Io.Engine
import PesitWizard.Io.FileSink
import PesitWizard.Library.Moves
import PesitWizard.Library.Table

/-! The transfers that a node starts itself: how they are submitted, run against a server and retried. -/

namespace PesitWizard.Client

open App PesitWizard.Core Io Library

inductive TransferDirection
  | send | receive | message
  deriving DecidableEq

inductive TransferStatus
  | pending | inProgress | completed | failed | cancelled | interrupted
  deriving DecidableEq

namespace TransferStatus

def isFinal (s : TransferStatus) : Bool := s ≠ .pending ∧ s ≠ .inProgress

def isCut (s : TransferStatus) : Bool := s = .interrupted ∨ s = .failed ∨ s = .cancelled

end TransferStatus

structure TransferRequest where
  server : Option String
  partnerId : Option String
  filename : Option String
  remoteFilename : Option String
  virtualFile : Option String
  resumeFromTransferId : Option String
  deriving DecidableEq

namespace TransferRequest

def default : TransferRequest := ⟨none, none, none, none, none, none⟩

def given (s : Option String) : Option String := s.filter fun t => t ≠ ""

def remote (r : TransferRequest) : Option String := given (r.remoteFilename.or r.virtualFile)

end TransferRequest

structure MessageRequest where
  server : Option String
  partnerId : Option String
  messageName : Option String
  deriving DecidableEq

structure TransferHistory where
  id : String
  serverId : Option String
  partnerId : Option String
  direction : TransferDirection
  localFilename : Option String
  remoteFilename : Option String
  status : TransferStatus
  lastSyncPoint : ℕ
  pesitTransferId : ℕ
  request : Option TransferRequest
  deriving DecidableEq

structure Job where
  history : TransferHistory
  resume : Option TransferHistory
  retried : Bool
  deriving DecidableEq

/-- What a transfer does: the name of the store of its points, the point from which it resumes, the
number that it sends and the one that the server gives it, and the last point that was noted. -/
structure Attempt where
  store : String
  restart : Option Checkpoint
  sent : ℕ
  acknowledged : Option ℕ
  lastSync : ℕ
  deriving DecidableEq

def Attempt.identifier (a : Attempt) : ℕ := if a.sent ≠ 0 then a.sent else a.acknowledged.getD 0

inductive Phase
  | queued (job : Job)
  | running (job : Job) (attempt : Attempt)
  | messaging (job : Job)
  | ended (job : Job) (attempt : Option Attempt) (returned : Bool)
  deriving DecidableEq

structure Transfer where
  history : TransferHistory
  phase : Phase
  deriving DecidableEq

structure EngineSettings where
  receiveDir : String
  requesterId : String

/-- The transfers with their records, the stores of points by name, the counter of transfer
numbers and the files. -/
structure Engine where
  transfers : Table String Transfer
  stores : String → MemoryCheckpoints
  counter : ℕ
  disk : FileSystem

/-- What the outside decides about a request: the identifier of the transfer, the server that is found,
whether the file to send is a regular one, and the time. -/
structure Submission where
  id : String
  server : Except ApiError PesitServer
  source : Except ApiError Unit
  now : String

namespace Engine

variable (settings : EngineSettings)

def initial (disk : FileSystem) : Engine := ⟨.empty, fun _ => .empty, 0, disk⟩

def get (e : Engine) (id : String) : Option TransferHistory := (e.transfers.find id).map Transfer.history

/-- The records are kept in the store of the node. Its writes are assumed to go through: `save` only logs
one that fails, and `update` forgets it. -/
def put (e : Engine) (t : Transfer) : Engine := { e with transfers := e.transfers.put t.history.id t }

def newHistory (req : TransferRequest) (o : Submission) (server : PesitServer)
    (direction : TransferDirection) (localName remote : String) : TransferHistory where
  id := o.id
  serverId := some server.id
  partnerId := some ((TransferRequest.given req.partnerId).getD settings.requesterId)
  direction := direction
  localFilename := some localName
  remoteFilename := some remote
  status := .inProgress
  lastSyncPoint := 0
  pesitTransferId := 0
  request := some req

def resume (e : Engine) (req : TransferRequest) : Option TransferHistory :=
  req.resumeFromTransferId.bind e.get

def submitSend (e : Engine) (req : TransferRequest) (o : Submission) (retried : Bool) :
    Except ApiError Engine := do
  let server ← o.server
  match TransferRequest.given req.filename, req.remote with
  | none, _ => .error (.badRequest "filename is required")
  | some _, none => .error (.badRequest "remoteFilename is required")
  | some localName, some remote =>
    o.source
    let history := newHistory settings req o server .send localName remote
    let history := match e.resume req with
      | some prev =>
        { history with pesitTransferId := prev.pesitTransferId, lastSyncPoint := prev.lastSyncPoint }
      | none => history
    .ok (e.put ⟨history, .queued ⟨history, e.resume req, retried⟩⟩)

def receiveName (req : TransferRequest) (remote now : String) : String :=
  ((FilePath.ofString settings.receiveDir).join
    (FilePath.ofString ((TransferRequest.given req.filename).getD s!"{remote}_{now}"))).display

def submitReceive (e : Engine) (req : TransferRequest) (o : Submission) (retried : Bool) :
    Except ApiError Engine := do
  let server ← o.server
  match req.remote with
  | none => .error (.badRequest "remoteFilename is required")
  | some remote =>
    let history :=
      newHistory settings req o server .receive (receiveName settings req remote o.now) remote
    let history := match e.resume req with
      | some prev =>
        { history with
          pesitTransferId := prev.pesitTransferId
          lastSyncPoint := prev.lastSyncPoint
          localFilename := prev.localFilename }
      | none => history
    .ok (e.put ⟨history, .queued ⟨history, e.resume req, retried⟩⟩)

def retryRequest (prev : TransferHistory) (id : String) : TransferRequest :=
  let req := prev.request.getD .default
  { req with
    server := prev.serverId.or req.server
    filename := prev.localFilename
    remoteFilename := prev.remoteFilename
    partnerId := prev.partnerId
    resumeFromTransferId := if 0 < prev.lastSyncPoint ∧ prev.status.isCut then some id else none }

def retry (e : Engine) (id : String) (o : Submission) : Except ApiError Engine :=
  match e.get id with
  | none => .error (.notFound s!"transfer '{id}' not found")
  | some prev =>
    if !prev.status.isFinal then .error (.conflict s!"transfer '{id}' is still running")
    else
      match prev.direction with
      | .receive => submitReceive settings e (retryRequest prev id) o true
      | _ => submitSend settings e (retryRequest prev id) o true

/-- The point that a store offers to a transfer that resumes: for a file that is received, only if
its data is there. -/
def usable (e : Engine) (history : TransferHistory) (store : String) : Option Checkpoint :=
  match history.direction with
  | .receive =>
    (e.stores store).last.filter fun _ =>
      e.disk.isFile (partPath (FilePath.ofString (history.localFilename.getD "")))
  | _ => (e.stores store).lastAcknowledged.or (e.stores store).last

def nextNumber (e : Engine) : ℕ := max ((e.counter + 1) % 0xFFFFFF) 1

def opening (e : Engine) (job : Job) : Attempt :=
  let store := (job.resume.map TransferHistory.id).getD job.history.id
  let restart := job.resume.bind fun prev => e.usable job.history prev.id
  let sent := match job.history.direction with
    | .receive => if restart.isSome then job.history.pesitTransferId else 0
    | _ => if restart.isSome ∧ job.history.pesitTransferId ≠ 0 then
      job.history.pesitTransferId else e.nextNumber
  ⟨store, restart, sent, none, 0⟩

/-- The number of a file to send is kept at once. For a file to receive, its temporary file is opened. -/
def start (e : Engine) (t : Transfer) (job : Job) : Engine :=
  let a := e.opening job
  match job.history.direction with
  | .receive =>
    { e.put { t with phase := .running job a } with
      disk := (FileSink.create e.disk (FilePath.ofString (job.history.localFilename.getD ""))
        (a.restart.map fun c => ⟨c.fileOffset, c.dataBytes, c.articles⟩)).1 }
  | _ =>
    { e.put ⟨{ t.history with pesitTransferId := a.sent }, .running job a⟩ with
      counter := if a.restart.isSome ∧ job.history.pesitTransferId ≠ 0 then
        e.counter else e.counter + 1 }

def endStatus : Option (DataEnd × Diagnostic) → TransferStatus
  | some (.completed, diag) => if diag.isOk then .completed else .failed
  | some (.interrupted _ _ byPeer, _) => if byPeer then .interrupted else .cancelled
  | some (.endedWithError _, _) => .failed
  | none => .failed

/-- The record at the end. The number of a file that was received is kept only now, and only after a
session that returned. -/
def finish (h : TransferHistory) (a : Attempt) (outcome : Option (DataEnd × Diagnostic)) :
    TransferHistory :=
  { h with
    status := endStatus outcome
    pesitTransferId :=
      if h.direction = .receive ∧ outcome.isSome then a.acknowledged.getD a.sent else h.pesitTransferId }

def noteProgress (h : TransferHistory) (a : Attempt) (p : Progress) : TransferHistory :=
  if p.sync ≠ a.lastSync then { h with lastSyncPoint := p.sync } else h

def resetForFullRetry (e : Engine) (t : Transfer) (job : Job) : Engine :=
  let e := e.put ⟨{ t.history with lastSyncPoint := 0 }, .queued { job with resume := none }⟩
  { e with stores := fun n => if n = t.history.id then .empty else e.stores n }

def messageHistory (req : MessageRequest) (o : Submission) (server : PesitServer) : TransferHistory where
  id := o.id
  serverId := some server.id
  partnerId := some ((TransferRequest.given req.partnerId).getD settings.requesterId)
  direction := .message
  localFilename := none
  remoteFilename := req.messageName
  status := .inProgress
  lastSyncPoint := 0
  pesitTransferId := 0
  request := none

/-- The record of a message is there before its session begins. -/
def sendMessage (e : Engine) (req : MessageRequest) (o : Submission) : Except ApiError Engine := do
  let server ← o.server
  let history := messageHistory settings req o server
  .ok (e.put ⟨history, .messaging ⟨history, none, false⟩⟩)

def messageStatus : Option Diagnostic → TransferStatus
  | some diag => if diag.isOk then .completed else .failed
  | none => .failed

end Engine

/-- What happens to the transfers, in any order: requests, what sessions do until they end, and what
others do to the files. -/
inductive EngineMove
  | submit (direction : TransferDirection) (req : TransferRequest) (o : Submission)
  | retry (id : String) (o : Submission)
  | start (id : String)
  | abandon (id : String)
  | acknowledge (id : String) (number : ℕ)
  | progress (id : String) (p : Progress)
  | points (id : String) (store : MemoryCheckpoints)
  | refuse (id : String)
  | finish (id : String) (outcome : Option (DataEnd × Diagnostic))
  | message (req : MessageRequest) (o : Submission)
  | messageNumber (id : String)
  | messageEnd (id : String) (outcome : Option Diagnostic)
  | files (disk : FileSystem)

namespace Engine

variable (settings : EngineSettings)

def whileRunning (e : Engine) (id : String) (f : Transfer → Job → Attempt → Engine) : Option Engine :=
  match e.transfers.find id with
  | some t =>
    match t.phase with
    | .running job a => some (f t job a)
    | _ => none
  | none => none

def whileQueued (e : Engine) (id : String) (f : Transfer → Job → Engine) : Option Engine :=
  match e.transfers.find id with
  | some t =>
    match t.phase with
    | .queued job => some (f t job)
    | _ => none
  | none => none

def whileMessaging (e : Engine) (id : String) (f : Job → Engine) : Option Engine :=
  match e.transfers.find id with
  | some t =>
    match t.phase with
    | .messaging job => some (f job)
    | _ => none
  | none => none

def step (e : Engine) : EngineMove → Option Engine
  | .submit direction req o =>
    if o.id ∈ e.transfers.keys then none
    else
      match direction with
      | .receive => (submitReceive settings e req o false).toOption
      | _ => (submitSend settings e req o false).toOption
  | .retry id o => if o.id ∈ e.transfers.keys then none else (retry settings e id o).toOption
  | .start id => e.whileQueued id e.start
  | .abandon id => e.whileQueued id fun t job =>
      e.put ⟨{ t.history with status := .failed }, .ended job none false⟩
  | .acknowledge id number => e.whileRunning id fun t job a =>
      e.put { t with phase := .running job { a with acknowledged := some number } }
  | .progress id p => e.whileRunning id fun t job a =>
      e.put ⟨noteProgress t.history a p, .running job { a with lastSync := p.sync }⟩
  | .points id store => e.whileRunning id fun _ _ a =>
      { e with stores := fun n => if n = a.store then store else e.stores n }
  | .refuse id =>
    e.whileRunning id fun t job _ => if job.resume.isSome then e.resetForFullRetry t job else e
  | .finish id outcome => e.whileRunning id fun t job a =>
      e.put ⟨finish t.history a outcome, .ended job (some a) outcome.isSome⟩
  | .message req o => if o.id ∈ e.transfers.keys then none else (sendMessage settings e req o).toOption
  | .messageNumber id => e.whileMessaging id fun _ => { e with counter := e.counter + 1 }
  | .messageEnd id outcome => e.whileMessaging id fun job =>
      e.put ⟨{ job.history with status := messageStatus outcome }, .ended job none outcome.isSome⟩
  | .files disk => some { e with disk := disk }

end Engine

end PesitWizard.Client
