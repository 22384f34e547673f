import PesitWizard.App.Http
import PesitWizard.Io.FileSink
import PesitWizard.Library.Moves
import PesitWizard.Library.Table
import PesitWizard.Node.PwHandler

/-! How the handler of a listener answers requests to write and to read files, with the records of the
transfers, the files and the checkpoints that it keeps between sessions. -/

namespace PesitWizard.Node

open App PesitWizard.Core Io Library

inductive AccessType
  | read | write | both
  deriving DecidableEq

def AccessType.canWrite (a : AccessType) : Bool := a = .write ∨ a = .both

def AccessType.canRead (a : AccessType) : Bool := a = .read ∨ a = .both

structure Partner where
  id : String
  accessType : AccessType
  allowedFiles : Option String
  deriving DecidableEq

def asciiLower (b : UInt8) : UInt8 := if 65 ≤ b ∧ b ≤ 90 then b + 32 else b

def globMatch : List UInt8 → List UInt8 → Bool
  | [], [] => true
  | [], _ :: _ => false
  | p :: ps, [] => p == 42 && globMatch ps []
  | p :: ps, t :: ts =>
    if p = 42 then globMatch ps (t :: ts) || globMatch (p :: ps) ts
    else if p = 63 then globMatch ps ts
    else asciiLower p == asciiLower t && globMatch ps ts
  termination_by p t => p.length + t.length

def textBytes (s : String) : List UInt8 := s.toUTF8.data.toList

namespace Partner

def canAccessFile (p : Partner) (file : String) : Bool :=
  match nonBlank p.allowedFiles with
  | none => true
  | some list => (list.toList.splitOn ',').any fun item =>
      globMatch (textBytes (trim (String.ofList item))) (textBytes file)

end Partner

inductive FileDirection
  | receive | send | both
  deriving DecidableEq

structure VirtualFile where
  id : String
  enabled : Bool
  direction : FileDirection
  receiveDirectory : Option String
  sendFile : Option String
  receiveFilenamePattern : String
  overwrite : Bool
  maxFileSize : ℕ
  recordLength : ℕ
  connector : Option String
  deriving DecidableEq

namespace VirtualFile

def canReceive (vf : VirtualFile) : Bool := vf.direction = .receive ∨ vf.direction = .both

def canSend (vf : VirtualFile) : Bool := vf.direction = .send ∨ vf.direction = .both

def given (s : Option String) : Option String := s.filter fun t => t ≠ ""

def staged (vf : VirtualFile) : Bool := (given vf.connector).isSome

end VirtualFile

structure Listener where
  serverId : String
  receiveDirectory : String
  sendDirectory : String

structure Catalogue where
  partner : String → Option Partner
  virtualFile : String → Option VirtualFile

structure Clock where
  compact : String
  date : String
  time : String

inductive TransferDirection
  | send | receive | message
  deriving DecidableEq

structure StoredRecord extends TransferRecord where
  transferId : String
  pesitTransferId : ℕ
  serverId : String
  direction : TransferDirection
  partnerId : String
  filename : String
  localPath : Option FilePath
  parentTransferId : Option String

def refuse {α : Type} (diag : Diagnostic) (message : String) : Except Refusal α :=
  .error ⟨diag, some message⟩

def checkPartner (c : Catalogue) (session : SessionInfo) (file : FileSpec) (write : Bool) :
    Except Refusal Partner :=
  match c.partner session.requester with
  | none => refuse .callerUnknown s!"partner '{session.requester}' not configured"
  | some partner =>
    if !(if write then partner.accessType.canWrite else partner.accessType.canRead) then
      refuse .transferRefused
        (s!"partner '{partner.id}' is not allowed to " ++ if write then "send" else "receive")
    else if !partner.canAccessFile file.fileName then
      refuse .transferRefused s!"partner '{partner.id}' may not access '{file.fileName}'"
    else .ok partner

def restartKey (session : SessionInfo) (file : FileSpec) (tid : ℕ) : String :=
  String.ofList ((s!"{session.requester}_{file.fileName}_{tid}").toList.map fun c =>
    if c.isAlphanum || c == '_' || c == '-' then c else '_')

def receivePath (l : Listener) (vf : VirtualFile) (session : SessionInfo) (file : FileSpec) (tid : ℕ)
    (clock : Clock) :
    FilePath :=
  let dir := (VirtualFile.given vf.receiveDirectory).getD l.receiveDirectory
  let pattern :=
    if vf.receiveFilenamePattern = "" then "$\x7bvirtualFile\x7d_$\x7btimestamp\x7d" else
      vf.receiveFilenamePattern
  (FilePath.ofString dir).join (FilePath.ofString (resolvePlaceholders pattern
    [("virtualFile", file.fileName), ("transferId", toString tid), ("timestamp", clock.compact),
    ("date", clock.date),
      ("time", clock.time), ("partnerId", session.requester), ("serverId", l.serverId)]))

def interruptedRecord (l : Listener) (records : List StoredRecord) (partner file : String) (tid : ℕ) :
    Option StoredRecord :=
  records.reverse.find? fun r => r.status = .interrupted && r.pesitTransferId == tid &&
    r.partnerId == partner && r.filename == file && r.serverId == l.serverId

structure Receiving where
  file : String
  path : FilePath
  temporary : ℕ
  deriving DecidableEq

/-- What is kept of a transfer until it ends. What was received for a connector is uploaded from its
staging file, and then the record names the place where it went. -/
structure Active where
  lastBytes : ℕ
  lastSync : ℕ
  connectorUpload : Option (FilePath × FilePath)
  connectorTemp : Option FilePath

/-- What the handlers of a node share and keep, with the files that were received and are still as they
were, by virtual file. -/
structure Site where
  catalogue : Catalogue
  records : Table String StoredRecord
  counter : ℕ
  checkpoints : String → String → MemoryCheckpoints
  active : Table String Active
  disk : FileSystem
  receiving : Table String Receiving
  received : List (String × FilePath)

/-- What the outside decides about a request: the time, the identifier of the record, the staging file of
a connector, what the connector gives and the name under which it keeps a file, and the failures of the
file system and of the store. -/
structure Circumstances where
  clock : Clock
  recordId : String
  staging : FilePath
  fetched : Bytes
  remote : FilePath
  openFailure : Option Refusal
  storeFailure : Option Refusal

/-- What a request to write comes to: the number of the transfer, the path and the
point to go on from. -/
structure Plan where
  partner : Partner
  vf : VirtualFile
  tid : ℕ
  previous : Option StoredRecord
  path : FilePath
  restart : Option Checkpoint

namespace Site

def initial (c : Catalogue) (disk : FileSystem) : Site where
  catalogue := c
  records := .empty
  counter := 0
  checkpoints _ _ := .empty
  active := .empty
  disk := disk
  receiving := .empty
  received := []

def onDisk (s : Site) (disk : FileSystem) : Site :=
  { s with disk := disk, received := s.received.filter fun e => disk.read e.2 = s.disk.read e.2 }

def pesitTransferId (s : Site) (requested : ℕ) : ℕ × Site :=
  if requested ≠ 0 then (requested, s)
  else
    let counter := s.counter + 1
    (max (counter % 0xFFFFFF) 1, { s with counter := counter })

def clearCheckpoints (s : Site) (serverId key : String) : Site :=
  { s with checkpoints := fun i k => if i = serverId ∧ k = key then .empty else s.checkpoints i k }

def choosePath (s : Site) (l : Listener) (vf : VirtualFile) (session : SessionInfo)
    (file : FileSpec) (tid : ℕ) (clock : Clock) (previous : Option StoredRecord) :
    Site × Except Refusal (FilePath × Option Checkpoint) :=
  let key := restartKey session file tid
  match previous with
  | some prev =>
    let path := prev.localPath.getD (receivePath l vf session file tid clock)
    let restart := (s.checkpoints l.serverId key).last.filter fun _ => s.disk.isFile (partPath path)
    (if restart.isNone then s.clearCheckpoints l.serverId key else s, .ok (path, restart))
  | none =>
    let path := receivePath l vf session file tid clock
    (s.clearCheckpoints l.serverId key,
      if s.disk.isFile path && !vf.overwrite then refuse .fileExists s!"{path.display} already exists"
      else .ok (path, none))

def newRecord (l : Listener) (direction : TransferDirection) (partner : String)
    (file : FileSpec) (tid : ℕ) (path : Option FilePath) (recordId : String) : StoredRecord where
  status := .initiated
  lastSyncPoint := 0
  transferId := recordId
  pesitTransferId := tid
  serverId := l.serverId
  direction := direction
  partnerId := partner
  filename := file.fileName
  localPath := path
  parentTransferId := none

def register (s : Site) (record : StoredRecord) (connectorUpload : Option (FilePath × FilePath))
    (connectorTemp : Option FilePath) :
    Site :=
  { s with
    records := s.records.put record.transferId record
    active := s.active.put record.transferId ⟨0, 0, connectorUpload, connectorTemp⟩ }

def admitCreate (c : Catalogue) (session : SessionInfo) (file : FileSpec) :
    Except Refusal (Partner × VirtualFile) := do
  let partner ← checkPartner c session file true
  match c.virtualFile file.fileName with
  | none => refuse .transferRefused s!"virtual file '{file.fileName}' not configured"
  | some vf =>
    if !vf.enabled || !vf.canReceive then
      refuse .transferRefused s!"virtual file '{vf.id}' does not accept incoming transfers"
    else if 0 < vf.maxFileSize ∧ vf.maxFileSize < file.maxReservation.toNat * 1024 % 2 ^ 64 then
      refuse .diskQuota s!"file larger than the {vf.maxFileSize} bytes allowed for '{vf.id}'"
    else .ok (partner, vf)

def previous (s : Site) (l : Listener) (partner : Partner) (file : FileSpec) (tid : ℕ) :
    Option StoredRecord :=
  if file.restarted then interruptedRecord l s.records.docs partner.id file.fileName tid else none

def plan (s : Site) (l : Listener) (session : SessionInfo) (file : FileSpec) (o : Circumstances) :
    Site × Except Refusal Plan :=
  match admitCreate s.catalogue session file with
  | .error r => (s, .error r)
  | .ok (partner, vf) =>
    let (tid, s) := s.pesitTransferId file.transferId.toNat
    let previous := s.previous l partner file tid
    match s.choosePath l vf session file tid o.clock previous with
    | (s, .error r) => (s, .error r)
    | (s, .ok (path, restart)) =>
      let (path, restart) := if vf.staged then (o.staging, none) else (path, restart)
      match o.openFailure with
      | some r => (s, .error r)
      | none => (s, .ok ⟨partner, vf, tid, previous, path, restart⟩)

def Plan.record (p : Plan) (l : Listener) (file : FileSpec) (recordId : String) : StoredRecord :=
  { newRecord l .receive p.partner.id file p.tid (some p.path) recordId with
    parentTransferId := p.previous.map StoredRecord.transferId
    lastSyncPoint := (p.restart.map Checkpoint.sync).getD 0 }

def openSink (s : Site) (l : Listener) (file : FileSpec) (o : Circumstances) (p : Plan) :
    Site × Except Refusal Receiving :=
  let (disk, temporary) :=
    FileSink.create s.disk p.path (p.restart.map fun cp => ⟨cp.fileOffset, cp.dataBytes, cp.articles⟩)
  let s := s.onDisk disk
  match o.storeFailure with
  | some r => (s, .error r)
  | none =>
    let receiving := ⟨file.fileName, p.path, temporary⟩
    let s := s.register (Plan.record p l file o.recordId)
      (if p.vf.staged then some (o.remote, p.path) else none) none
    ({ s with receiving := s.receiving.put o.recordId receiving }, .ok receiving)

def create (s : Site) (l : Listener) (session : SessionInfo) (file : FileSpec) (o : Circumstances) :
    Site × Except Refusal Receiving :=
  match s.plan l session file o with
  | (s, .error r) => (s, .error r)
  | (s, .ok p) => s.openSink l file o p

def admitSelect (c : Catalogue) (session : SessionInfo) (file : FileSpec) :
    Except Refusal (Partner × VirtualFile) := do
  let partner ← checkPartner c session file false
  match c.virtualFile file.fileName with
  | none => refuse .fileNotFound s!"virtual file '{file.fileName}' not configured"
  | some vf =>
    if !vf.enabled || !vf.canSend then refuse .transferRefused s!"virtual file '{vf.id}' cannot be read"
    else .ok (partner, vf)

def sendPath (l : Listener) (vf : VirtualFile) (staging : FilePath) : FilePath :=
  if vf.staged then staging
  else
    match VirtualFile.given vf.sendFile with
    | some file => FilePath.ofString file
    | none => (FilePath.ofString l.sendDirectory).join (FilePath.ofString vf.id)

def select (s : Site) (l : Listener) (session : SessionInfo) (file : FileSpec) (o : Circumstances) :
    Site × Except Refusal StoredRecord :=
  match admitSelect s.catalogue session file with
  | .error r => (s, .error r)
  | .ok (partner, vf) =>
    let (tid, s) := s.pesitTransferId file.transferId.toNat
    let s := if vf.staged then s.onDisk (s.disk.link o.staging o.fetched) else s
    match o.openFailure with
    | some r => (s, .error r)
    | none =>
      let s := if file.restarted then s else s.clearCheckpoints l.serverId (restartKey session file tid)
      match o.storeFailure with
      | some r => (s, .error r)
      | none =>
        let path := sendPath l vf o.staging
        let record := newRecord l .send partner.id file tid (some path) o.recordId
        (s.register record none (if vf.staged then some path else none), .ok record)

def message (s : Site) (l : Listener) (session : SessionInfo) (file : FileSpec)
    (recordId : String) : Site :=
  let record := newRecord l .message session.requester file file.transferId.toNat none recordId
  { s with records := s.records.put recordId { record with status := .completed } }

/-- The writes of the records are assumed to go through, here and where a record is made: one that
fails is only logged. -/
def update (s : Site) (recordId : String) (f : StoredRecord → StoredRecord) : Site :=
  match s.records.find recordId with
  | some r => { s with records := s.records.put recordId (f r) }
  | none => s

def unstage (s : Site) (temp : Option FilePath) : Site :=
  match temp with
  | some p => s.onDisk (s.disk.remove p)
  | none => s

def release (s : Site) (a : Active) : Site :=
  (s.unstage (a.connectorUpload.map Prod.snd)).unstage a.connectorTemp

def upload (s : Site) (recordId : String) (a : Active) (uploaded : Bool) : Site :=
  match a.connectorUpload with
  | some (remote, _) =>
    s.update recordId fun r => if uploaded then { r with localPath := some remote } else
      { r with status := .failed }
  | none => s

/-- An event of a transfer that is over is ignored. A progress with little data soon after another
one is not noted. -/
def transferEvent (s : Site) (recordId : String) (e : TransferEvent) (soon uploaded : Bool) : Site :=
  match s.active.find recordId with
  | none => s
  | some a =>
    match e with
    | .started transferId start =>
      let s := { s with
        active := s.active.put recordId { a with lastSync := start.sync, lastBytes := start.dataBytes } }
      s.update recordId fun r =>
        { r with
          status := .inProgress
          pesitTransferId := transferId.toNat
          lastSyncPoint := start.sync }
    | .progress p =>
      if p.sync = a.lastSync ∧ p.dataBytes - a.lastBytes < 2 ^ 20 ∧ soon then s
      else
        let s := { s with
          active := s.active.put recordId { a with lastSync := p.sync, lastBytes := p.dataBytes } }
        s.update recordId fun r =>
          { r with
            status := .inProgress
            lastSyncPoint := if p.sync = a.lastSync then r.lastSyncPoint else p.sync }
    | .ended data diag =>
      let s := { s with active := s.active.erase recordId }
      let s := s.update recordId fun r =>
        { r with status := PwHandler.endStatus data diag, lastSyncPoint := data.lastSync }
      let s := if data.ending = .completed ∧ diag.isOk then s.upload recordId a uploaded else s
      s.release a
    | .failed _ =>
      let s := { s with active := s.active.erase recordId }
      let s := s.update recordId fun r =>
        { r with status := if 0 < r.lastSyncPoint then .interrupted else .failed }
      s.release a

end Site

end PesitWizard.Node
