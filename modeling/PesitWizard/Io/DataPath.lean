import PesitWizard.Core.Builder
import PesitWizard.Io.Link
import PesitWizard.Io.Stream
import PesitWizard.Library.Act

/-! Parameters and results of the data phase, and the interruption of it. -/

namespace PesitWizard.Io

open PesitWizard.Core Library

def defaultSyncInterval : ℕ := 1024 * 1024

structure DataParams where
  peerId : UInt8
  sync : SyncOption
  resync : Bool
  compression : Compression
  crc : Bool
  maxEntity : ℕ
  multiArticle : Bool
  maxArticle : ℕ
  role : Role
  deriving DecidableEq

def plainParams : DataParams := ⟨1, .none, true, .none, false, 100, false, 100, .server⟩

namespace DataParams

def crcCost (p : DataParams) : ℕ := if p.crc then Crc.crcLen else 0

def interval (p : DataParams) : Option ℕ :=
  if p.sync.enabled then some (p.sync.intervalBytes.getD defaultSyncInterval) else none

def window (p : DataParams) : ℕ := p.sync.window.toNat

end DataParams

inductive DataEnd
  | completed
  | endedWithError (diag : Diagnostic)
  | interrupted (code : EndCode) (diag : Diagnostic) (byPeer : Bool)
  deriving DecidableEq

structure DataResult where
  ending : DataEnd
  dataBytes : ℕ
  articles : ℕ
  lastSync : ℕ
  deriving DecidableEq

inductive Effect
  | send (entity : Bytes)
  | record (cp : Checkpoint)
  | acknowledge (sync : ℕ)
  | write (article : Bytes)
  | truncate (pos : Position)
  deriving DecidableEq

abbrev Run := Act Effect SessionError

def sendFpdu (crc : Bool) (f : Fpdu) : Run Unit := do
  let entity ← Act.lift ((Frame.singleEntity f crc).mapError (fun e => .negotiation (.encode e)))
  Act.emit (.send entity)

def cancelCode (p : DataParams) : EndCode :=
  if p.role = .requester then .cancelByRequester else .cancelByServer

def idtFpdu (p : DataParams) : Fpdu := Builder.idt p.peerId .voluntaryStop (cancelCode p)

def interrupt (p : DataParams) (machine : Machine) : Run Machine := do
  let machine ← Act.lift (applyLocal machine .cancel)
  sendFpdu p.crc (Builder.idt p.peerId .voluntaryStop (cancelCode p))
  pure machine

def interruptRecv (p : DataParams) (machine : Machine) (f : Fpdu) : Run (Machine × Bool) := do
  let m ← Act.lift (applyReceived machine f)
  match f.kind with
  | .ackIdt => pure (m, true)
  | .idt =>
    sendFpdu p.crc (Builder.ackIdt p.peerId)
    match applyLocal m .accept with
    | .ok m => pure (m, true)
    | .error _ => pure (m, true)
  | _ => pure (m, false)

end PesitWizard.Io
