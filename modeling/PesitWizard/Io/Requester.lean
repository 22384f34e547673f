import PesitWizard.Io.Message

/-! The requester side of a session: the transfers that it starts. -/

namespace PesitWizard.Io

open PesitWizard.Core Library Engine

structure TransferSpec where
  file : FileSpec
  restart : Option Checkpoint

structure TransferOutcome where
  transferId : UInt32
  data : DataResult
  remote : FileSpec
  startedFrom : Checkpoint
  diag : Diagnostic

def TransferOutcome.isComplete (o : TransferOutcome) : Prop :=
  o.data.ending = .completed ∧ o.diag.isOk = true

instance (o : TransferOutcome) : Decidable o.isComplete := inferInstanceAs (Decidable (_ ∧ _))

/-- A requester whose connection has been accepted. -/
structure Requester where
  cfg : RequesterConfig
  peerId : UInt8
  negotiated : Negotiated

namespace Requester

variable {σ : Type} (turns : ℕ)

/-- A refusal leaves the machine in a state as well, from which the transfer can be closed. -/
def replyTurn (request expected : FpduKind) (machine : Machine) :
    Engine σ (Machine ⊕ (Except SessionError Fpdu × Machine)) := do
  let reply ← recv
  let (ignored, machine) ← Proc.lift (Responder.applyReceived machine reply)
  if ignored then pure (.inl machine)
  else if reply.kind ≠ expected then Proc.lift (.error (.protocol machine.state reply.kind))
  else if reply.isNegative then
    pure (.inr (.error (.refused request reply.diagOrOk (peerMessage reply)), machine))
  else pure (.inr (.ok reply, machine))

def exchange (f : Fpdu) (event : LocalEvent) (expected : FpduKind) (machine : Machine) :
    Engine σ (Except SessionError Fpdu × Machine) := do
  let machine ← ask f event machine
  Proc.loop (replyTurn f.kind expected) turns machine

def request (f : Fpdu) (event : LocalEvent) (expected : FpduKind) (machine : Machine) :
    Engine σ (Fpdu × Machine) := do
  let (reply, machine) ← exchange turns f event expected machine
  let reply ← Proc.lift reply
  pure (reply, machine)

def refusedWith (diag : Diagnostic) : Except SessionError Fpdu → Except SessionError Diagnostic
  | .ok _ => .ok diag
  | .error (.refused _ d _) => .ok d
  | .error e => .error e

def announceEnd (r : Requester) (data : DataResult) (machine : Machine) :
    Engine σ (Diagnostic × Machine) := do
  let transEnd := Builder.transEnd r.peerId (some data.dataBytes) (some data.articles)
  let (reply, machine) ← exchange turns transEnd .transferEnd .ackTransEnd machine
  match reply with
  | .ok ack =>
    Proc.lift (checkCounts ack data.dataBytes data.articles)
    pure (.ok, machine)
  | reply =>
    let diag ← Proc.lift (refusedWith .ok reply)
    pure (diag, machine)

def endTransfer (r : Requester) (data : DataResult) (machine : Machine) :
    Engine σ (Diagnostic × Machine) :=
  match data.ending with
  | .completed | .endedWithError _ => announceEnd turns r data machine
  | .interrupted _ _ _ => pure (.ok, machine)

def closeTransfer (r : Requester) (data : DataResult) (machine : Machine) :
    Engine σ (Diagnostic × Machine) := do
  let (diag, machine) ← endTransfer turns r data machine
  let (reply, machine) ← exchange turns (Builder.crf r.peerId .ok) .close .ackCrf machine
  let diag ← Proc.lift (refusedWith diag reply)
  let (reply, machine) ← exchange turns (Builder.deselect r.peerId .ok) .deselect .ackDeselect machine
  let diag ← Proc.lift (refusedWith diag reply)
  pure (diag, machine)

def dataParams (r : Requester) (compression : Compression) (maxEntity maxArticle : ℕ) : DataParams :=
  { peerId := r.peerId
    sync := r.negotiated.sync
    resync := r.negotiated.resync
    compression := compression
    crc := r.negotiated.crc
    maxEntity := maxEntity
    multiArticle := r.cfg.multiArticle
    maxArticle := maxArticle
    role := .requester }

def sendStart (file : FileSpec) (ack : Fpdu) : Engine σ Checkpoint := do
  let point := ack.restartPoint.getD 0
  if file.restarted ∧ point ≠ 0 then
    let store ← checkpoints
    match store.get point with
    | some start => pure start
    | none => Proc.lift (.error (.negotiation (.unknownSyncPoint point)))
  else pure .default

-- the observer of the progress has no say in the transfer
def sendFile (src : ArticleSource σ) (r : Requester) (spec : TransferSpec) (source : σ)
    (machine : Machine) :
    Engine σ (TransferOutcome × Machine) := do
  let file := proposal r.cfg { spec.file with restarted := spec.restart.isSome }
  let (created, machine) ← request turns (file.create r.peerId) .create .ackCreate machine
  let maxEntity := maxEntity file created
  let (opened, machine) ← request turns (Builder.orf r.peerId r.cfg.compression) .open .ackOrf machine
  let compression := compression r.cfg opened
  let (written, machine) ← request turns (Builder.write r.peerId) .write .ackWrite machine
  let start ← sendStart file written
  when (start.sync = 0) clear
  let params := r.dataParams compression maxEntity file.articleLength.toNat
  let (machine, data) ← SendData.sendData src params (fun _ => pure ()) turns machine source start
  let (diag, machine) ← closeTransfer turns r data machine
  when (data.ending = .completed ∧ diag.isOk = true) clear
  pure (⟨created.transferId.getD file.transferId, data, FileSpec.fromFpdu created, start, diag⟩, machine)

-- the reason does not tell the text of this failure from that of a point that the server asks for
def receiveStart (spec : TransferSpec) : Engine σ Checkpoint := do
  let requested := (spec.restart.map Checkpoint.sync).getD 0
  if requested = 0 then pure .default
  else
    let store ← checkpoints
    match store.get requested with
    | some start => pure start
    | none => Proc.lift (.error (.negotiation (.unknownSyncPoint requested)))

def receiveFile (r : Requester) (spec : TransferSpec) (machine : Machine) :
    Engine σ (TransferOutcome × Machine) := do
  let file := proposal r.cfg { spec.file with restarted := spec.restart.isSome }
  let (selected, machine) ← request turns (file.select r.peerId .all) .select .ackSelect machine
  let maxEntity := maxEntity file selected
  let remote := FileSpec.fromFpdu selected
  let (opened, machine) ← request turns (Builder.orf r.peerId r.cfg.compression) .open .ackOrf machine
  let compression := compression r.cfg opened
  let start ← receiveStart spec
  -- what the acknowledgement says of the restart point is not looked at
  let (_, machine) ← request turns (Builder.read r.peerId start.sync) .read .ackRead machine
  when (start.sync = 0) clear
  effect (.truncate (if start.sync = 0 then .default else positionOf start))
  let params := r.dataParams compression maxEntity (max remote.articleLength file.articleLength).toNat
  let (machine, data) ← ReceiveData.receiveData params (fun _ => pure ()) turns machine start
  let (diag, machine) ← closeTransfer turns r data machine
  when (data.ending = .completed ∧ diag.isOk = true) (do finish; clear)
  pure (⟨selected.transferId.getD file.transferId, data, remote, start, diag⟩, machine)

end Requester

end PesitWizard.Io
