import PesitWizard.Io.DataPath

/-! The sender of a data phase. The code between two receptions is one act. -/

namespace PesitWizard.Io

open PesitWizard.Core Library

structure SendState (σ : Type) where
  machine : Machine
  packer : ArticlePacker
  entity : EntityBuilder
  compressor : Option Compressor
  source : σ
  dataBytes : ℕ
  articles : ℕ
  syncNo : ℕ
  bytesSinceSync : ℕ
  unacked : List ℕ
  prevPos : Position

inductive SendPhase (σ : Type)
  | looping (s : SendState σ)
  | interrupting (s : SendState σ)
  | ended (machine : Machine) (result : DataResult)
  | failed (e : SessionError)

namespace SendData

def putFpdu (entity : EntityBuilder) (f : Fpdu) : Run EntityBuilder := do
  let entity ←
    if entity.fits f.encodedLen then pure entity
    else do
      Act.emit (.send entity.buf)
      pure entity.take
  Act.lift ((entity.push f).mapError (fun e => .negotiation (.encode e)))

def putFpdus (entity : EntityBuilder) : List Fpdu → Run EntityBuilder
  | [] => pure entity
  | f :: fs => do
    let entity ← putFpdu entity f
    putFpdus entity fs

variable {σ : Type} (src : ArticleSource σ) (p : DataParams)

def start (machine : Machine) (source : σ) (cp : Checkpoint) : SendState σ :=
  let source := src.rewind source (positionOf cp)
  { machine := machine
    packer := .new p.peerId (p.maxEntity - p.crcCost) p.multiArticle
    entity := .new p.maxEntity p.crc
    compressor := if p.compression = .none then none else some (.new p.compression (max p.maxArticle 1))
    source := source
    dataBytes := cp.dataBytes
    articles := cp.articles
    syncNo := cp.sync
    bytesSinceSync := 0
    unacked := []
    prevPos := src.position source }

def needsSync (bytesSinceSync len : ℕ) : Bool :=
  match p.interval with
  | none => false
  | some iv => 0 < bytesSinceSync && iv < bytesSinceSync + len

def compressArticle (compressor : Option Compressor) (article : Bytes) : Bytes × Option Compressor :=
  match compressor with
  | none => (article, none)
  | some c =>
    let (wire, c) := c.compress article
    (wire, some c)

def syncPoint (s : SendState σ) (article wire : Bytes) : Run (SendState σ × Bytes) := do
  let (f, packer) := s.packer.flush
  let entity ← putFpdus s.entity f.toList
  let syncNo := (s.syncNo + 1) % 2 ^ 32
  let entity ← putFpdu entity (Builder.syn p.peerId syncNo)
  Act.emit (.send entity.buf)
  let machine ← Act.lift (applyLocal s.machine .sync)
  Act.emit (.record ⟨syncNo, s.prevPos.fileOffset, s.dataBytes, s.articles⟩)
  let (wire, compressor) :=
    match s.compressor with
    | none => (wire, none)
    | some c => compressArticle (some c.syncPoint) article
  pure ({ s with
    machine := machine
    packer := packer
    entity := entity.take
    compressor := compressor
    syncNo := syncNo
    bytesSinceSync := 0
    unacked := if 0 < p.window then s.unacked ++ [syncNo] else s.unacked }, wire)

/-- An article in the form that goes on the link, after the synchronisation point if
there has to be one. -/
def prepare (s : SendState σ) (article : Bytes) (source : σ) : Run (SendState σ × Bytes) :=
  let (wire, compressor) := compressArticle s.compressor article
  let s := { s with compressor := compressor, source := source }
  if needsSync p s.bytesSinceSync wire.length then syncPoint p s article wire else pure (s, wire)

def sendFull (entity : EntityBuilder) : Run EntityBuilder :=
  if entity.remaining < headerLen + 1 then do
    Act.emit (.send entity.buf)
    pure entity.take
  else pure entity

def pack (s : SendState σ) (wire : Bytes) : Run EntityBuilder :=
  putFpdus s.entity (s.packer.push wire).1 >>= sendFull

def sendArticle (s : SendState σ) (article : Bytes) (source : σ) : Run (SendState σ) := do
  let (s, wire) ← prepare p s article source
  let entity ← pack s wire
  let machine ← Act.lift (applyLocal s.machine .sendData)
  pure { s with
    machine := machine
    packer := (s.packer.push wire).2
    entity := entity
    dataBytes := s.dataBytes + wire.length
    articles := s.articles + 1
    bytesSinceSync := s.bytesSinceSync + wire.length
    prevPos := src.position source }

def result (s : SendState σ) (ending : DataEnd) : DataResult :=
  ⟨ending, s.dataBytes, s.articles, s.syncNo⟩

def endData (s : SendState σ) : Run (SendPhase σ) := do
  let (f, _) := s.packer.flush
  let entity ← putFpdus s.entity f.toList
  let entity ← putFpdu entity (Builder.dtfEnd p.peerId .ok)
  Act.emit (.send entity.buf)
  let machine ← Act.lift (applyLocal s.machine .dataEnd)
  pure (.ended machine (result s .completed))

def advance (s : SendState σ) : Run (SendPhase σ) :=
  match src.nextArticle s.source with
  | none => endData p s
  | some (article, source) => do
    let s ← sendArticle src p s article source
    pure (.looping s)

def windowFull (s : SendState σ) : Bool := 0 < p.window && p.window ≤ s.unacked.length

def rewindTo (s : SendState σ) (machine : Machine) (cp : Checkpoint) : SendState σ :=
  let source := src.rewind s.source (positionOf cp)
  { machine := machine
    packer := s.packer.flush.2
    entity := s.entity.take
    compressor := s.compressor.map Compressor.syncPoint
    source := source
    dataBytes := cp.dataBytes
    articles := cp.articles
    syncNo := cp.sync
    bytesSinceSync := 0
    unacked := []
    prevPos := src.position source }

def handleAsync (store : MemoryCheckpoints) (s : SendState σ) (f : Fpdu) : Run (SendPhase σ) := do
  let machine ← Act.lift (applyReceived s.machine f)
  match f.kind with
  | .ackSyn =>
    let n := f.syncNumber.getD 0
    Act.emit (.acknowledge n)
    pure (.looping { s with machine := machine, unacked := s.unacked.dropWhile (· ≤ n) })
  | .resyn =>
    if p.resync then
      let requested := f.restartPoint.getD 0
      let cp := if requested = 0 then .default else (store.get requested).getD .default
      sendFpdu p.crc (Builder.ackResyn p.peerId cp.sync)
      let machine ← Act.lift (applyLocal machine .accept)
      pure (.looping (rewindTo src s machine cp))
    else Act.lift (.error (.negotiation .resyncNotNegotiated))
  | .idt =>
    sendFpdu p.crc (Builder.ackIdt p.peerId)
    let machine ← Act.lift (applyLocal machine .accept)
    pure (.ended machine (result s (.interrupted (f.endCode.getD (.other 0)) f.diagOrOk true)))
  | _ => pure (.looping { s with machine := machine })

def cancel (s : SendState σ) : Run (SendPhase σ) := do
  if 0 < s.entity.count then Act.emit (.send s.entity.buf)
  let machine ← interrupt p s.machine
  pure (.interrupting { s with machine := machine, entity := s.entity.take })

def interrupted (s : SendState σ) (f : Fpdu) : Run (SendPhase σ) := do
  let (machine, done) ← interruptRecv p s.machine f
  if done then pure (.ended machine (result s (.interrupted (cancelCode p) .voluntaryStop false)))
  else pure (.interrupting { s with machine := machine })

def react (store : MemoryCheckpoints) :
    SendPhase σ → Except SessionError Fpdu → Option (Run (SendPhase σ))
  | .looping s, .ok f => some (handleAsync src p store s f)
  | .interrupting s, .ok f => some (interrupted p s f)
  | .looping _, .error e | .interrupting _, .error e => some (Act.lift (.error e))
  | .ended _ _, _ | .failed _, _ => none

def waits : SendPhase σ → Bool
  | .looping s => windowFull p s
  | .interrupting _ => true
  | .ended _ _ | .failed _ => false

end SendData

end PesitWizard.Io
