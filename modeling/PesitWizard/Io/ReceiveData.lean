import PesitWizard.Io.DataPath

/-! The receiver of a data phase. -/

namespace PesitWizard.Io

open PesitWizard.Core Library

structure RecvState where
  machine : Machine
  reassembler : Reassembler
  decompressor : Option Decompressor
  dataBytes : ℕ
  articles : ℕ
  lastSync : ℕ

inductive RecvPhase
  | receiving (s : RecvState)
  | awaitingAckResyn (s : RecvState)
  | interrupting (s : RecvState)
  | ended (machine : Machine) (result : DataResult)
  | failed (e : SessionError)

namespace ReceiveData

variable (p : DataParams)

def start (machine : Machine) (cp : Checkpoint) : RecvState :=
  { machine := machine
    reassembler := .new p.maxArticle
    decompressor := if p.compression = .none then none else some (.new (max p.maxArticle 1))
    dataBytes := cp.dataBytes
    articles := cp.articles
    lastSync := cp.sync }

def result (s : RecvState) (ending : DataEnd) : DataResult :=
  ⟨ending, s.dataBytes, s.articles, s.lastSync⟩

def takeArticle (s : RecvState) (article : Bytes) : Run RecvState := do
  let (plain, decompressor) ←
    match s.decompressor with
    | none => pure (article, none)
    | some d => do
      let (plain, d) ← Act.lift ((d.decompress article).mapError .decompress)
      pure (plain, some d)
  Act.emit (.write plain)
  pure { s with
    decompressor := decompressor
    dataBytes := s.dataBytes + article.length
    articles := s.articles + 1 }

def takeArticles (s : RecvState) : List Bytes → Run RecvState
  | [] => pure s
  | article :: articles => do
    let s ← takeArticle s article
    takeArticles s articles

def rewindTo (s : RecvState) (machine : Machine) (cp : Checkpoint) : RecvState :=
  { s with
    machine := machine
    reassembler := .new p.maxArticle
    dataBytes := cp.dataBytes
    articles := cp.articles
    lastSync := cp.sync }

def handle (store : MemoryCheckpoints) (pos : Position) (s : RecvState) (f : Fpdu) : Run RecvPhase := do
  let machine ← Act.lift (applyReceived s.machine f)
  if f.kind.isData then
    let (articles, reassembler) ← Act.lift ((s.reassembler.feed f).mapError .reassembly)
    let s ← takeArticles { s with machine := machine, reassembler := reassembler } articles
    pure (.receiving s)
  else
    match f.kind with
    | .syn =>
      let n := f.syncNumber.getD (s.lastSync + 1)
      Act.emit (.record ⟨n, pos.fileOffset, s.dataBytes, s.articles⟩)
      if p.sync.window ≠ 0 ∨ p.sync.enabled = false then
        sendFpdu p.crc (Builder.ackSyn p.peerId n)
        let machine ← Act.lift (applyLocal machine .accept)
        pure (.receiving { s with machine := machine, lastSync := n })
      else pure (.receiving { s with machine := machine, lastSync := n })
    | .dtfEnd =>
      let diag := f.diagOrOk
      pure (.ended machine (result s (if diag.isOk then .completed else .endedWithError diag)))
    | .resyn =>
      let requested := f.restartPoint.getD 0
      let cp := (if requested = 0 then some .default else store.get requested).getD .default
      Act.emit (.truncate (positionOf cp))
      sendFpdu p.crc (Builder.ackResyn p.peerId cp.sync)
      let machine ← Act.lift (applyLocal machine .accept)
      pure (.receiving (rewindTo p s machine cp))
    | .idt =>
      sendFpdu p.crc (Builder.ackIdt p.peerId)
      let machine ← Act.lift (applyLocal machine .accept)
      pure (.ended machine (result s (.interrupted (f.endCode.getD (.other 0)) f.diagOrOk true)))
    | _ => pure (.receiving { s with machine := machine })

def handleError (s : RecvState) (e : SessionError) : Run RecvPhase :=
  match e with
  | .decode err =>
    if err.diag = .transmissionError ∧ p.resync = true then do
      let machine ← Act.lift (applyLocal s.machine .resync)
      sendFpdu p.crc (Builder.resyn p.peerId .transmissionError s.lastSync)
      pure (.awaitingAckResyn { s with machine := machine })
    else Act.lift (.error e)
  | e => Act.lift (.error e)

def awaitAckResyn (store : MemoryCheckpoints) (s : RecvState) (f : Fpdu) : Run RecvPhase :=
  if f.kind = .ackResyn then do
    let machine ← Act.lift (applyReceived s.machine f)
    let point := f.restartPoint.getD 0
    let cp ←
      if point = 0 then pure Checkpoint.default
      else
        match store.get point with
        | some cp => pure cp
        | none => Act.lift (.error (.negotiation (.unknownRestartPoint point)))
    Act.emit (.truncate (positionOf cp))
    pure (.receiving (rewindTo p s machine cp))
  else if f.kind = .abort then do
    let machine ← Act.lift (applyReceived s.machine f)
    pure (.awaitingAckResyn { s with machine := machine })
  else pure (.awaitingAckResyn s)

def cancel (s : RecvState) : Run RecvPhase := do
  let machine ← interrupt p s.machine
  pure (.interrupting { s with machine := machine })

def interrupted (s : RecvState) (f : Fpdu) : Run RecvPhase := do
  let (machine, done) ← interruptRecv p s.machine f
  if done then pure (.ended machine (result s (.interrupted (cancelCode p) .voluntaryStop false)))
  else pure (.interrupting { s with machine := machine })

def react (store : MemoryCheckpoints) (pos : Position) :
    RecvPhase → Except SessionError Fpdu → Option (Run RecvPhase)
  | .receiving s, .ok f => some (handle p store pos s f)
  | .receiving s, .error e => some (handleError p s e)
  | .awaitingAckResyn s, .ok f => some (awaitAckResyn p store s f)
  | .interrupting s, .ok f => some (interrupted p s f)
  | .awaitingAckResyn _, .error e | .interrupting _, .error e => some (Act.lift (.error e))
  | .ended _ _, _ | .failed _, _ => none

end ReceiveData

end PesitWizard.Io
