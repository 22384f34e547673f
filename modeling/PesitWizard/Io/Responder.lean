import PesitWizard.Core.Ebcdic
import PesitWizard.Core.Requests
import PesitWizard.Io.Engine

/-! The server side of a session. -/

namespace PesitWizard.Io

open PesitWizard.Core Library Engine

structure ResponderConfig where
  sessionId : String
  connId : UInt8
  remoteAddr : String

structure Conn where
  connId : UInt8
  peerId : UInt8
  access : AccessType
  info : SessionInfo
  accept : ConnectAccept

namespace Responder

variable {σ : Type}

def applyReceived (machine : Machine) (f : Fpdu) : Except SessionError (Bool × Machine) :=
  if f.kind = .abort then .error (.aborted f.diagOrOk (f.getText .freeMessage))
  else
    match machine.apply (.received f.kind f.isNegative) with
    | .ok r => .ok r
    | .error _ => .error (.protocol machine.state f.kind)

lemma applyReceived_state {m m' : Machine} {f : Fpdu} {ignored : Bool}
    (h : applyReceived m f = .ok (ignored, m')) :
    ignored = true ∧ m' = m ∧ m.state.apply (.received f.kind f.isNegative) = .ignore ∨
      ignored = false ∧ m.state.apply (.received f.kind f.isNegative) = .next m'.state := by
  rw [applyReceived] at h
  split at h
  · cases h
  · rw [Machine.apply] at h
    cases hs : m.state.apply (.received f.kind f.isNegative) with
    | error => simp [hs] at h
    | ignore =>
      simp only [hs] at h
      obtain ⟨rfl, rfl⟩ := Prod.mk.inj (Except.ok.inj h)
      exact .inl ⟨rfl, rfl, rfl⟩
    | next s =>
      simp only [hs] at h
      obtain ⟨rfl, rfl⟩ := Prod.mk.inj (Except.ok.inj h)
      exact .inr ⟨rfl, rfl⟩

def expectTurn (kind : FpduKind) (machine : Machine) : Engine σ (Machine ⊕ (Fpdu × Machine)) := do
  let f ← recv
  let (ignored, machine) ← Proc.lift (applyReceived machine f)
  if ignored then pure (.inl machine)
  else if f.kind ≠ kind then Proc.lift (.error (.protocol machine.state f.kind))
  else pure (.inr (f, machine))

variable (turns : ℕ)

def expect (kind : FpduKind) (machine : Machine) : Engine σ (Fpdu × Machine) :=
  Proc.loop (expectTurn kind) turns machine

def answer (machine : Machine) (f : Fpdu) : Engine σ Machine := do
  let machine ← Proc.lift (applyLocal machine .accept)
  send f
  pure machine

def reject (machine : Machine) (f : Fpdu) : Engine σ Machine := do
  let machine ← Proc.lift (applyLocal machine .reject)
  send f
  pure machine

def refuseCreate (c : Conn) (machine : Machine) (r : Refusal) (transferId : UInt32) : Engine σ Machine :=
  reject machine (Builder.ackCreate c.peerId r.diag (some transferId) 0 r.message)

def refuseSelect (c : Conn) (machine : Machine) (r : Refusal) : Engine σ Machine :=
  reject machine (Builder.nackSelect c.peerId r.diag r.message)

def closeTurn (c : Conn) (data : DataResult) (s : Machine × Diagnostic) :
    Engine σ ((Machine × Diagnostic) ⊕ (Diagnostic × Machine)) := do
  let (machine, diag) := s
  let f ← recv
  let (ignored, machine) ← Proc.lift (applyReceived machine f)
  if ignored then pure (.inl (machine, diag))
  else
    match f.kind with
    | .transEnd =>
      let diag := if f.diagOrOk.isOk then diag else f.diagOrOk
      match checkCounts f data.dataBytes data.articles with
      | .ok _ =>
        let machine ← answer machine
          (Builder.ackTransEnd c.peerId .ok (some data.dataBytes) (some data.articles))
        pure (.inl (machine, diag))
      | .error _ =>
        let machine ← answer machine (Builder.ackTransEnd c.peerId .invalidCounts (some data.dataBytes)
          (some data.articles))
        pure (.inl (machine, .invalidCounts))
    | .crf =>
      let diag := if f.diagOrOk.isOk then diag else f.diagOrOk
      let machine ← answer machine (Builder.ackCrf c.peerId .ok)
      pure (.inl (machine, diag))
    | .deselect =>
      let machine ← answer machine (Builder.ackDeselect c.peerId .ok)
      pure (.inr (diag, machine))
    | kind => Proc.lift (.error (.protocol machine.state kind))

def closeTransfer (c : Conn) (data : DataResult) (machine : Machine) : Engine σ (Diagnostic × Machine) :=
  Proc.loop (closeTurn c data) turns (machine, .ok)

def dataParams (c : Conn) (compression : Compression) (maxEntity : UInt16)
    (maxArticle : ℕ) : DataParams :=
  { peerId := c.peerId
    sync := c.info.negotiated.sync
    resync := c.info.negotiated.resync
    compression := compression
    crc := c.info.negotiated.crc
    maxEntity := maxEntity.toNat
    multiArticle := c.accept.multiArticle
    maxArticle := maxArticle
    role := .server }

def openFile (c : Conn) (machine : Machine) : Engine σ (Compression × Machine) := do
  let (orf, machine) ← expect turns .orf machine
  let compression := compression c.accept orf
  let machine ← answer machine (Builder.ackOrf c.peerId .ok compression)
  pure (compression, machine)

def runWrite (c : Conn) (machine : Machine) (spec : FileSpec) (a : CreateAccept) (maxEntity : UInt16)
    (transferId : UInt32) : Engine σ (DataResult × Diagnostic × Machine) := do
  let (compression, machine) ← openFile turns c machine
  let (_, machine) ← expect turns .write machine
  let start := if spec.restarted then a.restart.getD .default else .default
  let machine ← answer machine (Builder.ackWrite c.peerId .ok start.sync)
  effect (.truncate (positionOf start))
  when (start.sync = 0) clear
  notify a.handle (.started transferId start)
  let maxArticle := if a.maxArticle = 0 then spec.articleLength.toNat else a.maxArticle
  let params := dataParams c compression maxEntity maxArticle
  let report := fun progress => notify a.handle (.progress progress)
  let (machine, data) ← ReceiveData.receiveData params report turns machine start
  let (diag, machine) ← closeTransfer turns c data machine
  pure (data, diag, machine)

def handleCreate (c : Conn) (machine : Machine) (f : Fpdu) : Engine σ Machine := do
  let spec := FileSpec.fromFpdu f
  let r : Except Refusal CreateAccept ← Proc.query (Call.create c.info spec)
  match r with
  | .error r => refuseCreate c machine r spec.transferId
  | .ok a =>
    let transferId := a.transferId.getD spec.transferId
    let maxEntity := maxEntity c.accept spec
    let machine ← answer machine
      (Builder.ackCreate c.peerId .ok (some transferId) maxEntity a.freeMessage)
    let result ← Proc.attempt (runWrite turns c machine spec a maxEntity transferId)
    match result with
    | .ok (data, diag, machine) =>
      when (data.ending = .completed ∧ diag.isOk = true) (do finish; clear)
      notify a.handle (.ended data diag)
      pure machine
    | .error e =>
      notify a.handle (.failed e)
      Proc.lift (.error e)

def readFrom (store : MemoryCheckpoints) (point : ℕ) : Option Checkpoint :=
  if point = 0 then some .default else store.get point

def runRead (src : ArticleSource σ) (c : Conn) (machine : Machine) (spec : FileSpec) (a : SelectAccept σ)
    (maxEntity : UInt16) (transferId : UInt32) : Engine σ (DataResult × Diagnostic × Machine) := do
  let (compression, machine) ← openFile turns c machine
  let (read, machine) ← expect turns .read machine
  let point := read.restartPoint.getD 0
  let store ← checkpoints
  match readFrom store point with
  | none =>
    let _ ← reject machine (Builder.ackRead c.peerId .restartUnknownSync)
    Proc.lift (.error (.negotiation (.unknownReadPoint point)))
  | some start =>
    let machine ← answer machine (Builder.ackRead c.peerId .ok)
    when (start.sync = 0) clear
    notify a.handle (.started transferId start)
    let params := dataParams c compression maxEntity spec.articleLength.toNat
    let report := fun progress => notify a.handle (.progress progress)
    let (machine, data) ← SendData.sendData src params report turns machine a.source start
    let (diag, machine) ← closeTransfer turns c data machine
    pure (data, diag, machine)

def answerSpec (a : SelectAccept σ) (spec : FileSpec) (maxEntity : UInt16) : FileSpec :=
  { a.spec with
    maxEntitySize := maxEntity
    transferId := if a.spec.transferId = 0 then spec.transferId else a.spec.transferId }

def handleSelect (src : ArticleSource σ) (c : Conn) (machine : Machine) (f : Fpdu) :
    Engine σ Machine := do
  let spec := FileSpec.fromFpdu f
  let attrs := requestedAttributes f
  let r : Except Refusal (SelectAccept σ) ← Proc.query (Call.select c.info spec attrs)
  match r with
  | .error r => refuseSelect c machine r
  | .ok a =>
    let maxEntity := maxEntity c.accept spec
    let described := answerSpec a spec maxEntity
    let machine ← answer machine (described.ackSelect c.peerId attrs)
    let result ← Proc.attempt (runRead turns src c machine described a maxEntity described.transferId)
    match result with
    | .ok (data, diag, machine) =>
      when (data.ending = .completed ∧ diag.isOk = true) clear
      notify a.handle (.ended data diag)
      pure machine
    | .error e =>
      notify a.handle (.failed e)
      Proc.lift (.error e)

def messageTurn (s : Machine × Bytes) : Engine σ ((Machine × Bytes) ⊕ (Machine × Bytes)) := do
  let (machine, message) := s
  let seg ← recv
  let (ignored, machine) ← Proc.lift (applyReceived machine seg)
  if ignored then pure (.inl (machine, message))
  else
    match seg.kind with
    | .msgMm => pure (.inl (machine, message ++ (seg.get .message).getD []))
    | .msgFm => pure (.inr (machine, message ++ (seg.get .message).getD []))
    | kind => Proc.lift (.error (.protocol machine.state kind))

def wholeMessage (kind : FpduKind) (s : Machine × Bytes) : Engine σ (Machine × Bytes) :=
  if kind = .msgDm then Proc.loop messageTurn turns s else pure s

def handleMessage (c : Conn) (machine : Machine) (first : Fpdu) : Engine σ Machine := do
  let spec := FileSpec.fromFpdu first
  let expectsReply := (first.getNum .requestedAttributes).any (fun a => a % 2 = 1)
  let head := (first.get .message).getD []
  let (machine, message) ← wholeMessage turns first.kind (machine, head)
  let r : Except Refusal (Option Bytes) ← Proc.query (Call.message c.info spec message expectsReply)
  let ack :=
    match r with
    | .ok reply => Builder.ackMsg c.peerId .ok (some spec.transferId) reply
    | .error r =>
      Builder.ackMsg c.peerId r.diag (some spec.transferId) (r.message.map (fun m => m.toUTF8.toList))
  answer machine ack

def selectionTurn (src : ArticleSource σ) (c : Conn) (machine : Machine) :
    Engine σ (Machine ⊕ Unit) := do
  let f ← recv
  let (ignored, machine) ← Proc.lift (applyReceived machine f)
  match f.kind with
  | .create =>
    if c.access.allowsWrite then pure (.inl (← handleCreate turns c machine f))
    else pure (.inl (← refuseCreate c machine ⟨.selectNegotiation, none⟩ (f.transferId.getD 0)))
  | .select =>
    if c.access.allowsRead then pure (.inl (← handleSelect turns src c machine f))
    else pure (.inl (← refuseSelect c machine ⟨.selectNegotiation, none⟩))
  | .msg | .msgDm => pure (.inl (← handleMessage turns c machine f))
  | .release =>
    let _ ← answer machine (Builder.relconf c.peerId c.connId)
    pure (.inr ())
  | kind => if ignored then pure (.inl machine) else Proc.lift (.error (.protocol machine.state kind))

def awaitConnect : Engine σ (Bytes × Option (String × String)) := do
  let entity ← recvEntity
  if Ebcdic.isPreconnect entity then
    sendEntity Ebcdic.preconnectAck
    let connect ← recvEntity
    pure (connect, Ebcdic.parsePreconnect entity)
  else pure (entity, none)

/-- The CONNECT as the handler sees it, if it is acceptable to the state tables and says whether
it has check bytes. -/
def readRequest (cfg : ResponderConfig) (entity : Bytes) (preconnect : Option (String × String)) :
    Except SessionError (Fpdu × ConnectRequest × Machine) := do
  let connect ← readConnect entity
  let machine := Machine.new .server
  if connect.kind ≠ .connect then .error (.protocol machine.state connect.kind)
  let (_, machine) ← applyReceived machine connect
  pure (connect, connectRequest connect preconnect cfg.remoteAddr, machine)

def authenticate (cfg : ResponderConfig) (entity : Bytes) (connect : Fpdu) (req : ConnectRequest)
    (machine : Machine) :
    Engine σ Conn := do
  let crc := detectCrc entity
  if req.crc ≠ crc then Proc.lift (.error (.decode crcMismatch))
  else
    let r : Except Refusal ConnectAccept ← Proc.query (Call.authenticate req)
    match r with
    | .error r =>
      let _ ← reject machine (Builder.rconnect connect.idSrc r.diag r.message)
      Proc.lift (.error (.refused .connect r.diag r.message))
    | .ok accept =>
      pure
        { connId := cfg.connId
          peerId := connect.idSrc
          access := req.access
          info :=
            { id := cfg.sessionId
              requester := req.requester
              server := req.server
              remoteAddr := req.remoteAddr
              negotiated := negotiate req accept crc }
          accept := accept }

def selectionPhase (src : ArticleSource σ) (c : Conn) (machine : Machine) : Engine σ Unit := do
  let n := c.info.negotiated
  let machine ←
    answer machine (Builder.aconnect c.peerId c.connId n.version n.sync n.resync c.accept.freeMessage)
  Proc.loop (selectionTurn turns src c) turns machine

/-- But for an abort, the machine of a server is idle again only once it has refused a connection or
answered a release. -/
lemma idle_again {s : State} {event : Event} (h : s.row event = .next .cn01)
    (hserver : s ≠ .cn02A ∧ s ≠ .cn04A) :
    s = .cn02B ∧ event = .ofLocal .reject ∨ s = .cn04B := by
  obtain ⟨hconnect, hrelease⟩ := hserver
  cases event with
  | ofLocal e => cases s <;> cases e <;> cases h <;> simp
  | received kind negative => cases s <;> cases negative <;> cases kind <;> cases h <;> contradiction

/-- Whether an error is reported to the peer: not if it comes from the link or from the peer, and not if
the machine is idle again. Of the other errors only a refused connection finds it so (`idle_again`):
after the answer to a release nothing is left to fail but the link. -/
def abortDue : SessionError → Bool
  | .transport _ | .aborted _ _ | .refused .connect _ _ => false
  | _ => true

def abortOn (connId peerId : UInt8) (e : SessionError) : Engine σ Unit :=
  if abortDue e then do
    let _ ← Proc.attempt (send (Builder.abort peerId connId e.abortDiag))
    pure ()
  else pure ()

def serve (src : ArticleSource σ) (cfg : ResponderConfig) : Engine σ Unit := do
  let (entity, preconnect) ← awaitConnect
  let (connect, req, machine) ← Proc.lift (readRequest cfg entity preconnect)
  match ← Proc.attempt (authenticate cfg entity connect req machine) with
  | .error e =>
    abortOn cfg.connId connect.idSrc e
    Proc.lift (.error e)
  | .ok c =>
    let result ← Proc.attempt (selectionPhase turns src c machine)
    match result with
    | .ok _ =>
      let _ ← Proc.query (Call.sessionClosed c.info none)
      pure ()
    | .error e =>
      let _ ← Proc.query (Call.sessionClosed c.info (some e))
      abortOn c.connId c.peerId e
      Proc.lift (.error e)

section Within

variable {C : Call σ → Prop}

lemma answer_of {f : Fpdu} (hsend : C (.send f)) (machine : Machine) :
    (answer machine f : Engine σ Machine).Within C := by
  refine Proc.Within.bind trivial fun machine => ?_
  exact Proc.Within.bind ⟨hsend, fun _ => trivial⟩ fun _ => trivial

lemma reject_of {f : Fpdu} (hsend : C (.send f)) (machine : Machine) :
    (reject machine f : Engine σ Machine).Within C := by
  refine Proc.Within.bind trivial fun machine => ?_
  exact Proc.Within.bind ⟨hsend, fun _ => trivial⟩ fun _ => trivial

lemma expect_of (hrecv : C .recv) (kind : FpduKind) (machine : Machine) :
    (expect turns kind machine : Engine σ _).Within C := by
  refine Proc.Within.loop (fun machine => ?_) turns machine
  refine Proc.Within.bind ⟨hrecv, fun _ => trivial⟩ fun f => ?_
  refine Proc.Within.bind trivial fun r => ?_
  obtain ⟨ignored, machine⟩ := r
  dsimp only
  split
  · trivial
  · split
    · trivial
    · trivial

lemma openFile_of {c : Conn} (hrecv : C .recv) (hsend : ∀ x, C (.send (Builder.ackOrf c.peerId .ok x)))
    (machine : Machine) :
    (openFile turns c machine : Engine σ _).Within C := by
  refine (expect_of turns hrecv .orf machine).bind fun r => ?_
  exact (answer_of (hsend _) r.2).bind fun _ => trivial

section Traffic

variable (hC : ∀ q : Call σ, q.traffic = true → C q)
include hC

lemma answer_within (machine : Machine) (f : Fpdu) : (answer machine f : Engine σ Machine).Within C :=
  answer_of (hC _ rfl) machine

lemma reject_within (machine : Machine) (f : Fpdu) : (reject machine f : Engine σ Machine).Within C :=
  reject_of (hC _ rfl) machine

lemma expect_within (kind : FpduKind) (machine : Machine) :
    (expect turns kind machine : Engine σ _).Within C :=
  expect_of turns (hC _ rfl) kind machine

lemma openFile_within (c : Conn) (machine : Machine) :
    (openFile turns c machine : Engine σ _).Within C :=
  openFile_of turns (hC _ rfl) (fun _ => hC _ rfl) machine

lemma closeTransfer_within (c : Conn) (data : DataResult) (machine : Machine) :
    (closeTransfer turns c data machine : Engine σ _).Within C := by
  refine Proc.Within.loop (fun s => ?_) turns _
  obtain ⟨machine, diag⟩ := s
  refine Proc.Within.bind (traffic_within hC rfl fun _ => trivial) fun f => ?_
  refine Proc.Within.bind trivial fun r => ?_
  obtain ⟨ignored, machine⟩ := r
  dsimp only
  split
  · trivial
  · split
    · split
      · exact (answer_within hC machine _).bind fun _ => trivial
      · exact (answer_within hC machine _).bind fun _ => trivial
    · exact (answer_within hC machine _).bind fun _ => trivial
    · exact (answer_within hC machine _).bind fun _ => trivial
    · trivial

lemma wholeMessage_within (kind : FpduKind) (s : Machine × Bytes) :
    (wholeMessage turns kind s : Engine σ _).Within C := by
  rw [wholeMessage]
  split
  · refine Proc.Within.loop (fun s => ?_) turns s
    refine Proc.Within.bind (traffic_within hC rfl fun _ => trivial) fun f => ?_
    refine Proc.Within.bind trivial fun r => ?_
    obtain ⟨ignored, machine⟩ := r
    dsimp only
    split
    · trivial
    · split
      · trivial
      · trivial
      · trivial
  · trivial

lemma awaitConnect_within : (awaitConnect : Engine σ _).Within C := by
  refine Proc.Within.bind (traffic_within hC rfl fun _ => trivial) fun entity => ?_
  split
  · refine Proc.Within.bind (traffic_within hC rfl fun _ => trivial) fun _ => ?_
    exact Proc.Within.bind (traffic_within hC rfl fun _ => trivial) fun _ => trivial
  · trivial

lemma abortOn_within (connId peerId : UInt8) (e : SessionError) :
    (abortOn connId peerId e : Engine σ Unit).Within C := by
  rw [abortOn]
  split
  · exact Proc.Within.bind
      (Proc.Within.attempt (traffic_within hC rfl fun _ => trivial)) fun _ => trivial
  · trivial

end Traffic

end Within

end Responder

end PesitWizard.Io
