import PesitWizard.Io.Negotiation
import PesitWizard.Io.ReceiveData
import PesitWizard.Io.SendData
import PesitWizard.Library.Proc

/-! What a session engine calls: its link, its handler, and the source, the sink and the checkpoint store
of the transfer under way. Any of these calls may fail. -/

namespace PesitWizard.Io

open PesitWizard.Core Library

structure Refusal where
  diag : Diagnostic
  message : Option String

structure SessionInfo where
  id : String
  requester : String
  server : String
  remoteAddr : String
  negotiated : Negotiated

structure CreateAccept where
  transferId : Option UInt32
  restart : Option Checkpoint
  maxArticle : ℕ
  handle : ℕ
  freeMessage : Option String

structure SelectAccept (σ : Type) where
  source : σ
  spec : FileSpec
  handle : ℕ

structure Progress where
  dataBytes : ℕ
  articles : ℕ
  sync : ℕ

inductive TransferEvent
  | started (transferId : UInt32) (start : Checkpoint)
  | progress (p : Progress)
  | ended (data : DataResult) (diag : Diagnostic)
  | failed (e : SessionError)

inductive Call (σ : Type)
  | recvEntity
  | recv
  | tryRecv
  | sendEntity (entity : Bytes)
  | send (f : Fpdu)
  | effect (w : Effect)
  | sinkCheckpoint
  | finish
  | rewind
  | nextArticle
  | checkpoints
  | clear
  | cancelled
  | authenticate (req : ConnectRequest)
  | create (info : SessionInfo) (file : FileSpec)
  | select (info : SessionInfo) (file : FileSpec) (attrs : RequestedAttributes)
  | message (info : SessionInfo) (file : FileSpec) (message : Bytes) (expectsReply : Bool)
  | event (handle : ℕ) (e : TransferEvent)
  | sessionClosed (info : SessionInfo) (error : Option SessionError)

variable {σ : Type}

def Call.Result : Call σ → Type
  | .recvEntity => Except SessionError Bytes
  | .recv => Except SessionError Fpdu
  | .tryRecv => Except SessionError (Option Fpdu)
  | .sendEntity _ | .send _ | .effect _ | .finish | .rewind | .nextArticle | .clear =>
    Except SessionError Unit
  | .sinkCheckpoint => Except SessionError Position
  | .checkpoints => MemoryCheckpoints
  | .cancelled => Bool
  | .authenticate _ => Except Refusal ConnectAccept
  | .create _ _ => Except Refusal CreateAccept
  | .select _ _ _ => Except Refusal (SelectAccept σ)
  | .message _ _ _ _ => Except Refusal (Option Bytes)
  | .event _ _ | .sessionClosed _ _ => Unit

abbrev Engine (σ α : Type) := Proc (Call σ) Call.Result SessionError α

abbrev Exchange (σ : Type) := Proc.Event (Call.Result : Call σ → Type)

namespace Engine

def recvEntity : Engine σ Bytes := Proc.ask .recvEntity Proc.done

def recv : Engine σ Fpdu := Proc.ask .recv Proc.done

def tryRecv : Engine σ (Option Fpdu) := Proc.ask .tryRecv Proc.done

def sendEntity (entity : Bytes) : Engine σ Unit := Proc.ask (.sendEntity entity) Proc.done

def send (f : Fpdu) : Engine σ Unit := Proc.ask (.send f) Proc.done

def sinkCheckpoint : Engine σ Position := Proc.ask .sinkCheckpoint Proc.done

def finish : Engine σ Unit := Proc.ask .finish Proc.done

def rewind : Engine σ Unit := Proc.ask .rewind Proc.done

def nextArticle : Engine σ Unit := Proc.ask .nextArticle Proc.done

def clear : Engine σ Unit := Proc.ask .clear Proc.done

def checkpoints : Engine σ MemoryCheckpoints := Proc.query Call.checkpoints

def cancelled : Engine σ Bool := Proc.query Call.cancelled

def notify (handle : ℕ) (e : TransferEvent) : Engine σ Unit := Proc.query (Call.event handle e)

def effect (w : Effect) : Engine σ Unit := Proc.ask (.effect w) Proc.done

def when (c : Prop) [Decidable c] (x : Engine σ Unit) : Engine σ Unit := if c then x else pure ()

def performAll : List Effect → Engine σ Unit
  | [] => pure ()
  | w :: ws => do
    effect w
    performAll ws

def perform {α : Type} (x : Run α) : Engine σ α := do
  performAll x.effects
  Proc.lift x.result

end Engine

open Engine

def checkCounts (f : Fpdu) (dataBytes articles : ℕ) : Except SessionError Unit :=
  match f.getNum .byteCount, f.getNum .articleCount with
  | some b, a =>
    if b ≠ dataBytes then .error (.counts b dataBytes)
    else
      match a with
      | some a => if a ≠ articles then .error (.counts a articles) else .ok ()
      | none => .ok ()
  | none, some a => if a ≠ articles then .error (.counts a articles) else .ok ()
  | none, none => .ok ()

def reportOn (report : Progress → Engine σ Unit) : Option Progress → Engine σ Unit
  | some p => report p
  | none => pure ()

namespace ReceiveData

def takesPoint : RecvPhase → Except SessionError Fpdu → Bool
  | .receiving s, .ok f => f.kind = .syn && (applyReceived s.machine f).isOk
  | _, _ => false

def positionFor (phase : RecvPhase) (r : Except SessionError Fpdu) : Engine σ Position :=
  if takesPoint phase r then sinkCheckpoint else pure .default

def progressOf : RecvPhase → Except SessionError Fpdu → RecvPhase → Option Progress
  | .receiving _, .ok f, .receiving s => if f.kind.isData then
    some ⟨s.dataBytes, s.articles, s.lastSync⟩ else none
  | .receiving _, .ok f, .ended _ r => if f.kind = .dtfEnd then
    some ⟨r.dataBytes, r.articles, r.lastSync⟩ else none
  | _, _, _ => none

variable (p : DataParams) (report : Progress → Engine σ Unit)

def takeNext (phase : RecvPhase) : Engine σ RecvPhase := do
  let r : Except SessionError Fpdu ← Proc.query Call.recv
  let store ← checkpoints
  let pos ← positionFor phase r
  match react p store pos phase r with
  | none => pure phase
  | some x =>
    let next ← perform x
    reportOn report (progressOf phase r next)
    pure next

def receiveTurn (phase : RecvPhase) : Engine σ (RecvPhase ⊕ (Machine × DataResult)) :=
  match phase with
  | .ended machine result => pure (.inr (machine, result))
  | .failed e => Proc.lift (.error e)
  | .receiving s => do
    if ← cancelled then pure (.inl (← perform (cancel p s)))
    else pure (.inl (← takeNext p report (.receiving s)))
  | phase => do pure (.inl (← takeNext p report phase))

def receiveData (turns : ℕ) (machine : Machine) (start : Checkpoint) : Engine σ (Machine × DataResult) :=
  Proc.loop (receiveTurn p report) turns (.receiving (ReceiveData.start p machine start))

end ReceiveData

namespace SendData

variable (src : ArticleSource σ) (p : DataParams) (report : Progress → Engine σ Unit)

def takeAsync (s : SendState σ) (f : Fpdu) : Engine σ (SendPhase σ) := do
  let store ← checkpoints
  let phase ← perform (handleAsync src p store s f)
  when (f.kind = .resyn) rewind
  pure phase

def progressOf : SendPhase σ → Option Progress
  | .looping s => some ⟨s.dataBytes, s.articles, s.syncNo⟩
  | .ended _ r => some ⟨r.dataBytes, r.articles, r.lastSync⟩
  | _ => none

def sendNext (s : SendState σ) : Engine σ (SendPhase σ) := do
  nextArticle
  let phase ← perform (advance src p s)
  reportOn report (progressOf phase)
  pure phase

def sendTurn (phase : SendPhase σ) : Engine σ (SendPhase σ ⊕ (Machine × DataResult)) :=
  match phase with
  | .ended machine result => pure (.inr (machine, result))
  | .failed e => Proc.lift (.error e)
  | .interrupting s => do
    let f ← recv
    pure (.inl (← perform (interrupted p s f)))
  | .looping s => do
    match ← tryRecv with
    | some f => pure (.inl (← takeAsync src p s f))
    | none =>
      if ← cancelled then pure (.inl (← perform (cancel p s)))
      else if windowFull p s then
        let f ← recv
        pure (.inl (← takeAsync src p s f))
      else pure (.inl (← sendNext src p report s))

def sendData (turns : ℕ) (machine : Machine) (source : σ) (start : Checkpoint) :
    Engine σ (Machine × DataResult) := do
  rewind
  Proc.loop (sendTurn src p report) turns (.looping (SendData.start src p machine source start))

end SendData

/-- A world that serves one connection and accepts its transfers; the link and the end of
the sink may fail. -/
def world (entity : Bytes) (accept : ConnectAccept) (create : CreateAccept)
    (recv : ℕ → Except SessionError Fpdu) (send : Fpdu → Except SessionError Unit)
    (finish : Except SessionError Unit) : ℕ → (q : Call VecSource) → Call.Result q
  | _, .recvEntity => .ok entity
  | n, .recv => recv n
  | _, .tryRecv => .ok none
  | _, .send f => send f
  | _, .finish => finish
  | _, .sendEntity _ | _, .effect _ | _, .rewind | _, .nextArticle | _, .clear => .ok ()
  | _, .sinkCheckpoint => .ok .default
  | _, .checkpoints => .empty
  | _, .cancelled => false
  | _, .authenticate _ => .ok accept
  | _, .create _ _ => .ok create
  | _, .select _ _ _ => .error ⟨.selectNegotiation, none⟩
  | _, .message _ _ _ _ => .ok none
  | _, .event _ _ | _, .sessionClosed _ _ => ()

def Call.traffic : Call σ → Bool
  | .recvEntity | .recv | .tryRecv | .sendEntity _ | .send _ | .effect
    _ | .sinkCheckpoint | .rewind | .nextArticle
  | .checkpoints | .cancelled => true
  | _ => false

section Within

variable {C : Call σ → Prop}

lemma performAll_of {ws : List Effect} (h : ∀ w ∈ ws, C (.effect w)) :
    (performAll ws : Engine σ Unit).Within C := by
  induction ws with
  | nil => trivial
  | cons w ws ih =>
    rw [List.forall_mem_cons] at h
    exact Proc.Within.bind ⟨h.1, fun _ => trivial⟩ fun _ => ih h.2

lemma perform_of {α : Type} {x : Run α} (h : x.All fun w => C (.effect w)) :
    (perform x : Engine σ α).Within C :=
  (performAll_of h).bind fun _ => trivial

lemma when_within {c : Prop} [Decidable c] {x : Engine σ Unit} (hx : x.Within C) :
    (when c x).Within C := by
  rw [when]
  split
  · exact hx
  · trivial

lemma reportOn_within {report : Progress → Engine σ Unit} (hreport : ∀ p, (report p).Within C)
    (p : Option Progress) :
    (reportOn report p).Within C := by
  cases p with
  | some p => exact hreport p
  | none => trivial

/-- A reception calls its link, its checkpoints and its sink, and what its reactions perform. -/
lemma ReceiveData.receiveData_of {report : Progress → Engine σ Unit}
    (hreport : ∀ p, (report p).Within C) (p : DataParams) (hrecv : C .recv) (hstore : C .checkpoints)
    (hsink : C .sinkCheckpoint) (hcancelled : C .cancelled)
    (hcancel : ∀ s, (cancel p s).All fun w => C (.effect w))
    (hreact : ∀ store pos phase r x, react p store pos phase r = some x → x.All fun w => C (.effect w))
    (turns : ℕ) (machine : Machine) (start : Checkpoint) :
    (receiveData p report turns machine start).Within C := by
  have hnext (phase : RecvPhase) : (takeNext p report phase).Within C := by
    refine Proc.Within.bind (Proc.within_query hrecv) fun r => ?_
    refine Proc.Within.bind (Proc.within_query hstore) fun store => ?_
    refine Proc.Within.bind ?_ fun pos => ?_
    · rw [positionFor]
      split
      · exact ⟨hsink, fun _ => trivial⟩
      · trivial
    · cases hr : react p store pos phase r with
      | none => trivial
      | some x =>
        refine (perform_of (hreact store pos phase r x hr)).bind fun next => ?_
        exact (reportOn_within hreport _).bind fun _ => trivial
  refine Proc.Within.loop (fun phase => ?_) turns _
  cases phase with
  | ended machine result => trivial
  | failed e => trivial
  | receiving s =>
    refine Proc.Within.bind (Proc.within_query hcancelled) fun b => ?_
    split
    · exact (perform_of (hcancel s)).bind fun _ => trivial
    · exact (hnext _).bind fun _ => trivial
  | awaitingAckResyn s => exact (hnext _).bind fun _ => trivial
  | interrupting s => exact (hnext _).bind fun _ => trivial

section Traffic

variable (hC : ∀ q : Call σ, q.traffic = true → C q)
include hC

lemma traffic_within {q : Call σ} {α : Type} {k : Call.Result q → Engine σ α} (hq : q.traffic = true)
    (hk : ∀ a, (k a).Within C) : (Proc.ask q k).Within C := ⟨hC q hq, hk⟩

lemma perform_within {α : Type} (x : Run α) : (perform x : Engine σ α).Within C :=
  perform_of fun _ _ => hC _ rfl

section Data

variable {report : Progress → Engine σ Unit} (hreport : ∀ p, (report p).Within C)
include hreport

lemma ReceiveData.receiveData_within (p : DataParams) (turns : ℕ) (machine : Machine)
    (start : Checkpoint) :
    (ReceiveData.receiveData p report turns machine start).Within C :=
  receiveData_of hreport p (hC _ rfl) (hC _ rfl) (hC _ rfl) (hC _ rfl) (fun _ _ _ => hC _ rfl)
    (fun _ _ _ _ _ _ _ _ => hC _ rfl) turns machine start

omit hreport in
lemma SendData.takeAsync_within (src : ArticleSource σ) (p : DataParams) (s : SendState σ) (f : Fpdu) :
    (SendData.takeAsync src p s f).Within C := by
  refine Proc.Within.bind (Proc.within_query (hC _ rfl)) fun store => ?_
  refine (perform_within hC _).bind fun phase => ?_
  exact Proc.Within.bind (when_within (traffic_within hC rfl fun _ => trivial)) fun _ => trivial

lemma SendData.sendNext_within (src : ArticleSource σ) (p : DataParams) (s : SendState σ) :
    (SendData.sendNext src p report s).Within C := by
  refine Proc.Within.bind (traffic_within hC rfl fun _ => trivial) fun _ => ?_
  refine (perform_within hC _).bind fun phase => ?_
  exact (reportOn_within hreport _).bind fun _ => trivial

lemma SendData.sendData_within (src : ArticleSource σ) (p : DataParams) (turns : ℕ)
    (machine : Machine) (source : σ) (start : Checkpoint) :
    (SendData.sendData src p report turns machine source start).Within C := by
  refine Proc.Within.bind (traffic_within hC rfl fun _ => trivial) fun _ => ?_
  refine Proc.Within.loop (fun phase => ?_) turns _
  cases phase with
  | ended machine result => trivial
  | failed e => trivial
  | interrupting s =>
    refine Proc.Within.bind (traffic_within hC rfl fun _ => trivial) fun f => ?_
    exact (perform_within hC _).bind fun _ => trivial
  | looping s =>
    refine Proc.Within.bind (traffic_within hC rfl fun _ => trivial) fun f => ?_
    cases f with
    | some f => exact (takeAsync_within hC src p s f).bind fun _ => trivial
    | none =>
      refine Proc.Within.bind (Proc.within_query (hC _ rfl)) fun b => ?_
      split
      · exact (perform_within hC _).bind fun _ => trivial
      · split
        · refine Proc.Within.bind (traffic_within hC rfl fun _ => trivial) fun f => ?_
          exact (takeAsync_within hC src p s f).bind fun _ => trivial
        · exact (sendNext_within hC hreport src p s).bind fun _ => trivial

end Data

end Traffic

end Within

end PesitWizard.Io
