import PesitWizard.Io.ReceiveData
import PesitWizard.Io.SendData

/-! A sender and a receiver of a data phase over a reliable link that delivers entities in order.
The effects of the code between two receptions are performed one after the other, and other moves
may come in between. -/

namespace PesitWizard.Io

open PesitWizard.Core Library

structure Sender (σ : Type) where
  phase : SendPhase σ
  todo : List Effect
  link : Link
  store : MemoryCheckpoints
  recorded : List Checkpoint

structure Receiver (τ : Type) where
  phase : RecvPhase
  todo : List Effect
  link : Link
  store : MemoryCheckpoints
  recorded : List Checkpoint
  sink : τ

structure Session (σ τ : Type) where
  sender : Sender σ
  receiver : Receiver τ

variable {σ τ : Type}

def SendPhase.ofRun (x : Run (SendPhase σ)) : SendPhase σ :=
  match x.result with
  | .ok phase => phase
  | .error e => .failed e

def RecvPhase.ofRun (x : Run RecvPhase) : RecvPhase :=
  match x.result with
  | .ok phase => phase
  | .error e => .failed e

namespace Sender

def perform (s : Sender σ) : Effect → Sender σ
  | .record cp => { s with store := s.store.record cp, recorded := s.recorded ++ [cp] }
  | .acknowledge n => { s with store := s.store.acknowledge n }
  | _ => s

def become (s : Sender σ) (x : Run (SendPhase σ)) : Sender σ :=
  { s with phase := .ofRun x, todo := x.effects }

end Sender

namespace Receiver

def perform (ops : ArticleSink τ) (r : Receiver τ) : Effect → Receiver τ
  | .record cp => { r with store := r.store.record cp, recorded := r.recorded ++ [cp] }
  | .write article => { r with sink := ops.writeArticle r.sink article }
  | .truncate pos => { r with sink := ops.truncate r.sink pos }
  | _ => r

def become (r : Receiver τ) (x : Run RecvPhase) : Receiver τ :=
  { r with phase := .ofRun x, todo := x.effects }

end Receiver

inductive Move
  | senderPerforms | senderPolls | senderWaits | senderAdvances | receiverPerforms | receiverTakes
  deriving DecidableEq

namespace Session

structure Setup (σ τ : Type) where
  src : ArticleSource σ
  ops : ArticleSink τ
  sp : DataParams
  rp : DataParams

variable (u : Setup σ τ)

def senderPerforms (c : Session σ τ) : Option (Session σ τ) :=
  match c.sender.todo with
  | [] => none
  | .send e :: todo =>
    some ⟨{ c.sender with todo := todo }, { c.receiver with link := c.receiver.link.deliver e }⟩
  | w :: todo => some { c with sender := ({ c.sender with todo := todo } : Sender σ).perform w }

def receiverPerforms (c : Session σ τ) : Option (Session σ τ) :=
  match c.receiver.todo with
  | [] => none
  | .send e :: todo =>
    some ⟨{ c.sender with link := c.sender.link.deliver e }, { c.receiver with todo := todo }⟩
  | w :: todo =>
    some { c with receiver := ({ c.receiver with todo := todo } : Receiver τ).perform u.ops w }

def senderPolls (c : Session σ τ) : Option (Session σ τ) :=
  match c.sender.todo, c.sender.phase, c.sender.link.poll with
  | [], .looping _, some (.ok none, link) => some { c with sender := { c.sender with link := link } }
  | [], .looping s, some (.ok (some f), link) =>
    some { c with
      sender := { c.sender with link := link }.become
        (SendData.handleAsync u.src u.sp c.sender.store s f) }
  | [], .looping _, some (.error e, link) =>
    some { c with sender := { c.sender with link := link }.become (Act.lift (.error e)) }
  | _, _, _ => none

def senderWaits (c : Session σ τ) : Option (Session σ τ) :=
  match c.sender.todo, c.sender.link.recv with
  | [], some (r, link) =>
    if SendData.waits u.sp c.sender.phase then
      (SendData.react u.src u.sp c.sender.store c.sender.phase r).map fun x =>
        { c with sender := { c.sender with link := link }.become x }
    else none
  | _, _ => none

def senderAdvances (c : Session σ τ) : Option (Session σ τ) :=
  match c.sender.todo, c.sender.phase with
  | [], .looping s =>
    if SendData.windowFull u.sp s then none
    else some { c with sender := c.sender.become (SendData.advance u.src u.sp s) }
  | _, _ => none

def receiverTakes (c : Session σ τ) : Option (Session σ τ) :=
  match c.receiver.todo, c.receiver.link.recv with
  | [], some (r, link) =>
    (ReceiveData.react u.rp c.receiver.store (u.ops.position c.receiver.sink)
      c.receiver.phase r).map fun x =>
      { c with receiver := { c.receiver with link := link }.become x }
  | _, _ => none

def step (c : Session σ τ) : Move → Option (Session σ τ)
  | .senderPerforms => c.senderPerforms
  | .senderPolls => c.senderPolls u
  | .senderWaits => c.senderWaits u
  | .senderAdvances => c.senderAdvances u
  | .receiverPerforms => c.receiverPerforms u
  | .receiverTakes => c.receiverTakes u

def Step (c d : Session σ τ) : Prop := ∃ m, c.step u m = some d

def play : List Move → Session σ τ → Option (Session σ τ)
  | [], c => some c
  | m :: ms, c => (c.step u m).bind (play ms)

lemma play_steps {ms : List Move} {c d : Session σ τ} (h : play u ms c = some d) :
    Relation.ReflTransGen (Step u) c d := by
  induction ms generalizing c with
  | nil =>
    obtain rfl := Option.some.inj h
    exact .refl
  | cons m ms ih =>
    obtain ⟨e, he, hd⟩ := Option.bind_eq_some_iff.mp h
    exact .head ⟨m, he⟩ (ih hd)

def senderCancels (c : Session σ τ) : Option (Session σ τ) :=
  match c.sender.todo, c.sender.phase with
  | [], .looping s => some { c with sender := c.sender.become (SendData.cancel u.sp s) }
  | _, _ => none

def receiverCancels (c : Session σ τ) : Option (Session σ τ) :=
  match c.receiver.todo, c.receiver.phase with
  | [], .receiving s => some { c with receiver := c.receiver.become (ReceiveData.cancel u.rp s) }
  | _, _ => none

/-- A move, or a cancellation by one of the ends. -/
def Happens (c d : Session σ τ) : Prop :=
  Step u c d ∨ c.senderCancels u = some d ∨ c.receiverCancels u = some d

def start (sm rm : Machine) (source : σ) (sink : τ) (senderStore receiverStore : MemoryCheckpoints)
    (senderStart receiverStart : Checkpoint) : Session σ τ :=
  ⟨⟨.looping (SendData.start u.src u.sp sm source senderStart), [], ⟨u.sp.crc, [], []⟩, senderStore, []⟩,
    ⟨.receiving (ReceiveData.start u.rp rm receiverStart), [], ⟨u.rp.crc, [], []⟩,
    receiverStore, [], sink⟩⟩

end Session

end PesitWizard.Io
