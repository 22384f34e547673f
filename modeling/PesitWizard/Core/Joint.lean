import Mathlib.Logic.Relation
import PesitWizard.Core.State

/-! A requester machine and a server machine connected by two FIFO queues. Each side sends the FPDU of
every local event that it applies, and applies local events as the session engines do. -/

namespace PesitWizard.Core.Joint

structure Msg where
  kind : FpduKind
  negative : Bool
  deriving DecidableEq

def Msg.event (m : Msg) : Event := .received m.kind m.negative

abbrev positive (k : FpduKind) : Msg := ⟨k, false⟩
abbrev negative (k : FpduKind) : Msg := ⟨k, true⟩

/-- The FPDUs that a local event may put on the wire in a state. A rejection is a negative
acknowledgement; an acceptance of TRANS.END or of a message may carry a diagnostic as well. A message is
sent whole, or in segments that only follow an MSGDM. -/
def emits (segmented : Bool) : State → LocalEvent → List Msg
  | .cn01, .connect => [positive .connect]
  | .cn02B, .accept => [positive .aconnect]
  | .cn02B, .reject => [positive .rconnect, negative .rconnect]
  | .cn03, .release => [positive .release]
  | .cn03, .create => [positive .create]
  | .cn03, .select => [positive .select]
  | .cn03, .message => [positive .msg, positive .msgDm]
  | .cn04B, .accept | .cn04B, .reject => [positive .relconf]
  | .sf01B, .accept => [positive .ackCreate]
  | .sf01B, .reject => [negative .ackCreate]
  | .sf02B, .accept => [positive .ackSelect]
  | .sf02B, .reject => [negative .ackSelect]
  | .sf03, .deselect => [positive .deselect]
  | .sf03, .open => [positive .orf]
  | .sf04B, .accept => [positive .ackDeselect]
  | .sf04B, .reject => [negative .ackDeselect]
  | .of01B, .accept => [positive .ackOrf]
  | .of01B, .reject => [negative .ackOrf]
  | .of02, .close => [positive .crf]
  | .of02, .write => [positive .write]
  | .of02, .read => [positive .read]
  | .of03B, .accept => [positive .ackCrf]
  | .of03B, .reject => [negative .ackCrf]
  | .tde01B, .accept => [positive .ackWrite]
  | .tde01B, .reject => [negative .ackWrite]
  | .tdl01B, .accept => [positive .ackRead]
  | .tdl01B, .reject => [negative .ackRead]
  | .tde02A, .sendData | .tdl02B, .sendData =>
    [positive .dtf, positive .dtfDa, positive .dtfMa, positive .dtfFa]
  | .tde02A, .sync | .tdl02B, .sync => [positive .syn]
  | .tde02A, .dataEnd | .tdl02B, .dataEnd => [positive .dtfEnd]
  | .tde04A, .accept | .tdl04B, .accept | .tde04B, .accept | .tdl04A, .accept => [positive .ackResyn]
  | .tde02B, .accept | .tde07B, .accept | .tdl02A, .accept | .tdl07A, .accept => [positive .ackSyn]
  | .tde07A, .transferEnd | .tdl07A, .transferEnd => [positive .transEnd]
  | .tde08B, .accept | .tdl08B, .accept => [positive .ackTransEnd, negative .ackTransEnd]
  | .tde08B, .reject | .tdl08B, .reject => [negative .ackTransEnd]
  | .mg01A, .sendData => if segmented then [positive .msgMm] else []
  | .mg01A, .dataEnd => if segmented then [positive .msgFm] else []
  | .mg04B, .accept => [positive .ackMsg, negative .ackMsg]
  | .mg04B, .reject => [negative .ackMsg]
  | _, .resync => [positive .resyn]
  | _, _ => []

/-- The states of the receiver of a file: the server when the requester writes, the
requester when it reads. -/
def dataReceiver : State → Bool
  | .tde01B | .tde02B | .tde03B | .tde04B | .tde05B | .tde06B | .tde07B | .tde08B
  | .tdl01A | .tdl02A | .tdl03A | .tdl04A | .tdl05A | .tdl06A | .tdl07A | .tdl08A => true
  | _ => false

/-- The local events of the engines: requests come from the requester, only the data receiver
resynchronises, and nothing is cancelled or aborted. -/
def permitted (role : Role) (s : State) : LocalEvent → Bool
  | .abort | .cancel => false
  | .connect | .release | .create | .select | .deselect | .open | .close | .write | .read | .message
  | .transferEnd => role = .requester
  | .sendData | .sync | .dataEnd | .accept | .reject => true
  | .resync => dataReceiver s

structure Config where
  req : Machine
  srv : Machine
  toSrv : List Msg
  toReq : List Msg
  segmented : Bool

def initial : Config := ⟨Machine.new .requester, Machine.new .server, [], [], false⟩

inductive Step : Config → Config → Prop
  | requester {c : Config} {e : LocalEvent} {m : Msg} {r : Machine} :
      permitted .requester c.req.state e = true → m ∈ emits c.segmented c.req.state e →
      c.req.apply (.ofLocal e) = .ok (false, r) →
      Step c { c with
        req := r
        toSrv := c.toSrv ++ [m]
        segmented := if e = .message then m.kind = .msgDm else c.segmented }
  | server {c : Config} {e : LocalEvent} {m : Msg} {s : Machine} :
      permitted .server c.srv.state e = true → m ∈ emits c.segmented c.srv.state e →
      c.srv.apply (.ofLocal e) = .ok (false, s) →
      Step c { c with srv := s, toReq := c.toReq ++ [m] }
  | toServer {c : Config} {m : Msg} {q : List Msg} {ignored : Bool} {s : Machine} :
      c.toSrv = m :: q → c.srv.apply m.event = .ok (ignored, s) → Step c { c with srv := s, toSrv := q }
  | toRequester {c : Config} {m : Msg} {q : List Msg} {ignored : Bool} {r : Machine} :
      c.toReq = m :: q → c.req.apply m.event = .ok (ignored, r) → Step c { c with req := r, toReq := q }

def Reachable (c : Config) : Prop := Relation.ReflTransGen Step initial c

structure Exchange where
  base : State
  asking : State
  asked : State
  request : Msg
  answers : List (Msg × State)

/-- The exchanges in which nothing but the request and its answer travels. The positive answers to WRITE
and READ open a data phase and are not among them. -/
def exchanges : List Exchange :=
  [⟨.cn01, .cn02A, .cn02B, positive .connect,
      [(positive .aconnect, .cn03), (positive .rconnect, .cn01), (negative .rconnect, .cn01)]⟩,
    ⟨.cn03, .cn04A, .cn04B, positive .release, [(positive .relconf, .cn01)]⟩,
    ⟨.cn03, .sf01A, .sf01B, positive .create,
    [(positive .ackCreate, .sf03), (negative .ackCreate, .cn03)]⟩,
    ⟨.cn03, .sf02A, .sf02B, positive .select,
    [(positive .ackSelect, .sf03), (negative .ackSelect, .cn03)]⟩,
    ⟨.sf03, .sf04A, .sf04B, positive .deselect,
    [(positive .ackDeselect, .cn03), (negative .ackDeselect, .cn03)]⟩,
    ⟨.sf03, .of01A, .of01B, positive .orf, [(positive .ackOrf, .of02), (negative .ackOrf, .sf03)]⟩,
    ⟨.of02, .of03A, .of03B, positive .crf, [(positive .ackCrf, .sf03), (negative .ackCrf, .sf03)]⟩,
    ⟨.of02, .tde01A, .tde01B, positive .write, [(negative .ackWrite, .of02)]⟩,
    ⟨.of02, .tdl01A, .tdl01B, positive .read, [(negative .ackRead, .of02)]⟩,
    ⟨.cn03, .mg01A, .mg04B, positive .msg, [(positive .ackMsg, .cn03), (negative .ackMsg, .cn03)]⟩]

def feed : State → List Msg → Option State
  | s, [] => some s
  | s, m :: q =>
    match s.apply m.event with
    | .next t => feed t q
    | _ => none

def sent (m : Msg) : Bool :=
  !m.negative && (m.kind.isData || m.kind = .syn || m.kind = .dtfEnd || m.kind = .transEnd)

def segment (m : Msg) : Bool :=
  !m.negative && (m.kind = .msgDm || m.kind = .msgMm || m.kind = .msgFm)

/-- The state of the receiver of a written file once it has everything that the requester has sent. -/
def writeMate : State → Option State
  | .tde02A => some .tde02B
  | .tde07A => some .tde07B
  | .tde08A => some .tde08B
  | _ => none

def readMate : State → Option State
  | .tdl02B => some .tdl02A
  | .tdl07B => some .tdl07A
  | _ => none

def syns (n : ℕ) : List Msg := List.replicate n (positive .ackSyn)

/-- Which pairs of states and queues occur: requester, server, queue to the server, queue to the
requester, and whether the message being sent is in segments. -/
inductive Inv : State → State → List Msg → List Msg → Bool → Prop
  | idle {s g} : s ∈ [State.cn01, .cn03, .sf03, .of02] → Inv s s [] [] g
  | asked {x g} : x ∈ exchanges → (x.asking = .mg01A → g = false) → Inv x.asking x.base [x.request] [] g
  | pending {x g} : x ∈ exchanges → (x.asking = .mg01A → g = false) → Inv x.asking x.asked [] [] g
  | answered {x a g} : x ∈ exchanges → a ∈ x.answers → (x.asking = .mg01A → g = false) →
      Inv x.asking a.2 [] [a.1] g
  -- segments of a message in flight
  | segments {s q} : s ∈ [State.cn03, .mg01B, .mg04B] → (∀ m ∈ q, segment m = true) →
      feed s q = some .mg01B → Inv .mg01A s q [] true
  | lastSegment {s q g} : s ∈ [State.cn03, .mg01B, .mg04B] → (∀ m ∈ q, segment m = true) →
      feed s q = some .mg04B → Inv .mg04A s q [] g
  | segmentsAnswered {m g} : m ∈ [positive .ackMsg, negative .ackMsg] → Inv .mg04A .cn03 [] [m] g
  -- a file is written; the first two before the requester has seen ACK(WRITE)
  | writeOpen {n g} : Inv .tde01A .tde02B [] (positive .ackWrite :: syns n) g
  | writeOpenResync {n g} :
    Inv .tde01A .tde03B [] (positive .ackWrite :: (syns n ++ [positive .resyn])) g
  | write {r s q n t g} : writeMate r = some t → s ∈ [State.tde02B, .tde07B, .tde08B] →
      (∀ m ∈ q, sent m = true) → feed s q = some t → Inv r s q (syns n) g
  | writeResync {r q n t g} : writeMate r = some t → (∀ m ∈ q, sent m = true) →
      Inv r .tde03B q (syns n ++ [positive .resyn]) g
  | writeResyncSeen {q g} : (∀ m ∈ q, sent m = true) → Inv .tde04A .tde03B q [] g
  | writeResyncAcked {r q q' t g} : writeMate r = some t → (∀ m ∈ q, sent m = true) →
      (∀ m ∈ q', sent m = true) → feed .tde02B q' = some t →
      Inv r .tde03B (q ++ positive .ackResyn :: q') [] g
  | writeDone {n m g} : m ∈ [positive .ackTransEnd, negative .ackTransEnd] → Inv .tde08A .of02 []
    (syns n ++ [m]) g
  -- a file is read; the first one before the requester has seen ACK(READ)
  | readOpen {s p t g} : readMate s = some t → (∀ m ∈ p, sent m = true) → feed .tdl02A p = some t →
      Inv .tdl01A s [] (positive .ackRead :: p) g
  | read {r s p n t g} : readMate s = some t → r ∈ [State.tdl02A, .tdl07A] → (∀ m ∈ p, sent m = true) →
      feed r p = some t → Inv r s (syns n) p g
  | readResync {s p n t g} : readMate s = some t → (∀ m ∈ p, sent m = true) →
      Inv .tdl03A s (syns n ++ [positive .resyn]) p g
  | readResyncSeen {p g} : (∀ m ∈ p, sent m = true) → Inv .tdl03A .tdl04B [] p g
  | readResyncAcked {s p p' t g} : readMate s = some t → (∀ m ∈ p, sent m = true) →
      (∀ m ∈ p', sent m = true) → feed .tdl02A p' = some t →
      Inv .tdl03A s [] (p ++ positive .ackResyn :: p') g
  | readEnding {n g} : Inv .tdl08A .tdl07B (syns n ++ [positive .transEnd]) [] g
  | readEnded {g} : Inv .tdl08A .tdl08B [] [] g
  | readDone {m g} : m ∈ [positive .ackTransEnd, negative .ackTransEnd] → Inv .tdl08A .of02 [] [m] g

end PesitWizard.Core.Joint
