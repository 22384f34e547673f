import PesitWizard.Core.Article
import PesitWizard.Core.Compress
import PesitWizard.Core.Frame
import PesitWizard.Core.State

/-! Errors of a session, and the receiving end of a link. -/

namespace PesitWizard.Io

open PesitWizard.Core

inductive TransportError
  | io
  | closed
  | tooLarge (length limit : ℕ)
  | invalid (length : ℕ)
  deriving DecidableEq

inductive Negotiation
  | transition (state : State) (event : Event)
  | encode (e : EncodeError)
  | resyncNotNegotiated
  | unknownRestartPoint (point : ℕ)
  | unknownSyncPoint (point : ℕ)
  | unknownReadPoint (point : ℕ)
  deriving DecidableEq

inductive SessionError
  | transport (e : TransportError)
  | decode (e : DecodeError)
  | protocol (state : State) (kind : FpduKind)
  | aborted (diag : Diagnostic) (message : Option String)
  | refused (request : FpduKind) (diag : Diagnostic) (message : Option String)
  | io
  | reassembly (e : ReassemblyError)
  | decompress (e : Compress.DecompressError)
  | timeout
  | negotiation (reason : Negotiation)
  | counts (counted transferred : ℕ)
  deriving DecidableEq

def SessionError.abortDiag : SessionError → Diagnostic
  | .transport _ => .networkIncident
  | .decode e => e.diag
  | .aborted diag _ | .refused _ diag _ => diag
  | .io => .ioError
  | .protocol _ _ | .reassembly _ | .decompress _ => .remoteProtocolError
  | .timeout => .timeout
  | .negotiation _ => .negotiationFailure
  | .counts _ _ => .invalidCounts

def peerMessage (f : Fpdu) : Option String := (f.getText .freeMessage).or (f.getText .diagComplement)

def applyReceived (machine : Machine) (f : Fpdu) : Except SessionError Machine :=
  if f.kind = .abort then .error (.aborted f.diagOrOk (peerMessage f))
  else
    match machine.apply (.received f.kind f.isNegative) with
    | .ok (_, m) => .ok m
    | .error _ => .error (.protocol machine.state f.kind)

def applyLocal (machine : Machine) (e : LocalEvent) : Except SessionError Machine :=
  match machine.apply (.ofLocal e) with
  | .ok (_, m) => .ok m
  | .error err => .error (.negotiation (.transition err.state err.event))

lemma applyLocal_next {m : Machine} {e : LocalEvent} {s : State}
    (h : m.state.apply (.ofLocal e) = .next s) :
    applyLocal m e = .ok ⟨m.role, s⟩ := by
  simp only [applyLocal, Machine.apply, h]

structure Link where
  crc : Bool
  incoming : List Bytes
  pending : List Fpdu

namespace Link

def decodeParts : List Bytes → List Fpdu × Option DecodeError
  | [] => ([], none)
  | bytes :: parts =>
    match Fpdu.decode bytes with
    | .error e => ([], some e)
    | .ok f =>
      let (fs, e) := decodeParts parts
      (f :: fs, e)

def queueEntity (l : Link) (entity : Bytes) : Link × Option DecodeError :=
  match Frame.splitEntity entity l.crc with
  | .error e => (l, some e)
  | .ok parts =>
    let (fs, e) := decodeParts parts
    ({ l with pending := l.pending ++ fs }, e)

def poll (l : Link) : Option (Except SessionError (Option Fpdu) × Link) :=
  match l.pending with
  | f :: pending => some (.ok (some f), { l with pending := pending })
  | [] =>
    match l.incoming with
    | [] => none
    | entity :: incoming =>
      match ({ l with incoming := incoming } : Link).queueEntity entity with
      | (l', some e) => some (.error (.decode e), l')
      | (l', none) =>
        match l'.pending with
        | [] => some (.ok none, l')
        | f :: pending => some (.ok (some f), { l' with pending := pending })

def recv (l : Link) : Option (Except SessionError Fpdu × Link) :=
  match l.pending, l.incoming, l.poll with
  | [], entity :: _, some (.ok none, l') => some (.error (.transport (.invalid entity.length)), l')
  | _, _, some (.ok (some f), l') => some (.ok f, l')
  | _, _, some (.error e, l') => some (.error e, l')
  | _, _, _ => none

def deliver (l : Link) (entity : Bytes) : Link := { l with incoming := l.incoming ++ [entity] }

end Link

end PesitWizard.Io
