import PesitWizard.Core.FpduKind

/-! The protocol state tables. `A` is the requester side and `B` the server side; `Tde` is a transfer the
requester writes and `Tdl` one that it reads. -/

namespace PesitWizard.Core

inductive Role
  | requester | server
  deriving DecidableEq

inductive State
  | cn01 | cn02A | cn02B | cn03 | cn04A | cn04B
  | sf01A | sf01B | sf02A | sf02B | sf03 | sf04A | sf04B
  | of01A | of01B | of02 | of03A | of03B
  | tde01A | tde02A | tde03A | tde04A | tde05A | tde06A | tde07A | tde08A
  | tde01B | tde02B | tde03B | tde04B | tde05B | tde06B | tde07B | tde08B
  | tdl01A | tdl02A | tdl03A | tdl04A | tdl05A | tdl06A | tdl07A | tdl08A
  | tdl01B | tdl02B | tdl03B | tdl04B | tdl05B | tdl06B | tdl07B | tdl08B
  | mg01A | mg01B | mg04A | mg04B
  deriving DecidableEq

inductive LocalEvent
  | abort | connect | release | create | select | deselect | open | close | write | read | message
  | cancel | sendData | sync | dataEnd | transferEnd | resync | accept | reject
  deriving DecidableEq

inductive Event
  | received (kind : FpduKind) (negative : Bool)
  | ofLocal (e : LocalEvent)
  deriving DecidableEq

inductive Outcome
  | next (s : State)
  | ignore
  | error
  deriving DecidableEq

namespace State

def sending (self resyncSent resyncRcvd idtSent idtRcvd ended : State) : Event → Outcome
  | .ofLocal .sendData | .ofLocal .sync | .received .ackSyn false => .next self
  | .ofLocal .dataEnd => .next ended
  | .ofLocal .resync => .next resyncSent
  | .received .resyn false => .next resyncRcvd
  | .ofLocal .cancel => .next idtSent
  | .received .idt false => .next idtRcvd
  | _ => .error

def senderResyncSent (data resyncRcvd idtSent idtRcvd : State) : Event → Outcome
  | .received .ackResyn false => .next data
  | .received .ackSyn false | .received .ackTransEnd false => .ignore
  | .received .resyn false => .next resyncRcvd
  | .ofLocal .cancel => .next idtSent
  | .received .idt false => .next idtRcvd
  | _ => .error

def senderResyncRcvd (data resyncSent idtSent idtRcvd : State) : Event → Outcome
  | .ofLocal .accept => .next data
  | .ofLocal .resync => .next resyncSent
  | .ofLocal .dataEnd | .ofLocal .sendData | .ofLocal .sync | .ofLocal .transferEnd => .ignore
  | .received .ackSyn false => .ignore
  | .ofLocal .cancel => .next idtSent
  | .received .idt false => .next idtRcvd
  | _ => .error

def receiving (self resyncSent resyncRcvd idtSent idtRcvd ended : State) : Event → Outcome
  | .received .dtf _ | .received .dtfDa _ | .received .dtfMa _ | .received .dtfFa _ => .next self
  | .received .syn false | .ofLocal .accept => .next self
  | .received .dtfEnd false => .next ended
  | .ofLocal .resync => .next resyncSent
  | .received .resyn false => .next resyncRcvd
  | .ofLocal .cancel => .next idtSent
  | .received .idt false => .next idtRcvd
  | _ => .error

def receiverResyncSent (data resyncRcvd idtSent idtRcvd : State) : Event → Outcome
  | .received .ackResyn false => .next data
  | .received .dtf _ | .received .dtfDa _ | .received .dtfMa _ | .received .dtfFa _ => .ignore
  | .received .syn false | .received .dtfEnd false | .received .transEnd false => .ignore
  | .received .resyn false => .next resyncRcvd
  | .ofLocal .cancel => .next idtSent
  | .received .idt false => .next idtRcvd
  | _ => .error

def receiverResyncRcvd (data resyncSent idtSent idtRcvd : State) : Event → Outcome
  | .ofLocal .accept => .next data
  | .ofLocal .resync => .next resyncSent
  | .ofLocal .sync => .ignore
  | .ofLocal .cancel => .next idtSent
  | .received .idt false => .next idtRcvd
  | _ => .error

def idtSent (idtRcvd : State) : Event → Outcome
  | .received .ackIdt false => .next .of02
  | .received .idt false => .next idtRcvd
  | .received _ _ => .ignore
  | .ofLocal _ => .error

def idtRcvd : Event → Outcome
  | .ofLocal .accept => .next .of02
  | .received _ _ => .ignore
  | .ofLocal _ => .error

def awaiting (ack : FpduKind) (positive negative : State) : Event → Outcome
  | .received k n => if k = ack then .next (if n then negative else positive) else .error
  | .ofLocal _ => .error

def answering (positive negative : State) : Event → Outcome
  | .ofLocal .accept => .next positive
  | .ofLocal .reject => .next negative
  | _ => .error

def row : State → Event → Outcome
  | .cn01 => fun
    | .ofLocal .connect => .next .cn02A
    | .received .connect false => .next .cn02B
    | _ => .error
  | .cn02A => fun
    | .received .aconnect false => .next .cn03
    | .received .rconnect _ | .received .aconnect true => .next .cn01
    | _ => .error
  | .cn02B => answering .cn03 .cn01
  | .cn03 => fun
    | .ofLocal .release => .next .cn04A
    | .received .release false => .next .cn04B
    | .ofLocal .select => .next .sf02A
    | .ofLocal .create => .next .sf01A
    | .received .select false => .next .sf02B
    | .received .create false => .next .sf01B
    | .ofLocal .message => .next .mg01A
    | .received .msg false => .next .mg04B
    | .received .msgDm false => .next .mg01B
    | _ => .error
  | .cn04A => fun
    | .received .relconf false => .next .cn01
    | _ => .error
  | .cn04B => answering .cn01 .cn01
  | .sf01A => awaiting .ackCreate .sf03 .cn03
  | .sf01B | .sf02B => answering .sf03 .cn03
  | .sf02A => awaiting .ackSelect .sf03 .cn03
  | .sf03 => fun
    | .ofLocal .deselect => .next .sf04A
    | .received .deselect false => .next .sf04B
    | .ofLocal .open => .next .of01A
    | .received .orf false => .next .of01B
    | _ => .error
  | .sf04A => awaiting .ackDeselect .cn03 .cn03
  | .of01A => awaiting .ackOrf .of02 .sf03
  | .of01B => answering .of02 .sf03
  | .of02 => fun
    | .ofLocal .close => .next .of03A
    | .received .crf false => .next .of03B
    | .ofLocal .write => .next .tde01A
    | .received .write false => .next .tde01B
    | .ofLocal .read => .next .tdl01A
    | .received .read false => .next .tdl01B
    | _ => .error
  | .of03A => awaiting .ackCrf .sf03 .sf03
  | .of03B => answering .sf03 .sf03
  | .tde01A => awaiting .ackWrite .tde02A .of02
  | .tde01B => answering .tde02B .of02
  | .tdl01A => awaiting .ackRead .tdl02A .of02
  | .tdl01B => answering .tdl02B .of02
  | .tde02A => sending .tde02A .tde03A .tde04A .tde05A .tde06A .tde07A
  | .tdl02B => sending .tdl02B .tdl03B .tdl04B .tdl05B .tdl06B .tdl07B
  | .tde03A => senderResyncSent .tde02A .tde04A .tde05A .tde06A
  | .tdl03B => senderResyncSent .tdl02B .tdl04B .tdl05B .tdl06B
  | .tde04A => senderResyncRcvd .tde02A .tde03A .tde05A .tde06A
  | .tdl04B => senderResyncRcvd .tdl02B .tdl03B .tdl05B .tdl06B
  | .tde07A => fun
    | .ofLocal .transferEnd => .next .tde08A
    | .received .ackSyn false => .next .tde07A
    | .received .resyn false => .next .tde04A
    | .ofLocal .cancel => .next .tde05A
    | .received .idt false => .next .tde06A
    | _ => .error
  | .tde08A => fun
    | .received .ackTransEnd _ => .next .of02
    | .received .ackSyn false => .ignore
    | .received .resyn false => .next .tde04A
    | .ofLocal .cancel => .next .tde05A
    | .received .idt false => .next .tde06A
    | _ => .error
  | .tdl07B => fun
    | .received .transEnd false => .next .tdl08B
    | .received .ackSyn false => .ignore
    | .received .resyn false => .next .tdl04B
    | .ofLocal .cancel => .next .tdl05B
    | .received .idt false => .next .tdl06B
    | _ => .error
  | .tdl08B => fun
    | .ofLocal .accept | .ofLocal .reject => .next .of02
    | .ofLocal .resync => .next .tdl03B
    | .received .ackSyn false => .ignore
    | _ => .error
  | .tde02B => receiving .tde02B .tde03B .tde04B .tde05B .tde06B .tde07B
  | .tdl02A => receiving .tdl02A .tdl03A .tdl04A .tdl05A .tdl06A .tdl07A
  | .tde03B => receiverResyncSent .tde02B .tde04B .tde05B .tde06B
  | .tdl03A => receiverResyncSent .tdl02A .tdl04A .tdl05A .tdl06A
  | .tde04B => receiverResyncRcvd .tde02B .tde03B .tde05B .tde06B
  | .tdl04A => receiverResyncRcvd .tdl02A .tdl03A .tdl05A .tdl06A
  | .tde07B => fun
    | .received .transEnd false => .next .tde08B
    | .ofLocal .accept => .next .tde07B
    | .ofLocal .resync => .next .tde03B
    | .ofLocal .cancel => .next .tde05B
    | .received .idt false => .next .tde06B
    | _ => .error
  | .tde08B => fun
    | .ofLocal .accept | .ofLocal .reject => .next .of02
    | .ofLocal .resync => .next .tde03B
    | _ => .error
  | .tdl07A => fun
    | .ofLocal .transferEnd => .next .tdl08A
    | .ofLocal .accept => .next .tdl07A
    | .ofLocal .resync => .next .tdl03A
    | .ofLocal .cancel => .next .tdl05A
    | .received .idt false => .next .tdl06A
    | _ => .error
  | .tdl08A => fun
    | .received .ackTransEnd _ => .next .of02
    | .ofLocal .cancel => .next .tdl05A
    | .received .idt false => .next .tdl06A
    | _ => .error
  | .tde05A => idtSent .tde06A
  | .tde05B => idtSent .tde06B
  | .tdl05A => idtSent .tdl06A
  | .tdl05B => idtSent .tdl06B
  | .tde06A | .tde06B | .tdl06A | .tdl06B => idtRcvd
  | .mg01A => fun
    | .ofLocal .sendData => .next .mg01A
    | .ofLocal .dataEnd => .next .mg04A
    | .received .ackMsg _ => .next .cn03
    | _ => .error
  | .mg04A => awaiting .ackMsg .cn03 .cn03
  | .mg01B => fun
    | .received .msgMm false => .next .mg01B
    | .received .msgFm false => .next .mg04B
    | _ => .error
  | .sf04B | .mg04B => answering .cn03 .cn03

def apply (s : State) (event : Event) : Outcome :=
  match event with
  | .ofLocal .abort | .received .abort _ => .next .cn01
  | _ => s.row event

end State

structure TransitionError where
  state : State
  event : Event

structure Machine where
  role : Role
  state : State
  deriving DecidableEq

namespace Machine

def new (role : Role) : Machine := ⟨role, .cn01⟩

def apply (m : Machine) (event : Event) : Except TransitionError (Bool × Machine) :=
  match m.state.apply event with
  | .next s => .ok (false, { m with state := s })
  | .ignore => .ok (true, m)
  | .error => .error ⟨m.state, event⟩

end Machine

end PesitWizard.Core
