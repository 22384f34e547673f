import PesitWizard.Core.Pi

/-! FPDU kinds, their wire codes and their parameter templates. -/

namespace PesitWizard.Core

inductive FpduKind
  | connect | aconnect | rconnect | release | relconf | abort | read | write | syn | dtfEnd | resyn | idt
  | transEnd | create | select | deselect | orf | crf | msg | msgDm | msgMm | msgFm | ackCreate
  | ackSelect | ackDeselect | ackOrf | ackCrf | ackRead | ackWrite | ackTransEnd | ackSyn | ackResyn
  | ackIdt | ackMsg | dtf | dtfMa | dtfDa | dtfFa
  deriving DecidableEq

structure ParamRule where
  code : UInt8
  mandatory : Bool
  deriving DecidableEq

namespace FpduKind

def phase : FpduKind → UInt8
  | .connect | .aconnect | .rconnect | .release | .relconf | .abort => 0x40
  | .dtf | .dtfMa | .dtfDa | .dtfFa => 0x00
  | _ => 0xC0

def typeCode : FpduKind → UInt8
  | .connect => 0x20 | .aconnect => 0x21 | .rconnect => 0x22 | .release => 0x23 | .relconf => 0x24
  | .abort => 0x25 | .read => 0x01 | .write => 0x02 | .syn => 0x03 | .dtfEnd => 0x04 | .resyn => 0x05
  | .idt => 0x06 | .transEnd => 0x08 | .create => 0x11 | .select => 0x12 | .deselect =>
    0x13 | .orf => 0x14
  | .crf => 0x15 | .msg => 0x16 | .msgDm => 0x17 | .msgMm => 0x18 | .msgFm => 0x19 | .ackCreate => 0x30
  | .ackSelect => 0x31 | .ackDeselect => 0x32 | .ackOrf => 0x33 | .ackCrf => 0x34 | .ackRead => 0x35
  | .ackWrite => 0x36 | .ackTransEnd => 0x37 | .ackSyn => 0x38 | .ackResyn => 0x39 | .ackIdt => 0x3A
  | .ackMsg => 0x3B | .dtf => 0x00 | .dtfMa => 0x40 | .dtfDa => 0x41 | .dtfFa => 0x42

def name : FpduKind → String
  | .connect => "FPDU.CONNECT" | .aconnect => "FPDU.ACONNECT" | .rconnect => "FPDU.RCONNECT"
  | .release => "FPDU.RELEASE" | .relconf => "FPDU.RELCONF" | .abort =>
    "FPDU.ABORT" | .read => "FPDU.READ"
  | .write => "FPDU.WRITE" | .syn => "FPDU.SYN" | .dtfEnd => "FPDU.DTF.END" | .resyn => "FPDU.RESYN"
  | .idt => "FPDU.IDT" | .transEnd => "FPDU.TRANS.END" | .create =>
    "FPDU.CREATE" | .select => "FPDU.SELECT"
  | .deselect => "FPDU.DESELECT" | .orf => "FPDU.ORF" | .crf => "FPDU.CRF" | .msg => "FPDU.MSG"
  | .msgDm => "FPDU.MSGDM" | .msgMm => "FPDU.MSGMM" | .msgFm => "FPDU.MSGFM"
  | .ackCreate => "FPDU.ACK(CREATE)" | .ackSelect => "FPDU.ACK(SELECT)"
  | .ackDeselect => "FPDU.ACK(DESELECT)" | .ackOrf => "FPDU.ACK(ORF)" | .ackCrf => "FPDU.ACK(CRF)"
  | .ackRead => "FPDU.ACK(READ)" | .ackWrite => "FPDU.ACK(WRITE)" | .ackTransEnd => "FPDU.ACK(TRANS.END)"
  | .ackSyn => "FPDU.ACK(SYN)" | .ackResyn => "FPDU.ACK(RESYN)" | .ackIdt => "FPDU.ACK(IDT)"
  | .ackMsg => "FPDU.ACK(MSG)" | .dtf => "FPDU.DTF" | .dtfMa => "FPDU.DTFMA" | .dtfDa => "FPDU.DTFDA"
  | .dtfFa => "FPDU.DTFFA"

def fromCodes : UInt8 → UInt8 → Option FpduKind
  | 0x40, 0x20 => some .connect | 0x40, 0x21 => some .aconnect | 0x40, 0x22 => some .rconnect
  | 0x40, 0x23 => some .release | 0x40, 0x24 => some .relconf | 0x40, 0x25 => some .abort
  | 0xC0, 0x01 => some .read | 0xC0, 0x02 => some .write | 0xC0, 0x03 => some .syn
  | 0xC0, 0x04 => some .dtfEnd | 0xC0, 0x05 => some .resyn | 0xC0, 0x06 => some .idt
  | 0xC0, 0x08 => some .transEnd | 0xC0, 0x11 => some .create | 0xC0, 0x12 => some .select
  | 0xC0, 0x13 => some .deselect | 0xC0, 0x14 => some .orf | 0xC0, 0x15 => some .crf
  | 0xC0, 0x16 => some .msg | 0xC0, 0x17 => some .msgDm | 0xC0, 0x18 => some .msgMm
  | 0xC0, 0x19 => some .msgFm | 0xC0, 0x30 => some .ackCreate | 0xC0, 0x31 => some .ackSelect
  | 0xC0, 0x32 => some .ackDeselect | 0xC0, 0x33 => some .ackOrf | 0xC0, 0x34 => some .ackCrf
  | 0xC0, 0x35 => some .ackRead | 0xC0, 0x36 => some .ackWrite | 0xC0, 0x37 => some .ackTransEnd
  | 0xC0, 0x38 => some .ackSyn | 0xC0, 0x39 => some .ackResyn | 0xC0, 0x3A => some .ackIdt
  | 0xC0, 0x3B => some .ackMsg | 0x00, 0x00 => some .dtf | 0x00, 0x40 => some .dtfMa
  | 0x00, 0x41 => some .dtfDa | 0x00, 0x42 => some .dtfFa
  | _, _ => none

def isData : FpduKind → Bool
  | .dtf | .dtfDa | .dtfMa | .dtfFa => true
  | _ => false

def isAck : FpduKind → Bool
  | .aconnect | .rconnect | .relconf | .ackCreate | .ackSelect | .ackDeselect | .ackOrf | .ackCrf
  | .ackRead
  | .ackWrite | .ackTransEnd | .ackSyn | .ackResyn | .ackIdt | .ackMsg => true
  | _ => false

private def m (code : UInt8) : ParamRule := ⟨code, true⟩
private def o (code : UInt8) : ParamRule := ⟨code, false⟩

def template : FpduKind → List ParamRule
  | .connect => [o 1, m 3, m 4, o 5, m 6, o 7, m 22, o 23, o 26, o 99]
  | .aconnect => [o 5, m 6, o 7, o 23, o 99]
  | .rconnect | .release | .deselect | .ackDeselect => [m 2, o 29, o 99]
  | .relconf => [o 99]
  | .abort | .crf | .ackCrf | .ackRead => [m 2, o 29]
  | .create =>
    [m 9, m 13, o 15, o 16, m 17, m 25, m 30, m 40, o 50, o 61, o 62, o 63, o 71, o 72, o 73, o 75,
      o 77, o 80, o 99]
  | .ackCreate => [m 2, o 13, o 25, o 29, o 64, o 72, o 80, o 83, o 99]
  | .select =>
    [m 9, m 13, o 14, o 15, m 17, m 25, o 61, o 62, o 63, o 71, o 72, o 73, o 75, o 77, o 80, o 99]
  | .ackSelect =>
    [m 2, o 9, o 13, o 16, o 25, o 29, o 30, o 40, o 50, o 61, o 62, o 64, o 72, o 80, o 83, o 99]
  | .orf => [o 21, o 72, o 74, o 76, o 80, o 83]
  | .ackOrf => [m 2, o 21, o 29, o 74, o 76]
  | .read => [m 18]
  | .write | .ackIdt | .dtf | .dtfDa | .dtfMa | .dtfFa => []
  | .ackWrite => [m 2, m 18, o 29]
  | .dtfEnd => [m 2, o 29, o 78, o 79, o 82]
  | .syn => [m 20, o 78]
  | .ackSyn => [m 20]
  | .resyn => [m 2, m 18, o 29]
  | .ackResyn => [m 18]
  | .idt => [m 2, o 19, o 29]
  | .transEnd => [o 27, o 28, o 81]
  | .ackTransEnd => [m 2, o 27, o 28, o 29, o 81]
  | .msg | .msgDm =>
    [m 9, m 13, o 14, o 16, m 17, o 30, o 40, o 50, o 61, o 62, o 73, o 74, o 77, o 78, o 79,
      o 80, o 81, o 91]
  | .msgMm | .msgFm => [o 91]
  | .ackMsg => [m 2, o 13, o 16, o 29, o 79, o 80, o 81, o 91]

lemma fromCodes_codes (k : FpduKind) : fromCodes k.phase k.typeCode = some k := by
  cases k <;> rfl

lemma codes_of_fromCodes {p t : UInt8} {k : FpduKind} (h : fromCodes p t = some k) :
    k.phase = p ∧ k.typeCode = t := by
  unfold fromCodes at h
  split at h <;> first | (cases h; exact ⟨rfl, rfl⟩) | cases h

end FpduKind

end PesitWizard.Core
