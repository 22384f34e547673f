import Mathlib.Data.List.Sort
import PesitWizard.Core.Num
import PesitWizard.Core.Fpdu

/-! Parameters of an FPDU: setting and reading them, and typed views over their values. -/

namespace PesitWizard.Core

open Library.BigEndian

structure SyncOption where
  intervalKb : UInt16
  window : UInt8
  deriving DecidableEq

namespace SyncOption

def undefinedInterval : UInt16 := 0xFFFF

def enabled (o : SyncOption) : Bool := o.intervalKb ≠ 0

def intervalBytes (o : SyncOption) : Option ℕ :=
  if o.intervalKb = 0 ∨ o.intervalKb = undefinedInterval then none else some (o.intervalKb.toNat * 1024)

protected def none : SyncOption := ⟨0, 0⟩

def toBytes (o : SyncOption) : Bytes := be16 o.intervalKb.toNat ++ [o.window]

def fromBytes : Bytes → Option SyncOption
  | [hi, lo] => some ⟨UInt16.ofNat (ofBe16 hi lo), 0⟩
  | hi :: lo :: w :: _ => some ⟨UInt16.ofNat (ofBe16 hi lo), w⟩
  | _ => Option.none

def negotiate (proposed own : SyncOption) : SyncOption :=
  if !proposed.enabled || !own.enabled then .none
  else
    let intervalKb :=
      if proposed.intervalKb = undefinedInterval then own.intervalKb
      else if own.intervalKb = undefinedInterval then proposed.intervalKb
      else min proposed.intervalKb own.intervalKb
    ⟨intervalKb, min proposed.window own.window⟩

end SyncOption

inductive Compression
  | none | horizontal | vertical | mixed
  deriving DecidableEq

namespace Compression

def toBytes : Compression → Bytes
  | .none => [0, 0]
  | .horizontal => [1, 1]
  | .vertical => [1, 2]
  | .mixed => [1, 3]

def fromBytes : Bytes → Option Compression
  | 0 :: _ | [] => some .none
  | [1, 1] | [1] => some .horizontal
  | [1, 2] => some .vertical
  | [1, 3] => some .mixed
  | _ => Option.none

def negotiate (requested own : Compression) : Compression :=
  if requested = .none ∨ own = .none then .none
  else if requested = own then requested
  else if requested = .mixed then own
  else if own = .mixed then requested
  else .none

end Compression

inductive Version
  | d | e
  deriving DecidableEq

namespace Version

def code : Version → ℕ
  | .d => 1
  | .e => 2

def fromCode : ℕ → Option Version
  | 1 => some .d
  | 2 => some .e
  | _ => none

end Version

inductive AccessType
  | write | read | mixed
  deriving DecidableEq

namespace AccessType

def code : AccessType → ℕ
  | .write => 0
  | .read => 1
  | .mixed => 2

def fromCode : ℕ → Option AccessType
  | 0 => some .write
  | 1 => some .read
  | 2 => some .mixed
  | _ => none

def allowsWrite (a : AccessType) : Bool := a = .write || a = .mixed

def allowsRead (a : AccessType) : Bool := a = .read || a = .mixed

end AccessType

inductive ArticleFormat
  | fixed | variable
  deriving DecidableEq

namespace ArticleFormat

def code : ArticleFormat → UInt8
  | .fixed => 0x00
  | .variable => 0x80

def fromBytes (v : Bytes) : ArticleFormat :=
  if v.head?.any (fun b => b &&& 0x80 ≠ 0) then .variable else .fixed

end ArticleFormat

structure RequestedAttributes where
  logical : Bool
  physical : Bool
  historical : Bool
  deriving DecidableEq

namespace RequestedAttributes

def all : RequestedAttributes := ⟨true, true, true⟩

def code (a : RequestedAttributes) : UInt8 :=
  (if a.logical then 1 else 0) ||| (if a.physical then 2 else 0) ||| (if a.historical then 4 else 0)

def fromCode (c : UInt8) : RequestedAttributes := ⟨c &&& 1 ≠ 0, c &&& 2 ≠ 0, c &&& 4 ≠ 0⟩

end RequestedAttributes

inductive EndCode
  | error | suspension | cancelByServer | cancelByRequester
  | other (code : UInt8)
  deriving DecidableEq

namespace EndCode

def code : EndCode → UInt8
  | .error => 4
  | .suspension => 8
  | .cancelByServer => 12
  | .cancelByRequester => 16
  | .other c => c

def fromCode : UInt8 → EndCode
  | 4 => .error
  | 8 => .suspension
  | 12 => .cancelByServer
  | 16 => .cancelByRequester
  | c => .other c

end EndCode

def setParam (p : Param) : List Param → List Param
  | [] => [p]
  | q :: params =>
    if q.code < p.code then q :: setParam p params
    else if q.code = p.code then p :: params
    else p :: q :: params

namespace Fpdu

def new (kind : FpduKind) : Fpdu := ⟨kind, 0, 0, [], []⟩

def ofData (kind : FpduKind) (idDst idSrc : UInt8) (data : Bytes) : Fpdu :=
  ⟨kind, idDst, idSrc, [], data⟩

def withIds (f : Fpdu) (idDst idSrc : UInt8) : Fpdu := { f with idDst := idDst, idSrc := idSrc }

def withValue (f : Fpdu) (pi : Pi) (value : Bytes) : Fpdu :=
  { f with params := setParam (.pi pi value) f.params }

def withNum (f : Fpdu) (pi : Pi) (value : ℕ) : Fpdu := f.withValue pi (encodeNum value)

def withDiag (f : Fpdu) (diag : Diagnostic) : Fpdu := f.withValue .diag diag.toBytes

def get (f : Fpdu) (pi : Pi) : Option Bytes :=
  f.params.findSome? fun
    | .pi q value => if q = pi then some value else none
    | .pgi _ items => (items.find? (fun i => i.1 == pi)).map Prod.snd

def getNum (f : Fpdu) (pi : Pi) : Option ℕ := (f.get pi).map decodeNum

def blank (c : Char) : Bool :=
  c.toNat = 0x20 || (0x09 ≤ c.toNat && c.toNat ≤ 0x0D) || c.toNat = 0x85 || c.toNat = 0xA0

def textOf (v : Bytes) : String :=
  String.ofList ((v.map (fun b => Char.ofNat b.toNat)).reverse.dropWhile blank).reverse

def getText (f : Fpdu) (pi : Pi) : Option String := (f.get pi).map textOf

def diag (f : Fpdu) : Option Diagnostic := (f.get .diag).bind Diagnostic.fromBytes

def diagOrOk (f : Fpdu) : Diagnostic := f.diag.getD .ok

def isNegative (f : Fpdu) : Bool := f.kind.isAck && f.diag.any (fun d => !d.isOk)

def restartPoint (f : Fpdu) : Option ℕ := (f.get .restartPoint).map (fun v => decodeNum v % 2 ^ 32)

def syncNumber (f : Fpdu) : Option ℕ := (f.get .syncNumber).map (fun v => decodeNum v % 2 ^ 32)

def endCode (f : Fpdu) : Option EndCode := (f.get .endCode).bind fun v => v.head?.map EndCode.fromCode

def syncOption (f : Fpdu) : Option SyncOption := (f.get .syncOption).bind SyncOption.fromBytes

def compression (f : Fpdu) : Option Compression := (f.get .compression).bind Compression.fromBytes

def accessType (f : Fpdu) : Option AccessType := (f.getNum .accessType).bind AccessType.fromCode

def version (f : Fpdu) : Option Version := (f.getNum .version).bind Version.fromCode

def maxEntitySize (f : Fpdu) : Option UInt16 :=
  (f.getNum .maxEntitySize).map (fun v => UInt16.ofNat (min v 0xFFFF))

def transferId (f : Fpdu) : Option UInt32 :=
  (f.get .transferId).map (fun v => UInt32.ofNat (decodeNum v))

def pgi (f : Fpdu) (g : Pgi) : Option (List (Pi × Bytes)) :=
  f.params.findSome? fun
    | .pgi h items => if h = g then some items else none
    | .pi _ _ => none

def whitespace (c : Char) : Bool :=
  blank c || c.toNat = 0x1680 || (0x2000 ≤ c.toNat && c.toNat ≤ 0x200A) || c.toNat =
    0x2028 || c.toNat = 0x2029 || c.toNat = 0x202F || c.toNat = 0x205F || c.toNat = 0x3000

def textBytes (s : String) : Bytes :=
  (s.toList.reverse.dropWhile whitespace).reverse.map fun c => if c.toNat < 256 then
    UInt8.ofNat c.toNat else 0x3F

def withText (f : Fpdu) (pi : Pi) (value : String) : Fpdu := f.withValue pi (textBytes value)

def withPgi (f : Fpdu) (g : Pgi) (items : List (Pi × Bytes)) : Fpdu :=
  { f with params := setParam (.pgi g (items.insertionSort (fun a b => a.1.code ≤ b.1.code))) f.params }

end Fpdu

end PesitWizard.Core
