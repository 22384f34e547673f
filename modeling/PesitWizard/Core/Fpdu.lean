import PesitWizard.Core.FpduKind
import PesitWizard.Library.Scan

/-! FPDU structure, encoding and decoding. -/

namespace PesitWizard.Core

open Library.BigEndian Library.Scan

abbrev headerLen : ℕ := 6
abbrev maxFpduLen : ℕ := 0xFFFF

inductive Param
  | pi (p : Pi) (value : Bytes)
  | pgi (g : Pgi) (items : List (Pi × Bytes))
  deriving DecidableEq

def Param.code : Param → UInt8
  | .pi p _ => p.code
  | .pgi g _ => g.code

structure Fpdu where
  kind : FpduKind
  idDst : UInt8
  idSrc : UInt8
  params : List Param
  data : Bytes
  deriving DecidableEq

structure DecodeError where
  diag : Diagnostic
  detail : String
  deriving DecidableEq

def DecodeError.param (detail : String) : DecodeError := ⟨Diagnostic.invalidParameter, detail⟩
def DecodeError.protocol (detail : String) : DecodeError := ⟨Diagnostic.remoteProtocolError, detail⟩

inductive EncodeError
  | tooLong (total : ℕ)
  | emptyValue (code : UInt8)
  deriving DecidableEq

def unitLen (valueLen : ℕ) : ℕ := 1 + (if valueLen < 255 then 1 else 3) + valueLen

def pushUnit (out : Bytes) (code : UInt8) (value : Bytes) : Bytes :=
  let out := out ++ [code]
  let out := if value.length < 255 then out ++ [UInt8.ofNat value.length]
    else out ++ [0xFF] ++ be16 value.length
  out ++ value

/-- The position in the buffer is the length of what has been read, so the reader takes the rest of the
buffer and returns what follows the unit. -/
def readUnit : Bytes → Except DecodeError ((UInt8 × Bytes) × Bytes)
  | [] => .error (.param "")
  | [code] => .error (.param s!"parameter {code}: missing length indicator")
  | code :: li :: rest =>
    let indicator : Option (ℕ × Bytes) :=
      if li = 0xFF then
        match rest with
        | hi :: lo :: rest => some (ofBe16 hi lo, rest)
        | _ => none
      else some (li.toNat, rest)
    match indicator with
    | none => .error (.param s!"parameter {code}: truncated extended length")
    | some (len, rest) =>
      if len = 0 then .error (.param s!"parameter {code}: zero length is forbidden")
      else if rest.length < len then
        .error (.param (s!"parameter {code}: declared length {len} exceeds the " ++
          toString rest.length ++ " remaining bytes"))
      else .ok ((code, rest.take len), rest.drop len)

namespace Fpdu

def paramLen : Param → ℕ
  | .pi _ value => unitLen value.length
  | .pgi _ items => unitLen (items.map (fun i => unitLen i.2.length)).sum

def encodedLen (f : Fpdu) : ℕ :=
  if f.kind.isData then headerLen + f.data.length
  else headerLen + (f.params.map paramLen).sum

def encodeItems : List (Pi × Bytes) → Bytes → Except EncodeError Bytes
  | [], inner => .ok inner
  | (pi, value) :: items, inner =>
    if value.isEmpty then .error (.emptyValue pi.code)
    else encodeItems items (pushUnit inner pi.code value)

def encodeParams : List Param → Bytes → Except EncodeError Bytes
  | [], out => .ok out
  | .pi pi value :: params, out =>
    if value.isEmpty then .error (.emptyValue pi.code)
    else encodeParams params (pushUnit out pi.code value)
  | .pgi pgi items :: params, out =>
    match encodeItems items [] with
    | .error e => .error e
    | .ok inner => encodeParams params (pushUnit out pgi.code inner)

def encodeInto (f : Fpdu) (out : Bytes) : Except EncodeError Bytes :=
  let total := f.encodedLen
  if maxFpduLen < total then .error (.tooLong total)
  else
    let out := out ++ be16 total ++ [f.kind.phase, f.kind.typeCode, f.idDst, f.idSrc]
    if f.kind.isData then .ok (out ++ f.data) else encodeParams f.params out

def encode (f : Fpdu) : Except EncodeError Bytes := f.encodeInto []

/-- What the loop over the members of a group keeps: the items read so far and the
code of the last one. -/
structure ItemState where
  items : List (Pi × Bytes)
  lastInner : UInt8

def decodeItem (strict : Bool) (pgi : Pgi) (s : ItemState) (u : UInt8 × Bytes) :
    Except DecodeError ItemState :=
  match Pi.fromCode u.1 with
  | none => .error (.param (s!"unknown PI {u.1} inside " ++ pgi.display))
  | some pi =>
    if strict && !pgi.contains pi then
      .error (.param (pi.display ++ " is not allowed inside " ++ pgi.display))
    else if strict && (u.1 ≤ s.lastInner && !s.items.isEmpty) then
      .error (.param (pi.display ++ " out of order inside " ++ pgi.display))
    else .ok ⟨s.items ++ [(pi, u.2)], u.1⟩

/-- What the loop over the parameters keeps: those read so far and the last code in ascending order. -/
structure ParamState where
  params : List Param
  lastCode : UInt8

def decodeParam (strict : Bool) (s : ParamState) (u : UInt8 × Bytes) : Except DecodeError ParamState :=
  let late := u.1 ≤ s.lastCode && !s.params.isEmpty
  if late && strict then
    .error (.param (s!"parameter {u.1} appears after parameter " ++ toString s.lastCode ++
      " (wrong order or duplicate)"))
  else
    let lastCode := if late then s.lastCode else u.1
    match Pgi.fromCode u.1 with
    | some pgi =>
      match scanAll readUnit (decodeItem strict pgi) u.2 ⟨[], 0⟩ with
      | .error e => .error e
      | .ok inner => .ok ⟨s.params ++ [.pgi pgi inner.items], lastCode⟩
    | none =>
      match Pi.fromCode u.1 with
      | some pi => .ok ⟨s.params ++ [.pi pi u.2], lastCode⟩
      | none => .error (.param s!"unknown parameter code {u.1}")

def checkParam (kind : FpduKind) (p : Param) : Except DecodeError Unit :=
  if !kind.template.any (fun r => r.code == p.code) then
    .error (.param (s!"parameter {p.code} not allowed in " ++ kind.name))
  else
    match p with
    | .pi pi value =>
      if pi.maxLen ≠ 0 ∧ pi.maxLen < value.length then
        .error (.param (pi.display ++ s!" value too long ({value.length} > {pi.maxLen})"))
      else .ok ()
    | .pgi pgi items =>
      match pgi.members.find? (fun m => m.2 && !items.any (fun i => i.1 == m.1)) with
      | some m => .error (.param ("mandatory " ++ m.1.display ++ " missing inside " ++ pgi.display))
      | none => .ok ()

def checkParams (kind : FpduKind) : List Param → Except DecodeError Unit
  | [] => .ok ()
  | p :: params =>
    match checkParam kind p with
    | .error e => .error e
    | .ok _ => checkParams kind params

def validateTemplate (f : Fpdu) : Except DecodeError Unit :=
  match checkParams f.kind f.params with
  | .error e => .error e
  | .ok _ =>
    match f.kind.template.find? (fun r => r.mandatory && !f.params.any (fun p => p.code == r.code)) with
    | some r => .error (.param (s!"mandatory parameter {r.code} missing in " ++ f.kind.name))
    | none => .ok ()

def hexByte (b : UInt8) : String :=
  "0x" ++ String.ofList [Nat.digitChar (b.toNat / 16), Nat.digitChar (b.toNat % 16)]

def decodeWith (bytes : Bytes) (strict : Bool) : Except DecodeError Fpdu :=
  match bytes with
  | b0 :: b1 :: b2 :: b3 :: b4 :: b5 :: body =>
    let declared := ofBe16 b0 b1
    if declared ≠ bytes.length then
      .error (.protocol (s!"FPDU length field {declared} does not match the " ++
        toString bytes.length ++ " bytes received"))
    else
      match FpduKind.fromCodes b2 b3 with
      | none => .error (.protocol ("unknown FPDU phase/type " ++ hexByte b2 ++ "/" ++ hexByte b3))
      | some kind =>
        if kind.isData then .ok ⟨kind, b4, b5, [], body⟩
        else
          match scanAll readUnit (decodeParam strict) body ⟨[], 0⟩ with
          | .error e => .error e
          | .ok s =>
            let fpdu : Fpdu := ⟨kind, b4, b5, s.params, []⟩
            if strict then
              match fpdu.validateTemplate with
              | .error e => .error e
              | .ok _ => .ok fpdu
            else .ok fpdu
  | _ => .error (.protocol (s!"FPDU too short ({bytes.length} bytes)"))

def decode (bytes : Bytes) : Except DecodeError Fpdu := decodeWith bytes true

end Fpdu

end PesitWizard.Core
