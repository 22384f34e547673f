import PesitWizard.Core.Params

/-! Packing of articles into data FPDUs, segmentation of long articles, and their reassembly. -/

namespace PesitWizard.Core

open Library.BigEndian Library.Scan

abbrev maxArticlesPerDtf : ℕ := 255

structure ArticlePacker where
  idDst : UInt8
  maxDtfLen : ℕ
  multiArticle : Bool
  pending : Bytes
  pendingCount : ℕ

def chunks (n : ℕ) : ℕ → Bytes → List Bytes
  | _, [] => []
  | 0, _ :: _ => []
  | fuel + 1, b :: bs => (b :: bs).take n :: chunks n fuel ((b :: bs).drop n)

namespace ArticlePacker

def new (idDst : UInt8) (maxDtfLen : ℕ) (multiArticle : Bool) : ArticlePacker :=
  ⟨idDst, max maxDtfLen (headerLen + 1), multiArticle, [], 0⟩

def maxSingle (p : ArticlePacker) : ℕ := p.maxDtfLen - headerLen

def flushInto (p : ArticlePacker) (out : List Fpdu) : List Fpdu × ArticlePacker :=
  if p.pendingCount = 0 then (out, p)
  else
    let fpdu :=
      if p.pendingCount = 1 then Fpdu.ofData .dtf p.idDst 0 (p.pending.drop 2)
      else Fpdu.ofData .dtf p.idDst (UInt8.ofNat p.pendingCount) p.pending
    (out ++ [fpdu], { p with pending := [], pendingCount := 0 })

def segments (idDst : UInt8) : Bool → List Bytes → List Fpdu
  | _, [] => []
  | first, [c] => [Fpdu.ofData (if first then .dtfDa else .dtfFa) idDst 0 c]
  | first, c :: cs => Fpdu.ofData (if first then .dtfDa else .dtfMa) idDst 0 c :: segments idDst false cs

def push (p : ArticlePacker) (article : Bytes) : List Fpdu × ArticlePacker :=
  if p.maxSingle < article.length then
    let (out, p') := p.flushInto []
    (out ++ segments p.idDst true (chunks p.maxSingle article.length article), p')
  else if !p.multiArticle then ([Fpdu.ofData .dtf p.idDst 0 article], p)
  else
    let needed := 2 + article.length
    let (out, p') :=
      if 0 < p.pendingCount ∧
          (p.maxDtfLen < headerLen + p.pending.length + needed ∨ maxArticlesPerDtf ≤ p.pendingCount) then
        p.flushInto []
      else ([], p)
    (out, { p' with
      pending := p'.pending ++ be16 article.length ++ article
      pendingCount := p'.pendingCount + 1 })

def flush (p : ArticlePacker) : Option Fpdu × ArticlePacker :=
  let (v, p') := p.flushInto []
  (v.getLast?, p')

end ArticlePacker

def readArticle : Bytes → Except DecodeError (Bytes × Bytes)
  | hi :: lo :: rest =>
    let len := ofBe16 hi lo
    if rest.length < len then .error (.protocol "article length exceeds the FPDU")
    else .ok (rest.take len, rest.drop len)
  | _ => .error (.protocol "truncated article length")

def articlesOf (f : Fpdu) : Except DecodeError (List Bytes) :=
  if f.kind = .dtf ∧ 0 < f.idSrc then
    match scanAll readArticle (fun out a => .ok (out ++ [a])) f.data [] with
    | .error e => .error e
    | .ok out =>
      if out.length ≠ f.idSrc.toNat then
        .error (.protocol (toString f.idSrc ++ " articles announced, " ++
          toString out.length ++ " found"))
      else .ok out
  else .ok [f.data]

inductive ReassemblyError
  | noStart (kind : FpduKind)
  | interleaved (kind : FpduKind)
  | tooLong (maxLen : ℕ)
  deriving DecidableEq

structure Reassembler where
  part : Option Bytes
  maxLen : ℕ
  deriving DecidableEq

namespace Reassembler

def new (maxLen : ℕ) : Reassembler := ⟨none, maxLen⟩

def inProgress (r : Reassembler) : Bool := r.part.isSome

def check (r : Reassembler) (len : ℕ) : Except ReassemblyError Unit :=
  if 0 < r.maxLen ∧ r.maxLen < len then .error (.tooLong r.maxLen) else .ok ()

def feed (r : Reassembler) (f : Fpdu) : Except ReassemblyError (List Bytes × Reassembler) :=
  match f.kind with
  | .dtf =>
    if r.part.isSome then .error (.interleaved f.kind)
    else
      match articlesOf f with
      | .error _ => .error (.interleaved f.kind)
      | .ok articles => .ok (articles, r)
  | .dtfDa =>
    if r.part.isSome then .error (.interleaved f.kind)
    else
      match r.check f.data.length with
      | .error e => .error e
      | .ok _ => .ok ([], { r with part := some f.data })
  | .dtfMa | .dtfFa =>
    match r.part with
    | none => .error (.noStart f.kind)
    | some p =>
      match r.check (p.length + f.data.length) with
      | .error e => .error e
      | .ok _ =>
        if f.kind = .dtfMa then .ok ([], { r with part := some (p ++ f.data) })
        else .ok ([p ++ f.data], { r with part := none })
  | _ => .ok ([], r)

def feedAll (r : Reassembler) : List Fpdu → Except ReassemblyError (List Bytes × Reassembler)
  | [] => .ok ([], r)
  | f :: fs =>
    match r.feed f with
    | .error e => .error e
    | .ok (articles, r') =>
      match feedAll r' fs with
      | .error e => .error e
      | .ok (more, r'') => .ok (articles ++ more, r'')

end Reassembler

end PesitWizard.Core
