import PesitWizard.Core.Params

/-! Data compression (PI 21). An article is compressed chunk by chunk into strings, each
introduced by a header byte: literal bytes, a repeated byte, or a number of bytes that equal the
reference at the same place. -/

namespace PesitWizard.Core

open Library.Scan

namespace Compress

abbrev chunkLen : ℕ := 63

inductive Mode
  | literal | horizontal | vertical | mixed
  deriving DecidableEq

def Mode.ofCompression : Compression → Mode
  | .none => .literal
  | .horizontal => .horizontal
  | .vertical => .vertical
  | .mixed => .mixed

inductive DecompressError
  | invalidHeader (h : UInt8)
  | truncated
  | tooLong (maxLen : ℕ)
  deriving DecidableEq

/-- What the loop over a chunk keeps: the output of this chunk, the place of the header of the last
string, whether that string is literal, and the last byte. -/
structure RunState where
  out : Bytes
  header : ℕ
  literal : Bool
  cur : UInt8

def RunState.step (s : RunState) (b : UInt8) : RunState :=
  if b = s.cur then
    if s.literal then
      if s.out.getD s.header 0 = 1 then { s with out := s.out.set s.header 0x82, literal := false }
      else
        -- the last literal byte is detached into a new run
        let out := s.out.set s.header (s.out.getD s.header 0 - 1)
        let header := out.length - 1
        { s with out := out.set header 0x82 ++ [s.cur], header := header, literal := false }
    else { s with out := s.out.set s.header (s.out.getD s.header 0 + 1) }
  else if s.literal then
    { s with out := s.out.set s.header (s.out.getD s.header 0 + 1) ++ [b], cur := b }
  else { out := s.out ++ [1, b], header := s.out.length, literal := true, cur := b }

def horizontal : Bytes → Bytes
  | [] => []
  | first :: rest => (rest.foldl RunState.step ⟨[1, first], 0, true, first⟩).out

def agreeing (p : UInt8 → UInt8 → Bool) (a b : Bytes) : ℕ :=
  ((a.zip b).takeWhile (fun x => p x.1 x.2)).length

def verticalFrom (mix : Bool) : ℕ → Bytes → Bytes → Bytes
  | _, [], _ => []
  | 0, _ :: _, _ => []
  | fuel + 1, c :: cs, reference =>
    let chunk := c :: cs
    let equal := agreeing (· == ·) chunk reference
    if 0 < equal then
      (0xC0 ||| UInt8.ofNat equal) :: verticalFrom mix fuel (chunk.drop equal) (reference.drop equal)
    else
      let diff := agreeing (· != ·) chunk reference
      (if mix then horizontal (chunk.take diff) else UInt8.ofNat diff :: chunk.take diff) ++
        verticalFrom mix fuel (chunk.drop diff) (reference.drop diff)

def vertical (chunk reference : Bytes) (mix : Bool) : Bytes :=
  verticalFrom mix chunk.length chunk reference

def compressChunk (mode : Mode) (chunk reference : Bytes) : Bytes :=
  match mode with
  | .literal => UInt8.ofNat chunk.length :: chunk
  | .horizontal => horizontal chunk
  | .vertical => vertical chunk reference false
  | .mixed => vertical chunk reference true

def compressFrom (mode : Mode) : ℕ → Bytes → Bytes → Bytes
  | _, [], _ => []
  | 0, _ :: _, _ => []
  | fuel + 1, b :: bs, reference =>
    let chunk := (b :: bs).take chunkLen
    compressChunk mode chunk (reference.take chunk.length) ++
      compressFrom mode fuel ((b :: bs).drop chunkLen) (reference.drop chunkLen)

def compress (mode : Mode) (article reference : Bytes) : Bytes :=
  compressFrom mode article.length article reference

inductive Piece
  | copy (n : ℕ)
  | run (n : ℕ) (b : UInt8)
  | literal (bytes : Bytes)
  deriving DecidableEq

def readPiece : Bytes → Except DecompressError (Piece × Bytes)
  | [] => .error .truncated
  | h :: rest =>
    let n := (h &&& 0x3F).toNat
    if h &&& 0xC0 = 0xC0 then .ok (.copy n, rest)
    else if h &&& 0xC0 = 0x80 then
      match rest with
      | [] => .error .truncated
      | b :: rest => .ok (.run (h &&& 0x7F).toNat b, rest)
    else if h &&& 0xC0 = 0 then
      if rest.length < n then .error .truncated else .ok (.literal (rest.take n), rest.drop n)
    else .error (.invalidHeader h)

def applyPiece (reference : Bytes) (maxLen : ℕ) (out : Bytes) : Piece → Except DecompressError Bytes
  | .copy n =>
    if maxLen < out.length + n then .error (.tooLong maxLen)
    else if reference.length < out.length + n then .error (.tooLong reference.length)
    else .ok (out ++ (reference.drop out.length).take n)
  | .run n b =>
    if maxLen < out.length + n then .error (.tooLong maxLen) else .ok (out ++ List.replicate n b)
  | .literal bytes =>
    if maxLen < out.length + bytes.length then .error (.tooLong maxLen) else .ok (out ++ bytes)

def decompress (compressed reference : Bytes) (maxLen : ℕ) : Except DecompressError Bytes :=
  scanAll readPiece (applyPiece reference maxLen) compressed []

def update (reference article : Bytes) : Bytes := article ++ reference.drop article.length

end Compress

open Compress

structure Compressor where
  compression : Compression
  reference : Bytes
  afterSync : Bool

namespace Compressor

def new (compression : Compression) (maxArticle : ℕ) : Compressor :=
  ⟨compression, List.replicate (max maxArticle 1) 0, true⟩

def syncPoint (c : Compressor) : Compressor := { c with afterSync := true }

def mode (c : Compressor) : Mode := if c.afterSync then .literal else .ofCompression c.compression

def grown (c : Compressor) (article : Bytes) : Bytes :=
  c.reference ++ List.replicate (article.length - c.reference.length) 0

def compress (c : Compressor) (article : Bytes) : Bytes × Compressor :=
  (Compress.compress c.mode article (c.grown article),
    { c with reference := update (c.grown article) article, afterSync := false })

end Compressor

structure Decompressor where
  reference : Bytes
  maxArticle : ℕ

namespace Decompressor

def new (maxArticle : ℕ) : Decompressor := ⟨List.replicate (max maxArticle 1) 0, max maxArticle 1⟩

def decompress (d : Decompressor) (compressed : Bytes) : Except DecompressError (Bytes × Decompressor) :=
  match Compress.decompress compressed d.reference d.maxArticle with
  | .error e => .error e
  | .ok out => .ok (out, { d with reference := update d.reference out })

end Decompressor

end PesitWizard.Core
