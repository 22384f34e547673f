import PesitWizard.Core.CompressSound

/-! Decompression as the loop over the positions of the compressed data, and the decompressor with the
buffers that it keeps across calls. -/

namespace PesitWizard.Core

namespace Compress

open Library.Scan

section Loop

/-- How the loop stops before its end: with an error, at an index outside a slice, or
because it is cut off. -/
inductive Stop
  | refused (e : DecompressError)
  | outside
  | cut
  deriving DecidableEq

def slice (xs : Bytes) (start n : ℕ) : Option Bytes :=
  if start + n ≤ xs.length then some ((xs.drop start).take n) else none

def need (maxLen : ℕ) (out : Bytes) (len : ℕ) : Except Stop Unit :=
  if maxLen < out.length + len then .error (.refused (.tooLong maxLen)) else .ok ()

def stringAt (compressed reference : Bytes) (maxLen pos : ℕ) (out : Bytes) : Except Stop (ℕ × Bytes) :=
  match compressed[pos]? with
  | none => .error .outside
  | some h =>
    let pos := pos + 1
    let n := (h &&& 0x3F).toNat
    if h &&& 0xC0 = 0xC0 then do
      need maxLen out n
      match slice reference out.length n with
      | none => .error (.refused (.tooLong reference.length))
      | some src => .ok (pos, out ++ src)
    else if h &&& 0xC0 = 0x80 then
      match compressed[pos]? with
      | none => .error (.refused .truncated)
      | some b => do
        let n := (h &&& 0x7F).toNat
        need maxLen out n
        .ok (pos + 1, out ++ List.replicate n b)
    else if h &&& 0xC0 = 0 then
      match slice compressed pos n with
      | none => .error (.refused .truncated)
      | some src => do
        need maxLen out n
        .ok (pos + n, out ++ src)
    else .error (.refused (.invalidHeader h))

-- what is decoded before an error stays in the buffer of the caller
def decompressLoop (compressed reference : Bytes) (maxLen : ℕ) : ℕ → ℕ → Bytes → Bytes × Except Stop Unit
  | fuel, pos, out =>
    if pos < compressed.length then
      match fuel with
      | 0 => (out, .error .cut)
      | fuel + 1 =>
        match stringAt compressed reference maxLen pos out with
        | .error e => (out, .error e)
        | .ok (pos, out) => decompressLoop compressed reference maxLen fuel pos out
    else (out, .ok ())

def decompressInto (compressed reference : Bytes) (maxLen : ℕ) (_out : Bytes) :
    Bytes × Except Stop Unit :=
  decompressLoop compressed reference maxLen compressed.length 0 []

inductive Origin (compressed reference : Bytes) (i : ℕ) (b : UInt8) : Prop
  | literal (p k : ℕ) (h : UInt8) : compressed[p]? = some h → h &&& 0xC0 = 0 → k < (h &&& 0x3F).toNat →
      compressed[p + 1 + k]? = some b → Origin compressed reference i b
  | repeated (p : ℕ) (h : UInt8) :
    compressed[p]? = some h → h &&& 0xC0 = 0x80 → compressed[p + 1]? = some b →
      Origin compressed reference i b
  | copied : reference[i]? = some b → Origin compressed reference i b

variable {compressed reference : Bytes} {maxLen : ℕ}

lemma slice_eq_none {xs : Bytes} {start n : ℕ} (h : slice xs start n = none) :
    xs.length < start + n := by
  simp only [slice] at h
  split at h
  · cases h
  · omega

lemma slice_eq_some {xs part : Bytes} {start n : ℕ} (h : slice xs start n = some part) :
    start + n ≤ xs.length ∧ part = (xs.drop start).take n ∧ part.length = n := by
  simp only [slice] at h
  split at h
  · rename_i hle
    obtain rfl := Option.some.inj h
    refine ⟨hle, rfl, ?_⟩
    rw [List.length_take, List.length_drop]
    omega
  · cases h

lemma need_cases (maxLen : ℕ) (out : Bytes) (len : ℕ) :
    (maxLen < out.length + len ∧ need maxLen out len = .error (.refused (.tooLong maxLen))) ∨
      (out.length + len ≤ maxLen ∧ need maxLen out len = .ok ()) := by
  rcases Nat.lt_or_ge maxLen (out.length + len) with h | h
  · exact .inl ⟨h, if_pos h⟩
  · exact .inr ⟨h, if_neg (by omega)⟩

/-- What one string can do: it is refused as the strings of a list are, or it appends
a part that fits. -/
structure Appends (compressed reference : Bytes) (maxLen pos : ℕ) (out : Bytes) (pos' : ℕ)
    (part : Bytes) : Prop where
  string : stringAt compressed reference maxLen pos out = .ok (pos', out ++ part)
  later : pos < pos'
  inside : pos' ≤ compressed.length
  fits : out.length + part.length ≤ maxLen
  origin : ∀ k b, part[k]? = some b → Origin compressed reference (out.length + k) b
  scans : scanAll readPiece (applyPiece reference maxLen) (compressed.drop pos) out =
    scanAll readPiece (applyPiece reference maxLen) (compressed.drop pos') (out ++ part)

def Refuses (compressed reference : Bytes) (maxLen pos : ℕ) (out : Bytes) (e : DecompressError) : Prop :=
  stringAt compressed reference maxLen pos out = .error (.refused e) ∧
    scanAll readPiece (applyPiece reference maxLen) (compressed.drop pos) out = .error e

lemma scan_piece (reference : Bytes) (maxLen : ℕ) (out : Bytes) {xs rest : Bytes} {p : Piece}
    (hr : readPiece xs = .ok (p, rest)) :
    scanAll readPiece (applyPiece reference maxLen) xs out =
      (applyPiece reference maxLen out p).bind
      (scanAll readPiece (applyPiece reference maxLen) rest) := by
  refine scanAll_read readPiece_consumes ?_ hr out
  rintro rfl
  cases hr

section Strings

variable {pos : ℕ} {h : UInt8} (out : Bytes)

lemma drop_header (hpos : compressed[pos]? = some h) :
    compressed.drop pos = h :: compressed.drop (pos + 1) := by
  obtain ⟨hlt, rfl⟩ := List.getElem?_eq_some_iff.mp hpos
  exact List.drop_eq_getElem_cons hlt

lemma copy_cases (hpos : compressed[pos]? = some h) (htag : h &&& 0xC0 = 0xC0) :
    (∃ e, Refuses compressed reference maxLen pos out e) ∨
      ∃ pos' part, Appends compressed reference maxLen pos out pos' part := by
  have hlt := (List.getElem?_eq_some_iff.mp hpos).1
  have hread :
      readPiece (compressed.drop pos) = .ok (.copy (h &&& 0x3F).toNat, compressed.drop (pos + 1)) := by
    rw [drop_header hpos]
    exact if_pos htag
  have hscan := scan_piece reference maxLen out hread
  obtain ⟨hlong, hneed⟩ | ⟨hfits, hneed⟩ := need_cases maxLen out (h &&& 0x3F).toNat
  · refine .inl ⟨.tooLong maxLen, ?_, ?_⟩
    · simp only [stringAt, hpos, htag, if_true, hneed]
      rfl
    · rw [hscan, applyPiece, if_pos hlong]
      rfl
  · cases hsrc : slice reference out.length (h &&& 0x3F).toNat with
    | none =>
      refine .inl ⟨.tooLong reference.length, ?_, ?_⟩
      · simp only [stringAt, hpos, htag, if_true, hneed, hsrc]
        rfl
      · rw [hscan, applyPiece, if_neg (by omega), if_pos (slice_eq_none hsrc)]
        rfl
    | some src =>
      obtain ⟨hinside, rfl, hlen⟩ := slice_eq_some hsrc
      refine .inr ⟨pos + 1, (reference.drop out.length).take (h &&& 0x3F).toNat,
        ?_, by omega, hlt, by omega, ?_, ?_⟩
      · simp only [stringAt, hpos, htag, if_true, hneed, hsrc]
        rfl
      · intro k b hk
        rw [List.getElem?_take] at hk
        split at hk
        · rw [List.getElem?_drop] at hk
          exact .copied hk
        · cases hk
      · rw [hscan, applyPiece, if_neg (by omega), if_neg (by omega)]
        rfl

lemma run_cases (hpos : compressed[pos]? = some h) (htag : h &&& 0xC0 = 0x80) :
    (∃ e, Refuses compressed reference maxLen pos out e) ∨
      ∃ pos' part, Appends compressed reference maxLen pos out pos' part := by
  have hcopy : ¬ h &&& 0xC0 = 0xC0 := by
    rw [htag]
    decide
  have hdrop := drop_header hpos
  cases hnext : compressed[pos + 1]? with
  | none =>
    have hnil : compressed.drop (pos + 1) = [] :=
      List.drop_eq_nil_of_le (List.getElem?_eq_none_iff.mp hnext)
    refine .inl ⟨.truncated, ?_, ?_⟩
    · rw [stringAt, hpos]
      simp only [if_neg hcopy, if_pos htag, hnext]
    · refine scanAll_error (by simp [hdrop]) ?_ out
      rw [hdrop, hnil, readPiece, if_neg hcopy, if_pos htag]
  | some b =>
    have hlt := (List.getElem?_eq_some_iff.mp hnext).1
    have hread :
        readPiece (compressed.drop pos) =
        .ok (.run (h &&& 0x7F).toNat b, compressed.drop (pos + 1 + 1)) := by
      rw [hdrop, drop_header hnext, readPiece, if_neg hcopy, if_pos htag]
    have hscan := scan_piece reference maxLen out hread
    obtain ⟨hlong, hneed⟩ | ⟨hfits, hneed⟩ := need_cases maxLen out (h &&& 0x7F).toNat
    · refine .inl ⟨.tooLong maxLen, ?_, ?_⟩
      · rw [stringAt, hpos]
        simp only [if_neg hcopy, if_pos htag, hnext, hneed]
        rfl
      · rw [hscan, applyPiece, if_pos hlong]
        rfl
    · refine .inr ⟨pos + 1 + 1, List.replicate (h &&& 0x7F).toNat b, ?_, by omega, hlt, ?_, ?_, ?_⟩
      · rw [stringAt, hpos]
        simp only [if_neg hcopy, if_pos htag, hnext, hneed]
        rfl
      · rwa [List.length_replicate]
      · intro k c hk
        obtain rfl : b = c := by
          rw [List.getElem?_replicate] at hk
          split at hk
          · exact Option.some.inj hk
          · cases hk
        exact .repeated pos h hpos htag hnext
      · rw [hscan, applyPiece, if_neg (by omega)]
        rfl

lemma literal_cases (hpos : compressed[pos]? = some h) (htag : h &&& 0xC0 = 0) :
    (∃ e, Refuses compressed reference maxLen pos out e) ∨
      ∃ pos' part, Appends compressed reference maxLen pos out pos' part := by
  have hcopy : ¬ h &&& 0xC0 = 0xC0 := by
    rw [htag]
    decide
  have hrun : ¬ h &&& 0xC0 = 0x80 := by
    rw [htag]
    decide
  have hdrop := drop_header hpos
  cases hsrc : slice compressed (pos + 1) (h &&& 0x3F).toNat with
  | none =>
    have hshort := slice_eq_none hsrc
    refine .inl ⟨.truncated, ?_, ?_⟩
    · rw [stringAt, hpos]
      simp only [if_neg hcopy, if_neg hrun, if_pos htag, hsrc]
    · refine scanAll_error (by simp [hdrop]) ?_ out
      rw [hdrop]
      simp only [readPiece, if_neg hcopy, if_neg hrun, if_pos htag]
      rw [if_pos]
      rw [List.length_drop]
      have := (List.getElem?_eq_some_iff.mp hpos).1
      omega
  | some src =>
    obtain ⟨hinside, rfl, hlen⟩ := slice_eq_some hsrc
    have hread :
        readPiece (compressed.drop pos) =
        .ok (.literal ((compressed.drop (pos + 1)).take (h &&& 0x3F).toNat),
        compressed.drop (pos + 1 + (h &&& 0x3F).toNat)) := by
      rw [hdrop]
      simp only [readPiece, if_neg hcopy, if_neg hrun, if_pos htag]
      rw [if_neg, List.drop_drop]
      rw [List.length_drop]
      omega
    have hscan := scan_piece reference maxLen out hread
    obtain ⟨hlong, hneed⟩ | ⟨hfits, hneed⟩ := need_cases maxLen out (h &&& 0x3F).toNat
    · refine .inl ⟨.tooLong maxLen, ?_, ?_⟩
      · rw [stringAt, hpos]
        simp only [if_neg hcopy, if_neg hrun, if_pos htag, hsrc, hneed]
        rfl
      · rw [hscan, applyPiece, hlen, if_pos hlong]
        rfl
    · refine .inr ⟨pos + 1 + (h &&& 0x3F).toNat, (compressed.drop (pos + 1)).take
        (h &&& 0x3F).toNat, ?_, by omega, hinside, by omega, ?_, ?_⟩
      · rw [stringAt, hpos]
        simp only [if_neg hcopy, if_neg hrun, if_pos htag, hsrc, hneed]
        rfl
      · intro k b hk
        rw [List.getElem?_take] at hk
        split at hk
        · rename_i hlt
          rw [List.getElem?_drop] at hk
          exact .literal pos k h hpos htag hlt hk
        · cases hk
      · rw [hscan, applyPiece, hlen, if_neg (by omega)]
        rfl

lemma stringAt_cases (reference : Bytes) (maxLen : ℕ) (out : Bytes) (hpos : pos < compressed.length) :
    (∃ e, Refuses compressed reference maxLen pos out e) ∨
      ∃ pos' part, Appends compressed reference maxLen pos out pos' part := by
  have hget := List.getElem?_eq_getElem hpos
  generalize compressed[pos] = h at hget
  by_cases hcopy : h &&& 0xC0 = 0xC0
  · exact copy_cases out hget hcopy
  by_cases hrun : h &&& 0xC0 = 0x80
  · exact run_cases out hget hrun
  by_cases hliteral : h &&& 0xC0 = 0
  · exact literal_cases out hget hliteral
  refine .inl ⟨.invalidHeader h, ?_, ?_⟩
  · simp only [stringAt, hget, if_neg hcopy, if_neg hrun, if_neg hliteral]
  · refine scanAll_error (by simp [drop_header hget]) ?_ out
    rw [drop_header hget]
    simp only [readPiece, if_neg hcopy, if_neg hrun, if_neg hliteral]

end Strings

/-- The loop ends at every input: it decodes what the strings stand for, each byte of it with an origin,
or it refuses with the error of the first bad string. -/
def Ends (compressed reference : Bytes) (maxLen : ℕ) (decoded : Except DecompressError Bytes)
    (res : Bytes × Except Stop Unit) : Prop :=
  (∃ out, res = (out, .ok ()) ∧ decoded = .ok out ∧ out.length ≤ maxLen ∧
      ∀ i b, out[i]? = some b → Origin compressed reference i b) ∨
    ∃ out e, res = (out, .error (.refused e)) ∧ decoded = .error e

lemma decompressLoop_ends (fuel pos : ℕ) (out : Bytes) (hfuel : compressed.length - pos ≤ fuel)
    (hlen : out.length ≤ maxLen) (horigin : ∀ i b, out[i]? = some b → Origin compressed reference i b) :
    Ends compressed reference maxLen
    (scanAll readPiece (applyPiece reference maxLen) (compressed.drop pos) out)
      (decompressLoop compressed reference maxLen fuel pos out) := by
  induction fuel generalizing pos out with
  | zero =>
    rw [decompressLoop, if_neg (by omega), List.drop_eq_nil_of_le (by omega)]
    exact .inl ⟨out, rfl, rfl, hlen, horigin⟩
  | succ fuel ih =>
    rw [decompressLoop]
    by_cases hpos : pos < compressed.length
    · rw [if_pos hpos]
      obtain ⟨e, hstring, hscan⟩ | ⟨pos', part, h⟩ := stringAt_cases reference maxLen out hpos
      · rw [hstring, hscan]
        exact .inr ⟨out, e, rfl, rfl⟩
      · rw [h.string, h.scans]
        have hlater := h.later
        refine ih pos' (out ++ part) (by omega) (by rw [List.length_append]; exact h.fits) ?_
        intro i b hi
        by_cases hlt : i < out.length
        · rw [List.getElem?_append_left hlt] at hi
          exact horigin i b hi
        · rw [List.getElem?_append_right (by omega)] at hi
          have := h.origin _ _ hi
          rwa [Nat.add_sub_cancel' (by omega)] at this
    · rw [if_neg hpos, List.drop_eq_nil_of_le (by omega)]
      exact .inl ⟨out, rfl, rfl, hlen, horigin⟩

lemma decompressInto_ends (compressed reference : Bytes) (maxLen : ℕ) (out : Bytes) :
    Ends compressed reference maxLen (decompress compressed reference maxLen)
      (decompressInto compressed reference maxLen out) := by
  refine decompressLoop_ends compressed.length 0 [] (by omega) (by simp) ?_
  intro i b h
  simp at h

lemma decompressInto_ok {out : Bytes} (scratch : Bytes)
    (h : decompress compressed reference maxLen = .ok out) :
    decompressInto compressed reference maxLen scratch = (out, .ok ()) := by
  obtain ⟨out', hinto, hdec, -⟩ | ⟨out', e, -, hdec⟩ :=
    decompressInto_ends compressed reference maxLen scratch
  · rw [h] at hdec
    obtain rfl := Except.ok.inj hdec
    exact hinto
  · rw [h] at hdec
    cases hdec

end Loop

end Compress

open Compress

structure Decompressor.Full extends Decompressor where
  scratch : Bytes

namespace Decompressor.Full

def new (maxArticle : ℕ) : Full := { Decompressor.new maxArticle with scratch := [] }

def decompress (d : Full) (compressed : Bytes) : Except Stop Bytes × Full :=
  match decompressInto compressed d.reference d.maxArticle d.scratch with
  | (out, .error e) => (.error e, { d with scratch := out })
  | (out, .ok ()) => (.ok out, { d with scratch := out, reference := update d.reference out })

def decompressAll : Full → List Bytes → List (Except Stop Bytes) × Full
  | d, [] => ([], d)
  | d, c :: cs =>
    let (r, d) := d.decompress c
    let (rs, d) := decompressAll d cs
    (r :: rs, d)

variable {d : Full} {c : Bytes}

lemma decompress_cases (d : Full) (c : Bytes) :
    (∃ out d', d.toDecompressor.decompress c = .ok (out, d') ∧
        d.decompress c = (.ok out, { d' with scratch := out })) ∨
      ∃ out e, d.toDecompressor.decompress c = .error e ∧
        d.decompress c = (.error (.refused e), { d with scratch := out }) := by
  obtain ⟨out, hinto, hdec, -⟩ | ⟨out, e, hinto, hdec⟩ :=
    decompressInto_ends c d.reference d.maxArticle d.scratch
  · refine .inl ⟨out, { d.toDecompressor with reference := update d.reference out }, ?_, ?_⟩
    · simp only [Decompressor.decompress, hdec]
    · simp only [decompress, hinto]
  · refine .inr ⟨out, e, ?_, ?_⟩
    · simp only [Decompressor.decompress, hdec]
    · simp only [decompress, hinto]

lemma decompressAll_congr {d₁ d₂ : Full} (h : d₁.toDecompressor = d₂.toDecompressor) (cs : List Bytes) :
    (d₁.decompressAll cs).1 = (d₂.decompressAll cs).1 := by
  induction cs generalizing d₁ d₂ with
  | nil => rfl
  | cons c cs ih =>
    obtain ⟨out, d', hdec, heq⟩ | ⟨out, e, hdec, heq⟩ := decompress_cases d₁ c
    · obtain ⟨out', d'', hdec', heq'⟩ | ⟨_, _, hdec', _⟩ := decompress_cases d₂ c
      · rw [h, hdec'] at hdec
        obtain ⟨rfl, rfl⟩ := Prod.mk.inj (Except.ok.inj hdec)
        simp only [decompressAll, heq, heq']
      · rw [h, hdec'] at hdec
        cases hdec
    · obtain ⟨_, _, hdec', _⟩ | ⟨out', e', hdec', heq'⟩ := decompress_cases d₂ c
      · rw [h, hdec'] at hdec
        cases hdec
      · rw [h, hdec'] at hdec
        obtain rfl := Except.error.inj hdec
        simp only [decompressAll, heq, heq']
        exact congrArg (List.cons _) (ih h)

lemma reference_of_error {e : Stop} (h : (d.decompress c).1 = .error e) :
    (d.decompress c).2.toDecompressor = d.toDecompressor := by
  obtain ⟨out, d', -, heq⟩ | ⟨out, e', -, heq⟩ := decompress_cases d c
  · rw [heq] at h
    cases h
  · rw [heq]

end Decompressor.Full

/-- Decompression of any bytes ends within the data and the reference, and a decompressor that refuses an
article decodes the later ones as if it had not come. -/
theorem decompress_contained :
    (∀ (compressed reference scratch : Bytes) (maxLen : ℕ), ∃ out res,
      decompressInto compressed reference maxLen scratch = (out, res) ∧
        (res = .ok () ∨ ∃ e, res = .error (.refused e)) ∧
        (res = .ok () → out.length ≤ maxLen ∧ ∀ i b, out[i]? = some b →
          Origin compressed reference i b)) ∧
      ∀ (d : Decompressor.Full) (compressed : Bytes) (e : Stop), (d.decompress compressed).1 = .error e →
        (d.decompress compressed).2.reference = d.reference ∧
          ∀ later, ((d.decompress compressed).2.decompressAll later).1 = (d.decompressAll later).1 := by
  refine ⟨?_, ?_⟩
  · intro compressed reference scratch maxLen
    obtain ⟨out, hinto, -, hlen, horigin⟩ | ⟨out, e, hinto, -⟩ :=
      decompressInto_ends compressed reference maxLen scratch
    · exact ⟨out, _, hinto, .inl rfl, fun _ => ⟨hlen, horigin⟩⟩
    · exact ⟨out, _, hinto, .inr ⟨e, rfl⟩, fun h => by cases h⟩
  · intro d compressed e h
    have hkept := Decompressor.Full.reference_of_error h
    exact ⟨by rw [hkept], fun later => Decompressor.Full.decompressAll_congr hkept later⟩

end PesitWizard.Core
