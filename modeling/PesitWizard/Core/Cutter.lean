import PesitWizard.Core.Params
import PesitWizard.Library.Incremental

/-! Cutting of a byte stream into the articles of a record format. The articles do not depend on the
pieces in which the stream comes. -/

namespace PesitWizard.Core

open Library.Incremental

inductive RecordFormat
  | bu | bf | bv | tv | tf
  deriving DecidableEq

def RecordFormat.isText : RecordFormat → Bool
  | tv | tf => true
  | bu | bf | bv => false

inductive RecordError
  | unfilledRecord (len recordLen : ℕ)
  | lineTooLong (len recordLen : ℕ)
  deriving DecidableEq

abbrev lf : UInt8 := 10
abbrev cr : UInt8 := 13
abbrev space : UInt8 := 32

def stripCr (line : Bytes) : Bytes := if line.getLast? = some cr then line.dropLast else line

structure ArticleCutter where
  format : RecordFormat
  recordLen : ℕ
  buf : Bytes
  pos : ℕ
  positive : 0 < recordLen
  inside : pos ≤ buf.length

namespace ArticleCutter

def new (format : RecordFormat) (recordLen : ℕ) : ArticleCutter :=
  ⟨format, max recordLen 1, [], 0, by omega, Nat.zero_le _⟩

def avail (c : ArticleCutter) : Bytes := c.buf.drop c.pos

def advance (c : ArticleCutter) (n : ℕ) (h : n ≤ c.avail.length) : ArticleCutter :=
  { c with pos := c.pos + n, inside := by have := c.inside; rw [avail, List.length_drop] at h; omega }

def push (c : ArticleCutter) (data : Bytes) : ArticleCutter :=
  if 0 < c.pos ∧ c.buf.length / 2 ≤ c.pos then
    { c with buf := c.buf.drop c.pos ++ data, pos := 0, inside := Nat.zero_le _ }
  else { c with buf := c.buf ++ data, inside := by have := c.inside; rw [List.length_append]; omega }

def textArticle (format : RecordFormat) (recordLen : ℕ) (line : Bytes) : Except RecordError Bytes :=
  if recordLen < line.length then .error (.lineTooLong line.length recordLen)
  else
    let a := if format = .tf then line ++ List.replicate (recordLen - line.length) space else line
    -- an empty record is replaced by a space
    .ok (if a.isEmpty then [space] else a)

lemma findIdx_lt {xs : Bytes} {i : ℕ} (h : xs.findIdx? (· == lf) = some i) : i < xs.length :=
  (List.findIdx?_eq_some_iff_getElem.mp h).1

def nextRecord (c : ArticleCutter) : Except RecordError (Option Bytes) × ArticleCutter :=
  if h : c.recordLen ≤ c.avail.length then
    (.ok (some (c.avail.take c.recordLen)), c.advance c.recordLen h)
  else (.ok none, c)

-- a line that is too long stays where it is
def nextLine (c : ArticleCutter) : Except RecordError (Option Bytes) × ArticleCutter :=
  match h : c.avail.findIdx? (· == lf) with
  | some nl =>
    match textArticle c.format c.recordLen (stripCr (c.avail.take nl)) with
    | .error e => (.error e, c)
    | .ok article => (.ok (some article), c.advance (nl + 1) (findIdx_lt h))
  | none => (.ok none, c)

def nextArticle (c : ArticleCutter) : Except RecordError (Option Bytes) × ArticleCutter :=
  match c.format with
  | .bu | .bf | .bv => c.nextRecord
  | .tv | .tf => c.nextLine

def buffered (c : ArticleCutter) : ℕ := c.buf.length - c.pos

def lastArticle (format : RecordFormat) (recordLen : ℕ) (rest : Bytes) :
    Except RecordError (Option Bytes) :=
  if rest.isEmpty then .ok none
  else
    match format with
    | .bu | .bv => .ok (some rest)
    | .bf => .error (.unfilledRecord rest.length recordLen)
    | .tv | .tf => (textArticle format recordLen (stripCr rest)).map some

def finish (c : ArticleCutter) : Except RecordError (Option Bytes) × ArticleCutter :=
  (lastArticle c.format c.recordLen c.avail, c.advance c.avail.length le_rfl)

section Reader

def read (format : RecordFormat) (recordLen : ℕ) : Reader UInt8 Bytes RecordError := fun xs =>
  match format with
  | .bu | .bf | .bv =>
    if recordLen ≤ xs.length then .ok (some (xs.take recordLen, xs.drop recordLen)) else .ok none
  | .tv | .tf =>
    match xs.findIdx? (· == lf) with
    | some nl =>
      (textArticle format recordLen (stripCr (xs.take nl))).map fun a => some (a, xs.drop (nl + 1))
    | none => .ok none

variable {format : RecordFormat} {recordLen : ℕ}

/-- The bytes of the stream that an article stands for. -/
def Record (format : RecordFormat) (recordLen : ℕ) (raw article : Bytes) : Prop :=
  match format with
  | .bu | .bf | .bv => raw.length = recordLen ∧ article = raw
  | .tv | .tf =>
    ∃ line, lf ∉ line ∧ raw = line ++ [lf] ∧ textArticle format recordLen (stripCr line) = .ok article

structure Cuts (format : RecordFormat) (recordLen : ℕ) (xs : Bytes) (n : ℕ)
    (article : Bytes) : Prop where
  positive : 0 < n
  inside : n ≤ xs.length
  record : Record format recordLen (xs.take n) article
  reads : ∀ ys, read format recordLen (xs ++ ys) = .ok (some (article, xs.drop n ++ ys))

structure Fails (format : RecordFormat) (recordLen : ℕ) (xs : Bytes) (e : RecordError) : Prop where
  reads : ∀ ys, read format recordLen (xs ++ ys) = .error e
  last : ∃ e', lastArticle format recordLen xs = .error e'

lemma Cuts.read_eq {xs a : Bytes} {n : ℕ} (h : Cuts format recordLen xs n a) :
    read format recordLen xs = .ok (some (a, xs.drop n)) := by
  have := h.reads []
  rwa [List.append_nil, List.append_nil] at this

lemma Fails.read_eq {xs : Bytes} {e : RecordError} (h : Fails format recordLen xs e) :
    read format recordLen xs = .error e := by
  have := h.reads []
  rwa [List.append_nil] at this

lemma read_binary (h : format.isText = false) (xs : Bytes) : read format recordLen xs =
    if recordLen ≤ xs.length then .ok (some (xs.take recordLen, xs.drop recordLen)) else .ok none := by
  cases format with
  | tv | tf => cases h
  | _ => rfl

lemma read_text (h : format.isText = true) {xs : Bytes} {nl : ℕ}
    (hnl : xs.findIdx? (· == lf) = some nl) :
    read format recordLen xs =
      (textArticle format recordLen (stripCr (xs.take nl))).map fun a => some (a, xs.drop (nl + 1)) := by
  cases format with
  | tv | tf => simp only [read, hnl]
  | _ => cases h

lemma read_text_none (h : format.isText = true) {xs : Bytes} (hnl : xs.findIdx? (· == lf) = none) :
    read format recordLen xs = .ok none := by
  cases format with
  | tv | tf => simp only [read, hnl]
  | _ => cases h

lemma cuts_binary (htext : format.isText = false) (hpos : 0 < recordLen) {xs : Bytes}
    (hle : recordLen ≤ xs.length) :
    Cuts format recordLen xs recordLen (xs.take recordLen) := by
  refine ⟨hpos, hle, ?_, ?_⟩
  · have hlen : (xs.take recordLen).length = recordLen := List.length_take_of_le hle
    cases format with
    | tv | tf => cases htext
    | _ => exact ⟨hlen, rfl⟩
  · intro ys
    rw [read_binary htext, if_pos (by rw [List.length_append]; omega), List.take_append_of_le_length hle,
      List.drop_append_of_le_length hle]

lemma stripCr_length (line : Bytes) :
    line.length - 1 ≤ (stripCr line).length ∧ (stripCr line).length ≤ line.length := by
  rw [stripCr]
  split
  · rw [List.length_dropLast]
    omega
  · omega

lemma textArticle_cases (format : RecordFormat) (recordLen : ℕ) (line : Bytes) :
    (recordLen < line.length ∧
      textArticle format recordLen line = .error (.lineTooLong line.length recordLen)) ∨
      ∃ a, textArticle format recordLen line = .ok a := by
  rw [textArticle]
  split
  · rename_i hlong
    exact .inl ⟨hlong, rfl⟩
  · exact .inr ⟨_, rfl⟩

lemma text_cases (recordLen : ℕ) (htext : format.isText = true) {xs : Bytes} {nl : ℕ}
    (hnl : xs.findIdx? (· == lf) = some nl) :
    (∃ a, textArticle format recordLen (stripCr (xs.take nl)) = .ok a ∧
      Cuts format recordLen xs (nl + 1) a) ∨
      ∃ e, textArticle format recordLen (stripCr (xs.take nl)) = .error e ∧
      Fails format recordLen xs e := by
  obtain ⟨hlt, hget, hbefore⟩ := List.findIdx?_eq_some_iff_getElem.mp hnl
  have happend : ∀ ys, (xs ++ ys).findIdx? (· == lf) = some nl := by
    intro ys
    rw [List.findIdx?_append, hnl]
    rfl
  have hreads : ∀ ys, read format recordLen (xs ++ ys) =
      (textArticle format recordLen (stripCr (xs.take nl))).map fun a =>
      some (a, xs.drop (nl + 1) ++ ys) := by
    intro ys
    rw [read_text htext (happend ys), List.take_append_of_le_length hlt.le,
      List.drop_append_of_le_length hlt]
  obtain ⟨hlong, herr⟩ | ⟨a, hok⟩ := textArticle_cases format recordLen (stripCr (xs.take nl))
  · refine .inr ⟨_, herr, ?_, ?_⟩
    · intro ys
      rw [hreads, herr]
      rfl
    · -- the line and its end are still there, so that all bytes together are too long as well
      have hrest : recordLen < (stripCr xs).length := by
        have h₁ := stripCr_length xs
        have h₂ := stripCr_length (xs.take nl)
        rw [List.length_take] at h₂
        omega
      have hne : xs.isEmpty = false := by
        rw [List.isEmpty_eq_false_iff]
        rintro rfl
        simp at hlt
      obtain ⟨-, hlast⟩ | ⟨a, hok⟩ := textArticle_cases format recordLen (stripCr xs)
      · refine ⟨.lineTooLong (stripCr xs).length recordLen, ?_⟩
        cases format with
        | tv | tf =>
          simp only [lastArticle, hne, Bool.false_eq_true, if_false, hlast]
          rfl
        | _ => cases htext
      · rw [textArticle, if_pos hrest] at hok
        cases hok
  · refine .inl ⟨a, hok, Nat.succ_pos _, hlt, ?_, ?_⟩
    · have hraw : xs.take (nl + 1) = xs.take nl ++ [lf] := by
        rw [List.take_succ_eq_append_getElem hlt, eq_of_beq hget]
      have hline : lf ∉ xs.take nl := by
        intro hmem
        obtain ⟨i, hi, heq⟩ := List.mem_take_iff_getElem.mp hmem
        exact hbefore i (by omega) (by simp [heq])
      cases format with
      | tv | tf => exact ⟨_, hline, hraw, hok⟩
      | _ => cases htext
    · intro ys
      rw [hreads, hok]
      rfl

lemma read_cases (format : RecordFormat) (hpos : 0 < recordLen) (xs : Bytes) :
    read format recordLen xs = .ok none ∨ (∃ n a, Cuts format recordLen xs n a) ∨ ∃ e,
    Fails format recordLen xs e := by
  cases htext : format.isText with
  | false =>
    by_cases hle : recordLen ≤ xs.length
    · exact .inr (.inl ⟨_, _, cuts_binary htext hpos hle⟩)
    · left
      rw [read_binary htext, if_neg hle]
  | true =>
    cases hnl : xs.findIdx? (· == lf) with
    | none => exact .inl (read_text_none htext hnl)
    | some nl =>
      obtain ⟨a, -, h⟩ | ⟨e, -, h⟩ := text_cases recordLen htext hnl
      · exact .inr (.inl ⟨_, a, h⟩)
      · exact .inr (.inr ⟨e, h⟩)

lemma read_ok {xs a rest : Bytes} (hpos : 0 < recordLen)
    (h : read format recordLen xs = .ok (some (a, rest))) :
    ∃ n, rest = xs.drop n ∧ Cuts format recordLen xs n a := by
  obtain hnone | ⟨n, b, hcuts⟩ | ⟨e, hfails⟩ := read_cases format hpos xs
  · rw [hnone] at h
    cases h
  · rw [hcuts.read_eq] at h
    cases h
    exact ⟨n, rfl, hcuts⟩
  · rw [hfails.read_eq] at h
    cases h

lemma read_error {xs : Bytes} {e : RecordError} (hpos : 0 < recordLen)
    (h : read format recordLen xs = .error e) :
    Fails format recordLen xs e := by
  obtain hnone | ⟨n, b, hcuts⟩ | ⟨e, hfails⟩ := read_cases format hpos xs
  · rw [hnone] at h
    cases h
  · rw [hcuts.read_eq] at h
    cases h
  · rw [hfails.read_eq] at h
    cases h
    exact hfails

lemma read_stable (format : RecordFormat) (hpos : 0 < recordLen) : Stable (read format recordLen) := by
  refine ⟨?_, ?_, ?_⟩
  · intro xs b rest h ys
    obtain ⟨n, rfl, hcuts⟩ := read_ok hpos h
    exact hcuts.reads ys
  · intro xs e h ys
    exact (read_error hpos h).reads ys
  · intro xs b rest h
    obtain ⟨n, rfl, hcuts⟩ := read_ok hpos h
    have := hcuts.positive
    have := hcuts.inside
    rw [List.length_drop]
    omega

end Reader

section Calls

def reader (c : ArticleCutter) : Reader UInt8 Bytes RecordError := read c.format c.recordLen

lemma nextArticle_eq (c : ArticleCutter) :
    c.nextArticle = if c.format.isText then c.nextLine else c.nextRecord := by
  rw [nextArticle]
  cases c.format <;> rfl

lemma nextArticle_cases (c : ArticleCutter) :
    (c.reader c.avail = .ok none ∧ c.nextArticle = (.ok none, c)) ∨
      (∃ n a h, Cuts c.format c.recordLen c.avail n a ∧ c.nextArticle = (.ok (some a), c.advance n h)) ∨
      ∃ e, Fails c.format c.recordLen c.avail e ∧ c.nextArticle = (.error e, c) := by
  rw [nextArticle_eq]
  cases htext : c.format.isText with
  | false =>
    simp only [Bool.false_eq_true, if_false, nextRecord]
    split
    · rename_i hle
      exact .inr (.inl ⟨_, _, hle, cuts_binary htext c.positive hle, rfl⟩)
    · rename_i hlt
      refine .inl ⟨?_, rfl⟩
      rw [reader, read_binary htext, if_neg hlt]
  | true =>
    simp only [if_true, nextLine]
    split
    · rename_i nl hnl
      obtain ⟨a, hok, h⟩ | ⟨e, herr, h⟩ := text_cases c.recordLen htext hnl
      · rw [hok]
        exact .inr (.inl ⟨_, a, findIdx_lt hnl, h, rfl⟩)
      · rw [herr]
        exact .inr (.inr ⟨e, h, rfl⟩)
    · rename_i hnl
      exact .inl ⟨read_text_none htext hnl, rfl⟩

inductive Call
  | push (data : Bytes)
  | next
  deriving DecidableEq

def Call.data : Call → Bytes
  | push data => data
  | next => []

def pushed (calls : List Call) : Bytes := calls.flatMap Call.data

def run : ArticleCutter → List Call → List (Except RecordError (Option Bytes)) × ArticleCutter
  | c, [] => ([], c)
  | c, .push data :: calls => run (c.push data) calls
  | c, .next :: calls =>
    let (x, c) := c.nextArticle
    let (xs, c) := run c calls
    (x :: xs, c)

def drain : ℕ → ArticleCutter → List (Except RecordError (Option Bytes)) × ArticleCutter
  | 0, c => ([], c)
  | fuel + 1, c =>
    match c.nextArticle with
    | (.ok (some a), c) =>
      let (xs, c) := drain fuel c
      (.ok (some a) :: xs, c)
    | (x, c) => ([x], c)

def articles (xs : List (Except RecordError (Option Bytes))) : List Bytes :=
  xs.filterMap fun x => match x with
    | .ok a => a
    | .error _ => none

def firstError (xs : List (Except RecordError (Option Bytes))) : Option RecordError :=
  xs.findSome? fun x => match x with
    | .ok _ => none
    | .error e => some e

def results (c : ArticleCutter) (calls : List Call) : List (Except RecordError (Option Bytes)) :=
  let (xs, c) := c.run calls
  let (ys, c) := drain (c.buffered + 1) c
  xs ++ ys ++ [c.finish.1]

lemma buffered_eq (c : ArticleCutter) : c.buffered = c.avail.length := by
  rw [buffered, avail, List.length_drop]

lemma avail_advance (c : ArticleCutter) (n : ℕ) (h : n ≤ c.avail.length) :
    (c.advance n h).avail = c.avail.drop n := by
  simp only [avail, advance, List.drop_drop]

lemma avail_push (c : ArticleCutter) (data : Bytes) : (c.push data).avail = c.avail ++ data := by
  rw [push]
  split
  · rfl
  · exact List.drop_append_of_le_length c.inside

@[simp] lemma push_format (c : ArticleCutter) (data : Bytes) : (c.push data).format = c.format := by
  rw [push]
  split <;> rfl

@[simp] lemma push_recordLen (c : ArticleCutter) (data : Bytes) :
    (c.push data).recordLen = c.recordLen := by
  rw [push]
  split <;> rfl

lemma articles_append (xs ys : List (Except RecordError (Option Bytes))) :
    articles (xs ++ ys) = articles xs ++ articles ys := List.filterMap_append

lemma firstError_append (xs ys : List (Except RecordError (Option Bytes))) :
    firstError (xs ++ ys) = (firstError xs).or (firstError ys) := List.findSome?_append

/-- After some calls the bytes of the stream are those of the articles and those that are there, and an
error that a call returned is the error of the bytes that are there. -/
structure Tracks (format : RecordFormat) (recordLen : ℕ) (stream : Bytes)
    (xs : List (Except RecordError (Option Bytes))) (c : ArticleCutter) : Prop where
  sameFormat : c.format = format
  sameLen : c.recordLen = recordLen
  reads : Reads (read format recordLen) stream (articles xs) c.avail
  failed : ∀ e, firstError xs = some e → Fails format recordLen c.avail e
  records : ∃ raws, List.Forall₂ (Record format recordLen) raws (articles xs) ∧
    raws.flatten ++ c.avail = stream

variable {format : RecordFormat} {recordLen : ℕ} {stream : Bytes}
    {xs : List (Except RecordError (Option Bytes))}
  {c : ArticleCutter}

lemma tracks_new (format : RecordFormat) (recordLen : ℕ) :
    Tracks format (max recordLen 1) [] [] (new format recordLen) := by
  refine ⟨rfl, rfl, Reads.refl [], ?_, [], .nil, rfl⟩
  intro e h
  cases h

lemma Tracks.stable (h : Tracks format recordLen stream xs c) : Stable (read format recordLen) :=
  read_stable format (h.sameLen ▸ c.positive)

lemma Tracks.push (h : Tracks format recordLen stream xs c) (data : Bytes) :
    Tracks format recordLen (stream ++ data) xs (c.push data) := by
  refine ⟨by rw [push_format, h.sameFormat], by rw [push_recordLen, h.sameLen], ?_, ?_, ?_⟩
  · rw [avail_push]
    exact h.reads.append data
  · intro e he
    rw [avail_push]
    exact read_error (h.sameLen ▸ c.positive) ((h.failed e he).reads data)
  · obtain ⟨raws, hraws, hstream⟩ := h.records
    refine ⟨raws, hraws, ?_⟩
    rw [avail_push, ← List.append_assoc, hstream]

lemma Tracks.next (h : Tracks format recordLen stream xs c) :
    Tracks format recordLen stream (xs ++ [c.nextArticle.1]) c.nextArticle.2 := by
  obtain ⟨hread, hnext⟩ | ⟨n, a, hle, hcuts, hnext⟩ | ⟨e, hfails, hnext⟩ := c.nextArticle_cases
  · rw [hnext]
    refine ⟨h.sameFormat, h.sameLen, ?_, ?_, ?_⟩
    · rw [articles_append]
      exact (List.append_nil (articles xs)).symm ▸ h.reads
    · intro e he
      rw [firstError_append] at he
      exact h.failed e (by simpa [firstError] using he)
    · rw [articles_append]
      exact (List.append_nil (articles xs)).symm ▸ h.records
  · rw [h.sameFormat, h.sameLen] at hcuts
    rw [hnext]
    refine ⟨h.sameFormat, h.sameLen, ?_, ?_, ?_⟩
    · rw [articles_append, avail_advance]
      exact h.reads.unit h.stable hcuts.read_eq
    · intro e he
      rw [firstError_append] at he
      have hfails := h.failed e (by simpa [firstError] using he)
      have := hcuts.read_eq
      rw [hfails.read_eq] at this
      cases this
    · obtain ⟨raws, hraws, hstream⟩ := h.records
      refine ⟨raws ++ [c.avail.take n], ?_, ?_⟩
      · rw [articles_append]
        exact List.rel_append hraws (.cons hcuts.record .nil)
      · rw [avail_advance, List.flatten_append, List.append_assoc, List.flatten_singleton,
          List.take_append_drop, hstream]
  · rw [h.sameFormat, h.sameLen] at hfails
    rw [hnext]
    refine ⟨h.sameFormat, h.sameLen, ?_, ?_, ?_⟩
    · rw [articles_append]
      exact (List.append_nil (articles xs)).symm ▸ h.reads
    · intro e' he
      rw [firstError_append] at he
      cases hfirst : firstError xs with
      | none =>
        rw [hfirst] at he
        obtain rfl : e = e' := by simpa [firstError] using he
        exact hfails
      | some e₀ =>
        rw [hfirst] at he
        obtain rfl : e₀ = e' := by simpa using he
        exact h.failed e₀ hfirst
    · rw [articles_append]
      exact (List.append_nil (articles xs)).symm ▸ h.records

lemma Tracks.run (h : Tracks format recordLen stream xs c) (calls : List Call) :
    Tracks format recordLen (stream ++ pushed calls) (xs ++ (c.run calls).1) (c.run calls).2 := by
  induction calls generalizing stream xs c with
  | nil => simpa [pushed, ArticleCutter.run] using h
  | cons call calls ih =>
    cases call with
    | push data =>
      have := ih (h.push data)
      rwa [List.append_assoc] at this
    | next =>
      have := ih h.next
      rwa [List.append_assoc] at this

def Drained (format : RecordFormat) (recordLen : ℕ) (xs : List (Except RecordError (Option Bytes)))
    (c : ArticleCutter) :
    Prop :=
  read format recordLen c.avail = .ok none ∨ ∃ e, firstError xs = some e

lemma Tracks.drain (fuel : ℕ) (h : Tracks format recordLen stream xs c) (hfuel : c.buffered < fuel) :
    Tracks format recordLen stream (xs ++ (ArticleCutter.drain fuel c).1)
    (ArticleCutter.drain fuel c).2 ∧
      Drained format recordLen (xs ++ (ArticleCutter.drain fuel c).1)
      (ArticleCutter.drain fuel c).2 := by
  induction fuel generalizing xs c with
  | zero => omega
  | succ fuel ih =>
    have hstep := h.next
    obtain ⟨hread, hnext⟩ | ⟨n, a, hle, hcuts, hnext⟩ | ⟨e, hfails, hnext⟩ := c.nextArticle_cases
    · rw [hnext] at hstep
      simp only [ArticleCutter.drain, hnext]
      refine ⟨hstep, .inl ?_⟩
      rwa [reader, h.sameFormat, h.sameLen] at hread
    · rw [hnext] at hstep
      have hlt : (c.advance n hle).buffered < fuel := by
        have := hcuts.positive
        rw [buffered_eq] at hfuel
        rw [buffered_eq, avail_advance, List.length_drop]
        omega
      have := ih hstep hlt
      simp only [ArticleCutter.drain, hnext]
      rwa [List.append_assoc] at this
    · rw [hnext] at hstep
      simp only [ArticleCutter.drain, hnext]
      refine ⟨hstep, .inr ?_⟩
      rw [firstError_append]
      cases firstError xs with
      | none => exact ⟨e, rfl⟩
      | some e' => exact ⟨e', rfl⟩

def ending (format : RecordFormat) (recordLen : ℕ) (bs : List Bytes) : Except RecordError Bytes →
    List Bytes × Option RecordError
  | .error e => (bs, some e)
  | .ok rest =>
    match lastArticle format recordLen rest with
    | .error e => (bs, some e)
    | .ok a => (bs ++ a.toList, none)

lemma results_ending (format : RecordFormat) (recordLen : ℕ) (calls : List Call) {bs : List Bytes}
    {r : Except RecordError Bytes} (hd : Drains (read format (max recordLen 1)) (pushed calls) bs r) :
    (articles ((new format recordLen).results calls),
      firstError ((new format recordLen).results calls)) = ending format (max recordLen 1) bs r := by
  have hrun := (tracks_new format recordLen).run calls
  simp only [List.nil_append] at hrun
  obtain ⟨htracks, hdrained⟩ := hrun.drain _ (Nat.lt_succ_self _)
  simp only [results]
  generalize ((new format recordLen).run calls).1 ++
    (ArticleCutter.drain _ ((new format recordLen).run calls).2).1 = zs at htracks hdrained ⊢
  generalize (ArticleCutter.drain _ ((new format recordLen).run calls).2).2 = c at htracks hdrained ⊢
  have hfinish : c.finish.1 = lastArticle format (max recordLen 1) c.avail := by
    rw [finish, htracks.sameFormat, htracks.sameLen]
  rw [articles_append, firstError_append, hfinish]
  cases hfirst : firstError zs with
  | some e =>
    have hfails := htracks.failed e hfirst
    obtain ⟨rfl, rfl⟩ := hd.det (htracks.reads.drains (.error hfails.read_eq))
    obtain ⟨e', hlast⟩ := hfails.last
    simp [ending, hlast, articles]
  | none =>
    have hread := hdrained.resolve_right (by simp [hfirst])
    obtain ⟨rfl, rfl⟩ := hd.det (htracks.reads.drains (.short hread))
    cases hlast : lastArticle format (max recordLen 1) c.avail with
    | error e => simp [ending, hlast, articles, firstError]
    | ok a => cases a <;> simp [ending, hlast, articles, firstError]

/-- The pieces in which a stream is pushed and the articles taken in between change neither the
articles nor the first error; and at any time the bytes of the articles taken and those that are
buffered are the bytes pushed. -/
theorem results_pushed (format : RecordFormat) (recordLen : ℕ) (calls : List Call) :
    (articles ((new format recordLen).results calls) =
      articles ((new format recordLen).results [.push (pushed calls)]) ∧
      firstError ((new format recordLen).results calls) =
        firstError ((new format recordLen).results [.push (pushed calls)])) ∧
      ∃ raws, List.Forall₂ (Record format (max recordLen 1)) raws
      (articles ((new format recordLen).run calls).1) ∧
        raws.flatten.length + ((new format recordLen).run calls).2.buffered = (pushed calls).length ∧
        raws.flatten.length + ((new format recordLen).run calls).2.avail.length +
          ((new format recordLen).run calls).2.finish.2.buffered = (pushed calls).length := by
  refine ⟨?_, ?_⟩
  · obtain ⟨bs, r, hd⟩ := Drains.exists
      (read_stable format (Nat.lt_of_lt_of_le Nat.one_pos (le_max_right recordLen 1))).consumes
      (pushed calls)
    have hwhole : pushed [Call.push (pushed calls)] = pushed calls := by simp [pushed, Call.data]
    have h₁ := results_ending format recordLen calls hd
    have h₂ := results_ending format recordLen [.push (pushed calls)] (by rwa [hwhole])
    rw [← h₂] at h₁
    exact Prod.mk.inj h₁
  · have hrun := (tracks_new format recordLen).run calls
    simp only [List.nil_append] at hrun
    obtain ⟨raws, hraws, hstream⟩ := hrun.records
    have hlen := congrArg List.length hstream
    rw [List.length_append] at hlen
    refine ⟨raws, hraws, ?_, ?_⟩
    · rw [buffered_eq, hlen]
    · rw [buffered_eq, finish, avail_advance, List.drop_length]
      exact hlen

end Calls

end ArticleCutter

end PesitWizard.Core
