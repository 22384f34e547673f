import PesitWizard.Io.FileSource

/-! How long the articles are that a file is sent in. -/

namespace PesitWizard.Core.ArticleCutter

variable {format : RecordFormat} {recordLen : ℕ}

lemma textArticle_length (hpos : 0 < recordLen) {line a : Bytes}
    (h : textArticle format recordLen line = .ok a) :
    a.length ≤ recordLen := by
  rw [textArticle] at h
  split at h
  · cases h
  · rename_i hfits
    generalize ha : (if format = .tf then line ++ List.replicate (recordLen - line.length) space else
      line) = padded at h
    have hlen : padded.length ≤ recordLen := by
      rw [← ha]
      split
      · rw [List.length_append, List.length_replicate]
        omega
      · omega
    obtain rfl := Except.ok.inj h
    by_cases hempty : padded.isEmpty = true
    · rw [if_pos hempty]
      exact hpos
    · rw [if_neg hempty]
      exact hlen

lemma record_length (hpos : 0 < recordLen) {raw a : Bytes} (h : Record format recordLen raw a) :
    a.length ≤ recordLen := by
  cases format with
  | tv | tf =>
    obtain ⟨line, -, -, harticle⟩ := h
    exact textArticle_length hpos harticle
  | _ =>
    obtain ⟨hlen, rfl⟩ := h
    exact hlen.le

lemma lastArticle_length (hpos : 0 < recordLen) {rest a : Bytes}
    (hread : read format recordLen rest = .ok none)
    (h : lastArticle format recordLen rest = .ok (some a)) : a.length ≤ recordLen := by
  unfold lastArticle at h
  split at h
  · cases h
  · cases format with
    | bf => cases h
    | bu | bv =>
      obtain rfl := Option.some.inj (Except.ok.inj h)
      rw [read] at hread
      split at hread
      · cases hread
      · omega
    | tv | tf =>
      cases htext : textArticle _ recordLen (stripCr rest) with
      | error e =>
        rw [htext] at h
        cases h
      | ok b =>
        rw [htext] at h
        obtain rfl := Option.some.inj (Except.ok.inj h)
        exact textArticle_length hpos htext

/-- A file that is one full record, without an end of line, is cut to one article. -/
lemma cut_full (format : RecordFormat) (hpos : 0 < recordLen) :
    cut format recordLen (List.replicate recordLen 97) =
    .ok (some (List.replicate recordLen 97, [])) := by
  have hne : List.replicate recordLen (97 : UInt8) ≠ [] := by simpa using hpos.ne'
  cases htext : format.isText with
  | false =>
    apply cut_unit
    rw [read_binary htext, List.length_replicate, if_pos le_rfl, List.take_of_length_le (by simp),
      List.drop_of_length_le (by simp)]
  | true =>
    have hnone : (List.replicate recordLen (97 : UInt8)).findIdx? (· == lf) = none := by
      rw [List.findIdx?_eq_none_iff]
      intro b hb
      rw [List.eq_of_mem_replicate hb]
      rfl
    have hstrip : stripCr (List.replicate recordLen 97) = List.replicate recordLen 97 := by
      rw [stripCr, if_neg]
      rw [List.getLast?_eq_some_getLast hne, List.getLast_replicate]
      decide
    have harticle :
        textArticle format recordLen (List.replicate recordLen 97) =
        .ok (List.replicate recordLen 97) := by
      rw [textArticle, if_neg (by simp)]
      simp [hpos.ne']
    rw [cut_short (read_text_none htext hnone)]
    unfold lastArticle
    rw [if_neg (by simpa using hpos.ne')]
    cases format with
    | tv | tf =>
      simp only [hstrip, harticle]
      rfl
    | _ => cases htext

end PesitWizard.Core.ArticleCutter

namespace PesitWizard.Io.FileSource

open PesitWizard.Core

/-- What a transfer asks of the file that it sends. -/
inductive Request
  | next
  | rewind (pos : Position)

def articles : FileSource → List Request → List Bytes
  | _, [] => []
  | s, .next :: requests =>
    match s.nextArticle with
    | (.ok (some a), s) => a :: articles s requests
    | (_, s) => articles s requests
  | s, .rewind pos :: requests => articles (s.rewind pos) requests

structure Sized (s : FileSource) (n : ℕ) : Prop where
  recordLen : s.recordLen = n
  cutter : s.cutter.recordLen = max n 1

variable {s : FileSource} {n : ℕ}

lemma sized_openFile (content : Bytes) (reads : ℕ → ℕ) (format : RecordFormat) (ebcdic : Bool) :
    (openFile content reads format n ebcdic).Sized n :=
  ⟨rfl, rfl⟩

lemma Sized.rewind (h : s.Sized n) (pos : Position) : (s.rewind pos).Sized n := by
  refine ⟨h.recordLen, ?_⟩
  rw [FileSource.rewind, ← h.recordLen]
  rfl

lemma Sized.fill (h : s.Sized n) : s.fill.Sized n := by
  rw [FileSource.fill]
  split
  · exact ⟨h.recordLen, h.cutter⟩
  · exact ⟨h.recordLen, (ArticleCutter.push_recordLen _ _).trans h.cutter⟩

lemma translated_length (s : FileSource) (a : Bytes) : (s.translated a).length = a.length := by
  rw [translated]
  split
  · exact List.length_map _
  · rfl

/-- What is given is not longer than a record, and neither is what will be given. -/
def Gives (n : ℕ) (y : Except RecordError (Option Bytes) × FileSource) : Prop :=
  y.2.Sized n ∧ ∀ a, y.1 = .ok (some a) → a.length ≤ max n 1

lemma Sized.give (h : s.Sized n) {cutter : ArticleCutter}
    (hc : cutter.recordLen = s.cutter.recordLen) (offset : ℕ) {a : Bytes} (ha : a.length ≤ max n 1) :
    Gives n (s.give cutter offset a) := by
  refine ⟨⟨h.recordLen, hc.trans h.cutter⟩, ?_⟩
  intro b hb
  obtain rfl := Option.some.inj (Except.ok.inj hb)
  exact (translated_length s a).trans_le ha

lemma Sized.lastArticle (h : s.Sized n) (hread : s.cutter.reader s.cutter.avail = .ok none) :
    Gives n s.lastArticle := by
  rw [FileSource.lastArticle, ArticleCutter.finish]
  cases hlast : ArticleCutter.lastArticle s.cutter.format s.cutter.recordLen s.cutter.avail with
  | error e => exact ⟨⟨h.recordLen, h.cutter⟩, by simp⟩
  | ok y =>
    cases y with
    | none => exact ⟨⟨h.recordLen, h.cutter⟩, by simp⟩
    | some a =>
      have hcutter : (s.cutter.advance s.cutter.avail.length le_rfl).recordLen = s.cutter.recordLen :=
        rfl
      apply h.give hcutter
      rw [← h.cutter]
      exact ArticleCutter.lastArticle_length s.cutter.positive hread hlast

lemma Sized.nextArticle (h : s.Sized n) : Gives n s.nextArticle := by
  induction hn : s.unread using Nat.strongRecOn generalizing s with
  | _ k ih =>
    rw [FileSource.nextArticle]
    obtain ⟨hread, hnext⟩ | ⟨i, a, hle, hcuts, hnext⟩ | ⟨e, -, hnext⟩ := s.cutter.nextArticle_cases
    · rw [hnext]
      change Gives n (if s.eof = true then s.lastArticle else s.fill.nextArticle)
      by_cases heof : s.eof = true
      · rw [if_pos heof]
        exact h.lastArticle hread
      · rw [if_neg heof]
        exact ih _ (hn ▸ unread_fill (by simpa using heof)) h.fill rfl
    · rw [hnext]
      have hcutter : (s.cutter.advance i hle).recordLen = s.cutter.recordLen := rfl
      apply h.give hcutter
      rw [← h.cutter]
      exact ArticleCutter.record_length s.cutter.positive hcuts.record
    · rw [hnext]
      exact ⟨⟨h.recordLen, h.cutter⟩, by simp⟩

lemma Sized.articles (h : s.Sized n) (requests : List Request) :
    ∀ a ∈ s.articles requests, a.length ≤ max n 1 := by
  induction requests generalizing s with
  | nil => nofun
  | cons request requests ih =>
    cases request with
    | rewind pos => exact ih (h.rewind pos)
    | next =>
      obtain ⟨hsized, hlen⟩ := h.nextArticle
      rw [FileSource.articles]
      split
      · rename_i a t hnext
        rw [hnext] at hsized hlen
        exact List.forall_mem_cons.mpr ⟨hlen a rfl, ih hsized⟩
      · rename_i t _ hnext
        rw [hnext] at hsized
        exact ih hsized

lemma articles_full (reads : ℕ → ℕ) (format : RecordFormat) (ebcdic : Bool) :
    ((openFile (List.replicate (max n 1) 97) reads format n ebcdic).articles [.next]).map
    List.length = [max n 1] := by
  generalize hs : openFile (List.replicate (max n 1) 97) reads format n ebcdic = s
  have hat : At s (List.replicate (max n 1) 97) :=
    hs ▸ at_openFile (List.replicate (max n 1) 97) reads format n ebcdic
  have hpos : 0 < max n 1 := Nat.lt_of_lt_of_le Nat.one_pos (le_max_right n 1)
  have hcut : ArticleCutter.cut s.format (max s.recordLen 1) (List.replicate (max n 1) 97) =
      .ok (some (List.replicate (max n 1) 97, [])) := by
    rw [← hs]
    exact ArticleCutter.cut_full format hpos
  have hnext :
      s.nextArticle = (.ok (some (s.translated (List.replicate (max n 1) 97))), s.nextArticle.2) :=
    Prod.ext (next_unit hat hcut).1 rfl
  rw [articles, hnext]
  change [(s.translated (List.replicate (max n 1) 97)).length] = [max n 1]
  rw [translated_length, List.length_replicate]

/-- A bound on all articles of all files is a bound on the length of a record. -/
lemma articles_le_iff (format : RecordFormat) (n : ℕ) (ebcdic : Bool) (bound : ℕ) :
    (∀ (content : Bytes) (reads : ℕ → ℕ) (requests : List Request),
        ∀ a ∈ (openFile content reads format n ebcdic).articles requests, a.length ≤ bound) ↔
        max n 1 ≤ bound := by
  constructor
  · intro h
    have hfull := articles_full (n := n) (fun _ => 0) format ebcdic
    have hmem : max n 1 ∈
        ((openFile (List.replicate (max n 1) 97) (fun _ => 0) format n ebcdic).articles [.next]).map
        List.length := by
      rw [hfull]
      exact List.mem_singleton_self _
    obtain ⟨a, ha, hlen⟩ := List.mem_map.mp hmem
    rw [← hlen]
    exact h _ _ _ a ha
  · intro h content reads requests a ha
    exact ((sized_openFile content reads format ebcdic).articles requests a ha).trans h

end PesitWizard.Io.FileSource
