import PesitWizard.Core.Decompress

/-! A compressor and a decompressor that run in step: the buffers of the two ends are the same after each
article, whatever synchronisation points stand between the articles. -/

namespace PesitWizard.Core

namespace Compress

section Buffers

lemma received_self (mode : Mode) (a ss : Bytes) (h : a.length ≤ ss.length) :
    received mode a ss ss = a := by
  simp only [received]
  split
  · exact (seen_eq_iff a ss ss h h).mpr (fun i _ heq => heq)
  · rfl

lemma decompress_compress_self (mode : Mode) {article reference : Bytes} {maxLen : ℕ}
    (href : article.length ≤ reference.length) (hmax : article.length ≤ maxLen) :
    decompress (compress mode article reference) reference maxLen = .ok article := by
  rw [decompress_compress mode href href hmax, received_self mode article reference href]

theorem decompressInto_compress (mode : Mode) (article reference scratch : Bytes) (maxLen : ℕ)
    (href : article.length ≤ reference.length) (hmax : article.length ≤ maxLen) :
    decompressInto (compress mode article reference) reference maxLen scratch = (article, .ok ()) :=
  decompressInto_ok scratch (decompress_compress_self mode href hmax)

theorem decompressInto_compress_mixed :
    decompressInto (compress .mixed [7, 7, 7, 1, 2] [0, 0, 0, 1, 2, 9]) [0, 0, 0, 1, 2, 9] 5 [4] =
      ([7, 7, 7, 1, 2], .ok ()) ∧
      compress .mixed [7, 7, 7, 1, 2] [0, 0, 0, 1, 2, 9] = [0x83, 7, 0xC2] :=
  ⟨decompressInto_compress .mixed [7, 7, 7, 1, 2] [0, 0, 0, 1, 2, 9] [4] 5 (by decide)
    (by decide), by decide⟩

lemma update_length (ss a : Bytes) (h : a.length ≤ ss.length) : (update ss a).length = ss.length := by
  simp only [update, List.length_append, List.length_drop]
  omega

lemma update_update (ss a : Bytes) : update (update ss a) a = update ss a := by
  simp [update]

end Buffers

end Compress

open Compress

namespace Compressor

lemma grown_eq (c : Compressor) {a : Bytes} (h : a.length ≤ c.reference.length) :
    c.grown a = c.reference := by
  simp only [grown, Nat.sub_eq_zero_of_le h, List.replicate_zero, List.append_nil]

lemma le_grown (c : Compressor) (a : Bytes) : a.length ≤ (c.grown a).length := by
  simp only [grown, List.length_append, List.length_replicate]
  omega

def InStep (capacity : ℕ) (c : Compressor) (d : Decompressor) : Prop :=
  d.reference = c.reference ∧ d.reference.length = capacity ∧ d.maxArticle = capacity

variable {capacity : ℕ} {c : Compressor} {d : Decompressor} {a : Bytes}

lemma inStep_new (compression : Compression) (m : ℕ) :
    InStep (max m 1) (new compression m) (Decompressor.new m) := by
  refine ⟨rfl, ?_, rfl⟩
  simp [Decompressor.new]

lemma InStep.syncPoint (h : InStep capacity c d) : InStep capacity c.syncPoint d := h

lemma InStep.le (h : InStep capacity c d) (ha : a.length ≤ capacity) :
    a.length ≤ c.reference.length := by
  rw [← h.1, h.2.1]
  exact ha

lemma InStep.compress (h : InStep capacity c d) (ha : a.length ≤ capacity) :
    ∃ d', d.decompress (c.compress a).1 = .ok (a, d') ∧ InStep capacity (c.compress a).2 d' := by
  have hle := h.le ha
  obtain ⟨href, hlen, hmax⟩ := h
  refine ⟨{ d with reference := update d.reference a }, ?_, ?_, ?_, hmax⟩
  · have hself :
        Compress.decompress (Compress.compress c.mode a c.reference) c.reference d.maxArticle = .ok a :=
      decompress_compress_self c.mode hle (hmax ▸ ha)
    simp only [Decompressor.decompress, Compressor.compress, grown_eq c hle, href, hself]
  · simp only [Compressor.compress, grown_eq c hle, href]
  · simp only [update_length _ _ (hlen ▸ ha), hlen]

lemma InStep.recompress (h : InStep capacity c d) (ha : a.length ≤ capacity) :
    ∃ d', d.decompress ((c.compress a).2.syncPoint.compress a).1 = .ok (a, d') ∧
      InStep capacity ((c.compress a).2.syncPoint.compress a).2 d' := by
  have hle := h.le ha
  obtain ⟨href, hlen, hmax⟩ := h
  have hfirst : (c.compress a).2.syncPoint.reference = update c.reference a := by
    simp only [Compressor.compress, Compressor.syncPoint, grown_eq c hle]
  have hle' : a.length ≤ (update c.reference a).length := by
    rw [update_length _ _ hle]
    exact hle
  have hgrown : (c.compress a).2.syncPoint.grown a = update c.reference a := by
    rw [← hfirst]
    refine grown_eq _ ?_
    rw [hfirst]
    exact hle'
  have hmode : (c.compress a).2.syncPoint.mode = .literal := rfl
  refine ⟨{ d with reference := update d.reference a }, ?_, ?_, ?_, hmax⟩
  · have hdec : Compress.decompress (Compress.compress .literal a (update c.reference a))
        d.reference d.maxArticle = .ok a := decompress_compress .literal hle' (hlen ▸ ha) (hmax ▸ ha)
    rw [Decompressor.decompress, Compressor.compress, hgrown, hmode, hdec]
  · rw [Compressor.compress, hgrown, update_update, href]
  · simp only [update_length _ _ (hlen ▸ ha), hlen]

end Compressor

/-- What the sender does in turn: a synchronisation point, an article, or an article whose first form is
thrown away because a synchronisation point goes before it. -/
inductive Turn
  | sync
  | send (article : Bytes)
  | resend (article : Bytes)
  deriving DecidableEq

namespace Turn

def article : Turn → Option Bytes
  | sync => none
  | send a => some a
  | resend a => some a

def perform (c : Compressor) : Turn → Option Bytes × Compressor
  | sync => (none, c.syncPoint)
  | send a =>
    let (wire, c) := c.compress a
    (some wire, c)
  | resend a =>
    let (_, c) := c.compress a
    let (wire, c) := c.syncPoint.compress a
    (some wire, c)

def exchange :
    Compressor → Decompressor.Full → List Turn →
    List (Except Stop Bytes) × Compressor × Decompressor.Full
  | c, d, [] => ([], c, d)
  | c, d, t :: ts =>
    match t.perform c with
    | (none, c) => exchange c d ts
    | (some wire, c) =>
      let (r, d) := d.decompress wire
      let (rs, c, d) := exchange c d ts
      (r :: rs, c, d)

variable {capacity : ℕ} {c : Compressor} {d : Decompressor.Full}

lemma decompress_of_ok {wire a : Bytes} {d' : Decompressor}
    (h : d.toDecompressor.decompress wire = .ok (a, d')) :
    d.decompress wire = (.ok a, { d' with scratch := a }) := by
  obtain ⟨out, d'', hdec, heq⟩ | ⟨_, _, hdec, _⟩ := d.decompress_cases wire
  · rw [h] at hdec
    obtain ⟨rfl, rfl⟩ := Prod.mk.inj (Except.ok.inj hdec)
    exact heq
  · rw [h] at hdec
    cases hdec

lemma perform_inStep (h : c.InStep capacity d.toDecompressor) (t : Turn)
    (ht : ∀ a ∈ t.article, a.length ≤ capacity) :
    (∃ c', t.perform c = (none, c') ∧ t.article = none ∧ c'.InStep capacity d.toDecompressor) ∨
      ∃ a wire c' d', t.perform c = (some wire, c') ∧ t.article = some a ∧
      d.decompress wire = (.ok a, d') ∧
        c'.InStep capacity d'.toDecompressor := by
  cases t with
  | sync => exact .inl ⟨c.syncPoint, rfl, rfl, h.syncPoint⟩
  | send a =>
    obtain ⟨d', hdec, hstep⟩ := h.compress (ht a rfl)
    exact .inr ⟨a, _, _, _, rfl, rfl, decompress_of_ok hdec, hstep⟩
  | resend a =>
    obtain ⟨d', hdec, hstep⟩ := h.recompress (ht a rfl)
    exact .inr ⟨a, _, _, _, rfl, rfl, decompress_of_ok hdec, hstep⟩

lemma exchange_inStep (h : c.InStep capacity d.toDecompressor) (ts : List Turn)
    (hts : ∀ a ∈ ts.filterMap article, a.length ≤ capacity) :
    (exchange c d ts).1 = (ts.filterMap article).map .ok ∧
      (exchange c d ts).2.1.InStep capacity (exchange c d ts).2.2.toDecompressor := by
  induction ts generalizing c d with
  | nil => exact ⟨rfl, h⟩
  | cons t ts ih =>
    have ht : ∀ a ∈ t.article, a.length ≤ capacity := by
      intro a ha
      exact hts a (List.mem_filterMap.mpr ⟨t, List.mem_cons_self, ha⟩)
    have hrest : ∀ a ∈ ts.filterMap article, a.length ≤ capacity := by
      intro a ha
      obtain ⟨t', hmem, heq⟩ := List.mem_filterMap.mp ha
      exact hts a (List.mem_filterMap.mpr ⟨t', List.mem_cons_of_mem _ hmem, heq⟩)
    obtain ⟨c', hperform, harticle, hstep⟩ | ⟨a, wire, c', d', hperform, harticle, hdec, hstep⟩ :=
      perform_inStep h t ht
    · obtain ⟨hrs, hend⟩ := ih hstep hrest
      simp only [exchange, hperform, List.filterMap_cons, harticle]
      exact ⟨hrs, hend⟩
    · obtain ⟨hrs, hend⟩ := ih hstep hrest
      simp only [exchange, hperform, hdec, List.filterMap_cons, harticle, List.map_cons, hrs]
      exact ⟨trivial, hend⟩

/-- The turns up to any of them are turns too, so that the references agree after each article. -/
theorem exchange_lockstep (compression : Compression) (m : ℕ) (ts : List Turn)
    (hts : ∀ a ∈ ts.filterMap article, a.length ≤ max m 1) :
    (exchange (.new compression m) (.new m) ts).1 = (ts.filterMap article).map .ok ∧
      ∀ k, (exchange (.new compression m) (.new m) (ts.take k)).2.1.reference =
        (exchange (.new compression m) (.new m) (ts.take k)).2.2.reference := by
  have hnew : (Compressor.new compression m).InStep (max m 1) (Decompressor.Full.new m).toDecompressor :=
    Compressor.inStep_new compression m
  refine ⟨(exchange_inStep hnew ts hts).1, ?_⟩
  intro k
  have htake : ∀ a ∈ (ts.take k).filterMap article, a.length ≤ max m 1 := by
    intro a ha
    exact hts a (((List.take_sublist k ts).filterMap article).subset ha)
  exact (exchange_inStep hnew (ts.take k) htake).2.1.symm

theorem exchange_lockstep_vertical :
    (exchange (.new .vertical 3) (.new 3)
      [.send [1, 2, 3], .send [1], .resend [1, 2], .sync, .send []]).1 =
      [.ok [1, 2, 3], .ok [1], .ok [1, 2], .ok []] :=
  (exchange_lockstep .vertical 3 [.send [1, 2, 3], .send [1], .resend [1, 2], .sync,
    .send []] (by decide)).1

end Turn

end PesitWizard.Core
