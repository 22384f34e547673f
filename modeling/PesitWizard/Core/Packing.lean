import PesitWizard.Core.Article
import PesitWizard.Core.Frame

/-! Reassembling what the packer emits gives back the articles. -/

namespace PesitWizard.Core

open Library.BigEndian Library.Scan

section Chunks

variable {n : ℕ}

lemma chunks_flatten (hn : 0 < n) (fuel : ℕ) (xs : Bytes) (h : xs.length ≤ fuel) :
    (chunks n fuel xs).flatten = xs := by
  induction fuel generalizing xs with
  | zero =>
    obtain rfl : xs = [] := List.length_eq_zero_iff.mp (by omega)
    rfl
  | succ fuel ih =>
    cases xs with
    | nil => rfl
    | cons b bs =>
      simp only [chunks, List.flatten_cons]
      rw [ih _ (by simp only [List.length_drop, List.length_cons] at h ⊢; omega), List.take_append_drop]

lemma chunks_length_le (fuel : ℕ) (xs : Bytes) : ∀ c ∈ chunks n fuel xs, c.length ≤ n := by
  induction fuel generalizing xs with
  | zero => cases xs <;> simp [chunks]
  | succ fuel ih =>
    cases xs with
    | nil => simp [chunks]
    | cons b bs =>
      simp only [chunks, List.mem_cons]
      rintro c (rfl | hc)
      · rw [List.length_take]
        exact min_le_left _ _
      · exact ih _ c hc

lemma chunks_of_lt {xs : Bytes} (hn : 0 < n) (h : n < xs.length) :
    ∃ c cs, chunks n xs.length xs = c :: cs ∧ cs ≠ [] := by
  have hflat := chunks_flatten hn xs.length xs le_rfl
  have hle := chunks_length_le (n := n) xs.length xs
  cases hc : chunks n xs.length xs with
  | nil =>
    rw [hc] at hflat
    simp [← hflat] at h
  | cons c cs =>
    rw [hc] at hflat hle
    refine ⟨c, cs, rfl, ?_⟩
    rintro rfl
    have hlen := hle c (by simp)
    rw [← hflat] at h
    simp at h
    omega

end Chunks

def prefixed (w : Bytes) : Bytes := be16 w.length ++ w

lemma readArticle_prefixed {w : Bytes} (h : w.length < 65536) (rest : Bytes) :
    readArticle (prefixed w ++ rest) = .ok (w, rest) := by
  simp [prefixed, be16, readArticle, ofBe16_be16 h]

lemma readArticle_consumes : Consumes readArticle := by
  intro xs b rest h
  match xs with
  | [] | [_] => cases h
  | hi :: lo :: xs =>
    simp only [readArticle] at h
    split at h
    · cases h
    · obtain ⟨-, rfl⟩ := Prod.mk.inj (Except.ok.inj h)
      simp only [List.length_drop, List.length_cons]
      omega

lemma articles_prefixed {ws : List Bytes} (h : ∀ w ∈ ws, w.length < 65536) :
    scanAll readArticle (fun out a => .ok (out ++ [a])) (ws.flatMap prefixed) [] = .ok ws := by
  have hc : Chunks readArticle (ws.flatMap prefixed) ws :=
    chunks_flatMap prefixed (fun w _ => by simp [prefixed, be16])
      (fun w hw rest => readArticle_prefixed (h w hw) rest)
  rw [scanAll_of_chunks readArticle_consumes hc, Frame.foldlM_snoc, List.nil_append]

namespace Reassembler

variable {m : ℕ}

lemma feedAll_append (r : Reassembler) (fs gs : List Fpdu) :
    feedAll r (fs ++ gs) = (feedAll r fs).bind fun x =>
      (feedAll x.2 gs).bind fun y => .ok (x.1 ++ y.1, y.2) := by
  induction fs generalizing r with
  | nil =>
    simp only [List.nil_append, feedAll, Except.bind]
    cases feedAll r gs <;> rfl
  | cons f fs ih =>
    simp only [List.cons_append, feedAll]
    cases r.feed f with
    | error e => rfl
    | ok x =>
      simp only [ih]
      cases feedAll x.2 fs with
      | error e => rfl
      | ok y =>
        simp only [Except.bind]
        cases feedAll y.2 gs with
        | error e => rfl
        | ok z => simp

lemma feedAll_cons {r r' : Reassembler} {f : Fpdu} {out : List Bytes} (h : r.feed f = .ok (out, r'))
    (fs : List Fpdu) :
    r.feedAll (f :: fs) = (r'.feedAll fs).bind fun y => .ok (out ++ y.1, y.2) := by
  simp only [feedAll, h]
  cases r'.feedAll fs <;> rfl

lemma feed_unlimited {r r' : Reassembler} {f : Fpdu} {out : List Bytes} (h : r.feed f = .ok (out, r')) :
    (⟨r.part, 0⟩ : Reassembler).feed f = .ok (out, ⟨r'.part, 0⟩) := by
  obtain ⟨part, maxLen⟩ := r
  obtain ⟨kind, d, s, params, data⟩ := f
  cases part <;> cases kind <;> simp only [feed, check] at h ⊢ <;> grind

lemma feedAll_cons_error {r : Reassembler} {f : Fpdu} {e : ReassemblyError} (h : r.feed f = .error e)
    (fs : List Fpdu) :
    r.feedAll (f :: fs) = .error e := by
  simp only [feedAll, h]

/-- The limit that the reassembler puts on a segmented article. -/
def Within (m len : ℕ) : Prop := m = 0 ∨ len ≤ m

lemma check_ok {r : Reassembler} {len : ℕ} (h : Within r.maxLen len) : r.check len = .ok () := by
  rw [check, if_neg]
  rcases h with h | h <;> omega

lemma check_error {r : Reassembler} {len : ℕ} (h : ¬ Within r.maxLen len) :
    r.check len = .error (.tooLong r.maxLen) := by
  rw [check, if_pos]
  simp only [Within, not_or] at h
  omega

lemma within_mono {k l : ℕ} (h : Within m l) (hkl : k ≤ l) : Within m k := by
  rcases h with h | h
  · exact .inl h
  · exact .inr (hkl.trans h)

lemma feedAll_rest (d : UInt8) (p : Bytes) {cs : List Bytes} (hcs : cs ≠ []) :
    (Within m (p ++ cs.flatten).length → feedAll ⟨some p, m⟩ (ArticlePacker.segments d false cs) =
      .ok ([p ++ cs.flatten], ⟨none, m⟩)) ∧
    (¬ Within m (p ++ cs.flatten).length →
      ∃ e, feedAll ⟨some p, m⟩ (ArticlePacker.segments d false cs) = .error e) := by
  induction cs generalizing p with
  | nil => exact absurd rfl hcs
  | cons c cs ih =>
    cases cs with
    | nil =>
      simp only [ArticlePacker.segments, feedAll, feed, Fpdu.ofData, Bool.false_eq_true, if_false,
        List.flatten_cons, List.flatten_nil, List.append_nil]
      constructor
      · intro hw
        rw [check_ok (by simpa using hw)]
        simp
      · intro hw
        rw [check_error (by simpa using hw)]
        exact ⟨_, rfl⟩
    | cons c' cs =>
      have hflat : p ++ (c :: c' :: cs).flatten = (p ++ c) ++ (c' :: cs).flatten := by simp
      rw [hflat]
      obtain ⟨hok, herr⟩ := ih (p ++ c) (by simp)
      simp only [ArticlePacker.segments, feedAll, feed, Fpdu.ofData, Bool.false_eq_true, if_false]
      by_cases hc : Within m (p.length + c.length)
      · rw [check_ok hc]
        simp only [if_true]
        constructor
        · intro hw
          simp [hok hw]
        · intro hw
          obtain ⟨e, he⟩ := herr hw
          exact ⟨e, by simp [he]⟩
      · rw [check_error hc]
        refine ⟨?_, fun _ => ⟨_, rfl⟩⟩
        intro hw
        exact absurd (within_mono hw (by simp only [List.length_append]; omega)) hc

lemma feedAll_segments (d : UInt8) {w : Bytes} {n : ℕ} (hn : 0 < n) (hw : n < w.length) :
    (Within m w.length → feedAll (new m) (ArticlePacker.segments d true (chunks n w.length w)) =
      .ok ([w], new m)) ∧
    (¬ Within m w.length →
      ∃ e, feedAll (new m) (ArticlePacker.segments d true (chunks n w.length w)) = .error e) := by
  obtain ⟨c, cs, hc, hne⟩ := chunks_of_lt hn hw
  have hflat : c ++ cs.flatten = w := by
    have := chunks_flatten hn w.length w le_rfl
    rwa [hc, List.flatten_cons] at this
  obtain ⟨hok, herr⟩ := feedAll_rest (m := m) d c hne
  rw [hflat] at hok herr
  have hle : c.length ≤ w.length := by rw [← hflat, List.length_append]; omega
  cases cs with
  | nil => exact absurd rfl hne
  | cons c' cs =>
    rw [hc]
    simp only [ArticlePacker.segments, feedAll, feed, new, Fpdu.ofData, if_true, Option.isSome_none,
      Bool.false_eq_true, if_false]
    by_cases hcw : Within m c.length
    · rw [check_ok hcw]
      constructor
      · intro h
        simp [hok h]
      · intro h
        obtain ⟨e, he⟩ := herr h
        exact ⟨e, by simp [he]⟩
    · rw [check_error hcw]
      exact ⟨fun h => absurd (within_mono h hle) hcw, fun _ => ⟨_, rfl⟩⟩

lemma feedAll_dtf {f : Fpdu} {ws : List Bytes} (hk : f.kind = .dtf) (h : articlesOf f = .ok ws) :
    feedAll (new m) [f] = .ok (ws, new m) := by
  simp [feedAll, feed, hk, new, h]

end Reassembler

namespace ArticlePacker

open Reassembler

structure Holds (p : ArticlePacker) (ws : List Bytes) : Prop where
  pending : p.pending = ws.flatMap prefixed
  count : p.pendingCount = ws.length
  few : ws.length ≤ maxArticlesPerDtf
  single : ∀ w ∈ ws, w.length ≤ p.maxSingle
  room : 2 ≤ ws.length → headerLen + p.pending.length ≤ p.maxDtfLen
  nonempty : headerLen < p.maxDtfLen
  bounded : p.maxDtfLen ≤ maxFpduLen

def Emits (maxDtfLen : ℕ) (f : Fpdu) : Prop :=
  f.kind.isData = true ∧ f.params = [] ∧ f.encodedLen ≤ maxDtfLen

lemma Emits.sound {n : ℕ} {f : Fpdu} (h : Emits n f) (hn : n ≤ maxFpduLen) : Frame.Sound f := by
  refine ⟨?_, h.2.2.trans hn⟩
  rw [Fpdu.WellFormed, if_pos h.1]
  exact h.2.1

lemma emits_ofData {n : ℕ} {k : FpduKind} (hk : k.isData = true) (d c : UInt8) {data : Bytes}
    (h : headerLen + data.length ≤ n) : Emits n (Fpdu.ofData k d c data) := by
  refine ⟨hk, rfl, ?_⟩
  simpa [Fpdu.encodedLen, Fpdu.ofData, hk] using h

def emptied (p : ArticlePacker) : ArticlePacker := { p with pending := [], pendingCount := 0 }

lemma Holds.emptied {p : ArticlePacker} {ws : List Bytes} (h : p.Holds ws) : p.emptied.Holds [] :=
  ⟨rfl, rfl, by simp, by simp, by simp, h.nonempty, h.bounded⟩

lemma flushInto_spec {p : ArticlePacker} {ws : List Bytes} (h : p.Holds ws) (m : ℕ) (out : List Fpdu) :
    ∃ fs, p.flushInto out = (out ++ fs, p.emptied) ∧ (∀ f ∈ fs, Emits p.maxDtfLen f) ∧ fs.length ≤ 1 ∧
      feedAll (Reassembler.new m) fs = .ok (ws, Reassembler.new m) := by
  have hpos := h.nonempty
  have hbound := h.bounded
  simp only [flushInto, h.count]
  match ws, h with
  | [], h =>
    have hp : p = p.emptied := by
      obtain ⟨d, l, b, pending, count⟩ := p
      obtain rfl : pending = [] := h.pending
      obtain rfl : count = 0 := h.count
      rfl
    refine ⟨[], ?_, by simp, by simp, rfl⟩
    simp [← hp]
  | [w], h =>
    have hw : w.length ≤ p.maxSingle := h.single w (by simp)
    have hd : p.pending.drop 2 = w := by simp [h.pending, prefixed, be16]
    refine ⟨[Fpdu.ofData .dtf p.idDst 0 w], ?_, ?_, by simp, ?_⟩
    · simp [hd, ArticlePacker.emptied]
    · simp only [List.mem_singleton, forall_eq]
      refine emits_ofData rfl _ _ ?_
      simp only [maxSingle] at hw
      omega
    · exact feedAll_dtf rfl (by simp [articlesOf, Fpdu.ofData])
  | w :: w' :: ws, h =>
    have hroom := h.room (by simp)
    have hfew := h.few
    have hc : ∀ x ∈ w :: w' :: ws, x.length < 65536 := by
      intro x hx
      have := h.single x hx
      simp only [maxSingle] at this
      simp only [maxFpduLen] at hbound
      omega
    have hsrc : (UInt8.ofNat (w :: w' :: ws).length).toNat = (w :: w' :: ws).length := by
      rw [UInt8.toNat_ofNat']
      exact Nat.mod_eq_of_lt (by simp only [maxArticlesPerDtf] at hfew; omega)
    have hgt : 0 < UInt8.ofNat (w :: w' :: ws).length := by
      rw [UInt8.lt_iff_toNat_lt, hsrc]
      simp
    refine ⟨[Fpdu.ofData .dtf p.idDst (UInt8.ofNat (w :: w' :: ws).length) p.pending],
      ?_, ?_, by simp, ?_⟩
    · simp [ArticlePacker.emptied]
    · simp only [List.mem_singleton, forall_eq]
      exact emits_ofData rfl _ _ hroom
    · refine feedAll_dtf rfl ?_
      simp only [articlesOf, Fpdu.ofData, h.pending, articles_prefixed hc, hgt, and_self,
        if_true, hsrc, ne_eq, not_true_eq_false, if_false]

/-- An article of which no piece is refused. -/
def Passes (maxSingle m : ℕ) (w : Bytes) : Prop := w.length ≤ maxSingle ∨ Within m w.length

lemma segments_emits {n : ℕ} (d : UInt8) (first : Bool) {cs : List Bytes}
    (h : ∀ c ∈ cs, headerLen + c.length ≤ n) :
    ∀ f ∈ segments d first cs, Emits n f := by
  induction cs generalizing first with
  | nil => simp [segments]
  | cons c cs ih =>
    rw [List.forall_mem_cons] at h
    cases cs with
    | nil =>
      simp only [segments, List.mem_singleton, forall_eq]
      exact emits_ofData (by cases first <;> rfl) _ _ h.1
    | cons c' cs =>
      simp only [segments, List.forall_mem_cons]
      exact ⟨emits_ofData (by cases first <;> rfl) _ _ h.1, ih false h.2⟩

lemma pushSegmented_spec {p : ArticlePacker} {ws : List Bytes} (h : p.Holds ws) (m : ℕ) {w : Bytes}
    (hw : p.maxSingle < w.length) :
    ∃ fs, p.push w = (fs, p.emptied) ∧ (∀ f ∈ fs, Emits p.maxDtfLen f) ∧
      (Within m w.length → feedAll (Reassembler.new m) fs = .ok (ws ++ [w], Reassembler.new m)) ∧
      (¬ Within m w.length → ∃ e, feedAll (Reassembler.new m) fs = .error e) := by
  have hpos : 0 < p.maxSingle := by
    have := h.nonempty
    simp only [maxSingle]
    omega
  obtain ⟨fs, hflush, hemit, -, hfeed⟩ := flushInto_spec h m []
  obtain ⟨hok, herr⟩ := feedAll_segments (m := m) p.idDst hpos hw
  refine ⟨fs ++ segments p.idDst true (chunks p.maxSingle w.length w), ?_, ?_, ?_, ?_⟩
  · simp only [push, if_pos hw, hflush, List.nil_append]
  · intro f hf
    rcases List.mem_append.mp hf with hf | hf
    · exact hemit f hf
    · refine segments_emits p.idDst true ?_ f hf
      intro c hc
      have hle := chunks_length_le _ _ c hc
      have := h.nonempty
      simp only [maxSingle] at hle
      omega
  · intro hm
    rw [feedAll_append, hfeed]
    simp [Except.bind, hok hm]
  · intro hm
    obtain ⟨e, he⟩ := herr hm
    refine ⟨e, ?_⟩
    rw [feedAll_append, hfeed]
    simp [Except.bind, he]

lemma Holds.push {p : ArticlePacker} {ws : List Bytes} {w : Bytes} (h : p.Holds ws)
    (hw : w.length ≤ p.maxSingle)
    (hroom : ws = [] ∨ headerLen + p.pending.length + (2 + w.length) ≤ p.maxDtfLen)
    (hfew : ws.length < maxArticlesPerDtf) :
    ArticlePacker.Holds { p with
      pending := p.pending ++ be16 w.length ++ w
      pendingCount := p.pendingCount + 1 } (ws ++ [w]) := by
  refine ⟨?_, ?_, ?_, ?_, ?_, h.nonempty, h.bounded⟩
  · simp [h.pending, prefixed]
  · simp [h.count]
  · rw [List.length_append]
    exact hfew
  · intro x hx
    rcases List.mem_append.mp hx with hx | hx
    · exact h.single x hx
    · obtain rfl := List.mem_singleton.mp hx
      exact hw
  · intro hlen
    rcases hroom with rfl | hroom
    · simp at hlen
    · simp only [List.length_append, be16_length]
      omega

lemma pushSingle_spec {p : ArticlePacker} {ws : List Bytes} (h : p.Holds ws) (m : ℕ) {w : Bytes}
    (hmono : p.multiArticle = false → ws = []) (hw : w.length ≤ p.maxSingle) :
    ∃ fs ws' p' out, p.push w = (fs, p') ∧ p'.Holds ws' ∧ p'.maxDtfLen = p.maxDtfLen ∧
      p'.multiArticle = p.multiArticle ∧ (p'.multiArticle = false → ws' = []) ∧
      (∀ f ∈ fs, Emits p.maxDtfLen f) ∧
      feedAll (Reassembler.new m) fs = .ok (out, Reassembler.new m) ∧ out ++ ws' = ws ++ [w] := by
  have hpos := h.nonempty
  simp only [ArticlePacker.push, if_neg (Nat.not_lt.mpr hw)]
  cases hmulti : p.multiArticle with
  | false =>
    obtain rfl := hmono hmulti
    refine ⟨[Fpdu.ofData .dtf p.idDst 0 w], [], p, [w], rfl, h, rfl, hmulti, fun _ => rfl, ?_, ?_, rfl⟩
    · simp only [List.mem_singleton, forall_eq]
      refine emits_ofData rfl _ _ ?_
      simp only [maxSingle] at hw
      omega
    · refine feedAll_dtf (f := Fpdu.ofData .dtf p.idDst 0 w) rfl ?_
      simp [articlesOf, Fpdu.ofData]
  | true =>
    simp only [Bool.not_true, Bool.false_eq_true, if_false]
    by_cases hfull : 0 < p.pendingCount ∧ (p.maxDtfLen < headerLen + p.pending.length + (2 + w.length) ∨
        maxArticlesPerDtf ≤ p.pendingCount)
    · obtain ⟨fs, hflush, hemit, -, hfeed⟩ := flushInto_spec h m []
      rw [if_pos hfull, hflush]
      exact ⟨fs, [w], _, ws, rfl, h.emptied.push hw (.inl rfl) (by simp), rfl,
        hmulti, by simp [emptied, hmulti], hemit, hfeed, rfl⟩
    · rw [if_neg hfull]
      refine ⟨[], ws ++ [w], _, [], rfl, h.push hw ?_ ?_, rfl,
        hmulti, by simp [hmulti], by simp, rfl, rfl⟩
      · rw [h.count] at hfull
        cases ws with
        | nil => exact .inl rfl
        | cons x ws =>
          right
          simp only [List.length_cons] at hfull
          omega
      · rw [h.count] at hfull
        simp only [maxArticlesPerDtf] at hfull ⊢
        omega

lemma push_spec {p : ArticlePacker} {ws : List Bytes} (h : p.Holds ws) (m : ℕ) {w : Bytes}
    (hmono : p.multiArticle = false → ws = []) :
    ∃ fs ws' p', p.push w = (fs, p') ∧ p'.Holds ws' ∧ p'.maxDtfLen = p.maxDtfLen ∧
      (p'.multiArticle = false → ws' = []) ∧ (∀ f ∈ fs, Emits p.maxDtfLen f) ∧
      (Passes p.maxSingle m w → ∃ out, feedAll (Reassembler.new m) fs = .ok (out, Reassembler.new m) ∧
        out ++ ws' = ws ++ [w]) ∧
      (¬ Passes p.maxSingle m w → ∃ e, feedAll (Reassembler.new m) fs = .error e) := by
  by_cases hw : w.length ≤ p.maxSingle
  · obtain ⟨fs, ws', p', out, hpush, hholds, hmax, -, hmono', hemit, hfeed, hout⟩ :=
      pushSingle_spec h m hmono hw
    exact ⟨fs, ws', p', hpush, hholds, hmax, hmono', hemit, fun _ => ⟨out, hfeed, hout⟩, fun hn =>
      absurd (.inl hw) hn⟩
  · obtain ⟨fs, hpush, hemit, hok, herr⟩ := pushSegmented_spec h m (Nat.lt_of_not_le hw)
    refine ⟨fs, [], p.emptied, hpush, h.emptied, rfl, fun _ => rfl, hemit, ?_, ?_⟩
    · rintro (hle | hwithin)
      · exact absurd hle hw
      · exact ⟨ws ++ [w], hok hwithin, List.append_nil _⟩
    · intro hn
      exact herr (fun hwithin => hn (.inr hwithin))

end ArticlePacker

end PesitWizard.Core
