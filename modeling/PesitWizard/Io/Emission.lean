import PesitWizard.Io.Intake

/-! What the sender puts on the link, and what a receiver makes of it. -/

namespace PesitWizard.Io

open PesitWizard.Core Library

structure DataParams.Roomy (p : DataParams) : Prop where
  room : 11 + p.crcCost ≤ p.maxEntity
  bounded : p.maxEntity ≤ 65535

section Entities

variable {p : DataParams} {b : EntityBuilder} {bs : List Fpdu}

structure Buffered (p : DataParams) (b : EntityBuilder) (bs : List Fpdu) : Prop where
  buf : b.buf = bs.flatMap (Frame.image p.crc)
  maxLen : b.maxLen = p.maxEntity
  crc : b.crc = p.crc
  count : b.count = bs.length
  sound : ∀ f ∈ bs, Frame.Sound f

def entities (crc : Bool) (gs : List (List Fpdu)) : List Bytes :=
  gs.map (fun g => g.flatMap (Frame.image crc))

lemma Buffered.take (h : Buffered p b bs) : Buffered p b.take [] :=
  ⟨rfl, h.maxLen, h.crc, rfl, by simp⟩

lemma Buffered.cost (h : Buffered p b bs) (n : ℕ) : b.cost n = n + p.crcCost := by
  simp only [EntityBuilder.cost, DataParams.crcCost, h.crc]
  split <;> rfl

lemma Buffered.fits_nil (h : Buffered p b []) {n : ℕ} (hn : n + p.crcCost ≤ p.maxEntity) :
    b.fits n = true := by
  have hbuf : b.buf = [] := h.buf
  have hcount : b.count = 0 := h.count
  simp only [EntityBuilder.fits, hcount, Nat.lt_irrefl, decide_false, Bool.and_false,
    Bool.false_eq_true, if_false, hbuf, List.length_nil, Nat.zero_add, h.cost, h.maxLen,
    decide_eq_true_eq]
  exact hn

lemma Buffered.push (h : Buffered p b bs) {f : Fpdu} (hf : Frame.Sound f) :
    ∃ b', b.push f = .ok b' ∧ Buffered p b' (bs ++ [f]) := by
  refine ⟨_, EntityBuilder.push_ok hf b, ?_⟩
  refine ⟨?_, h.maxLen, h.crc, ?_, ?_⟩
  · simp [h.buf, h.crc]
  · simp [h.count]
  · intro g hg
    rcases List.mem_append.mp hg with hg | hg
    · exact h.sound g hg
    · obtain rfl := List.mem_singleton.mp hg
      exact hf

namespace SendData

lemma putFpdu_spec (h : Buffered p b bs) {f : Fpdu} (hf : Frame.Sound f)
    (hfit : f.encodedLen + p.crcCost ≤ p.maxEntity) :
    ∃ gs bs' b', (putFpdu b f).Returns ((entities p.crc gs).map .send) b' ∧ Buffered p b' bs' ∧
      gs.flatten ++ bs' = bs ++ [f] ∧ (∀ g ∈ gs, g ≠ []) ∧ bs' ≠ [] := by
  simp only [putFpdu]
  by_cases hb : b.fits f.encodedLen = true
  · obtain ⟨b', hpush, hb'⟩ := h.push hf
    refine ⟨[], bs ++ [f], b', ?_, hb', rfl, by simp, by simp⟩
    simp only [hb, if_true, Act.pure_bind, hpush]
    rfl
  · have hne : bs ≠ [] := by
      rintro rfl
      exact hb (h.fits_nil hfit)
    obtain ⟨b', hpush, hb'⟩ := h.take.push hf
    refine ⟨[bs], [f], b', ?_, hb', by simp, by simpa using hne, by simp⟩
    simp only [hb, Bool.false_eq_true, if_false, Act.pure_bind, hpush, h.buf]
    rfl

lemma putFpdus_spec (h : Buffered p b bs) {fs : List Fpdu} (hf : ∀ f ∈ fs, Frame.Sound f)
    (hfit : ∀ f ∈ fs, f.encodedLen + p.crcCost ≤ p.maxEntity) :
    ∃ gs bs' b', (putFpdus b fs).Returns ((entities p.crc gs).map .send) b' ∧ Buffered p b' bs' ∧
      gs.flatten ++ bs' = bs ++ fs ∧ (∀ g ∈ gs, g ≠ []) := by
  induction fs generalizing b bs with
  | nil => exact ⟨[], bs, b, rfl, h, by simp, by simp⟩
  | cons f fs ih =>
    rw [List.forall_mem_cons] at hf hfit
    obtain ⟨gs, bs', b', hput, hb', hflat, hne, -⟩ := putFpdu_spec h hf.1 hfit.1
    obtain ⟨gs', bs'', b'', hputs, hb'', hflat', hne'⟩ := ih hb' hf.2 hfit.2
    refine ⟨gs ++ gs', bs'', b'', ?_, hb'', ?_, ?_⟩
    · have := hput.bind (f := fun b => putFpdus b fs) hputs
      simpa [putFpdus, entities] using this
    · rw [List.flatten_append, List.append_assoc, hflat', ← List.append_assoc, hflat]
      simp
    · intro g hg
      rcases List.mem_append.mp hg with hg | hg
      · exact hne g hg
      · exact hne' g hg

end SendData

end Entities

namespace Reception

variable {τ : Type} {ops : ArticleSink τ} {p : DataParams}

variable (ops) in
lemma flow_groups {gs : List (List Fpdu)} (hne : ∀ g ∈ gs, g ≠ []) (fs : List Fpdu)
    (h : ∀ f ∈ gs.flatten, Frame.Sound f) (es : List Bytes) (x : Reception τ) :
    flow ops p (es ++ entities p.crc gs) fs x = flow ops p es (gs.flatten ++ fs) x := by
  induction gs generalizing es with
  | nil => simp [entities]
  | cons g gs ih =>
    rw [List.forall_mem_cons] at hne
    rw [List.flatten_cons, List.forall_mem_append] at h
    have happ : es ++ entities p.crc (g :: gs) = es ++ [g.flatMap (Frame.image p.crc)] ++
        entities p.crc gs := by
      simp [entities]
    rw [happ, ih hne.2 h.2, flow_entity _ es _ hne.1 h.1, List.flatten_cons, List.append_assoc]

end Reception

end PesitWizard.Io
