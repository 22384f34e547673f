import PesitWizard.Core.Reassembly
import PesitWizard.Io.Outgoing
import PesitWizard.Library.Moves

/-! The size of the entities that a sender hands to its link. -/

namespace PesitWizard.Io

open PesitWizard.Core Library

/-- An FPDU of this length fits an entity of its own. -/
def Fits (p : DataParams) (n : ℕ) : Prop := n + p.crcCost ≤ p.maxEntity

instance (p : DataParams) (n : ℕ) : Decidable (Fits p n) := inferInstanceAs (Decidable (_ ≤ _))

lemma Fits.mono {p : DataParams} {m n : ℕ} (h : Fits p n) (hmn : m ≤ n) : Fits p m :=
  (Nat.add_le_add_right hmn _).trans h

structure Measured (p : DataParams) (e : Bytes) : Prop where
  nonempty : e ≠ []
  length : e.length ≤ p.maxEntity

section Builder

variable {p : DataParams} {b b' : EntityBuilder} {f : Fpdu} {fs : List Fpdu}

structure Sized (p : DataParams) (b : EntityBuilder) : Prop where
  maxLen : b.maxLen = p.maxEntity
  crc : b.crc = p.crc
  length : b.buf.length ≤ p.maxEntity
  empty : b.count = 0 → b.buf = []
  nonempty : 0 < b.count → b.buf ≠ []

lemma Sized.new (p : DataParams) : Sized p (.new p.maxEntity p.crc) :=
  ⟨rfl, rfl, Nat.zero_le _, fun _ => rfl, fun h => absurd h (Nat.lt_irrefl 0)⟩

lemma Sized.take (h : Sized p b) : Sized p b.take :=
  ⟨h.maxLen, h.crc, Nat.zero_le _, fun _ => rfl, fun h => absurd h (Nat.lt_irrefl 0)⟩

lemma Sized.measured (h : Sized p b) (hb : 0 < b.count) : Measured p b.buf := ⟨h.nonempty hb, h.length⟩

lemma image_length_cost (p : DataParams) (f : Fpdu) :
    (Frame.image p.crc f).length = f.encodedLen + p.crcCost :=
  Frame.image_length p.crc f

lemma Sized.push (h : Sized p b) (hf : b.buf.length + (f.encodedLen + p.crcCost) ≤ p.maxEntity)
    (hb : b.push f = .ok b') : Sized p b' ∧ 0 < b'.count := by
  obtain ⟨-, rfl⟩ := EntityBuilder.push_inv hb
  refine ⟨⟨h.maxLen, h.crc, ?_, ?_, ?_⟩, Nat.succ_pos _⟩
  · rw [List.length_append, h.crc, image_length_cost]
    exact hf
  · exact fun hzero => absurd hzero (Nat.succ_ne_zero _)
  · exact fun _ hnil => Frame.image_ne_nil b.crc f (List.append_eq_nil_iff.mp hnil).2

lemma Sized.cost (h : Sized p b) (n : ℕ) : b.cost n = n + p.crcCost := by
  rw [EntityBuilder.cost, h.crc, DataParams.crcCost]
  split <;> rfl

lemma fits_length (h : Sized p b) (hfits : b.fits f.encodedLen = true) :
    b.buf.length + (f.encodedLen + p.crcCost) ≤ p.maxEntity := by
  rw [EntityBuilder.fits, h.cost, h.maxLen] at hfits
  split at hfits
  · cases hfits
  · exact of_decide_eq_true hfits

/-- What does not fit, although it fits an entity of its own, finds something in the builder. -/
lemma fits_count (h : Sized p b) (hf : Fits p f.encodedLen) (hfits : ¬ b.fits f.encodedLen = true) :
    0 < b.count := by
  by_contra hzero
  have hcount : b.count = 0 := by omega
  apply hfits
  rw [EntityBuilder.fits, h.cost, h.maxLen, h.empty hcount, hcount, List.length_nil, Nat.zero_add]
  rw [Fits] at hf
  simpa using hf

lemma remaining_count (h : Sized p b) (hf : Fits p (headerLen + 1))
    (hfull : b.remaining < headerLen + 1) :
    0 < b.count := by
  by_contra hzero
  have hcount : b.count = 0 := by omega
  have hroom : b.remaining = p.maxEntity - p.crcCost := by
    rw [EntityBuilder.remaining, h.empty hcount, hcount, h.maxLen, h.crc, List.length_nil, Nat.zero_add,
      DataParams.crcCost]
    simp
  rw [Fits] at hf
  omega

end Builder

namespace SendData

section Emits

variable {p : DataParams} {α β : Type} {x : Run α} {Q Q' : α → Prop} {R : β → Prop}
    {b : EntityBuilder} {f : Fpdu}

/-- An act that only sends entities of a proper size, and what holds of its value. -/
def Emits (p : DataParams) (x : Run α) (Q : α → Prop) : Prop :=
  x.Meets (fun ws => ∀ e ∈ sends ws, Measured p e) fun ws a => (∀ e ∈ sends ws, Measured p e) ∧ Q a

lemma emits_pure {a : α} (h : Q a) : Emits p (pure a) Q := by
  refine ⟨?_, h⟩
  intro e he
  cases he

lemma emits_lift {r : Except SessionError α} (h : ∀ a, r = .ok a → Q a) : Emits p (Act.lift r) Q := by
  apply Act.meets_lift
  · simp [sends]
  · exact fun a ha => ⟨by simp [sends], h a ha⟩

lemma emits_emit {w : Effect} (hw : ∀ e ∈ sends [w], Measured p e) {Q : Unit → Prop} (h : Q ()) :
    Emits p (Act.emit w) Q := ⟨hw, h⟩

lemma emits_send {e : Bytes} (he : Measured p e) {Q : Unit → Prop} (h : Q ()) :
    Emits p (Act.emit (.send e)) Q :=
  emits_emit (by simpa [sends] using he) h

lemma Emits.bind {k : α → Run β} (hx : Emits p x Q) (hk : ∀ a, Q a → Emits p (k a) R) :
    Emits p (x >>= k) R := by
  obtain ⟨ws, r⟩ := x
  cases r with
  | error e => exact hx
  | ok a =>
    obtain ⟨hws, hq⟩ := hx
    have hka := hk a hq
    rw [Act.ok_bind]
    generalize k a = y at hka ⊢
    obtain ⟨vs, r⟩ := y
    have hall (hvs : ∀ e ∈ sends vs, Measured p e) : ∀ e ∈ sends (ws ++ vs), Measured p e := by
      rw [sends_append, List.forall_mem_append]
      exact ⟨hws, hvs⟩
    cases r with
    | error e => exact hall hka
    | ok c => exact ⟨hall hka.1, hka.2⟩

lemma Emits.mono (hx : Emits p x Q) (h : ∀ a, Q a → Q' a) : Emits p x Q' :=
  Act.Meets.mono hx fun _ a ⟨hws, hq⟩ => ⟨hws, h a hq⟩

lemma Emits.sends (hx : Emits p x Q) : ∀ e ∈ sends x.effects, Measured p e :=
  Act.Meets.effects hx fun _ _ h => h.1

def Filled (p : DataParams) (b : EntityBuilder) : Prop := Sized p b ∧ 0 < b.count

lemma putFpdu_emits (h : Sized p b) (hf : Fits p f.encodedLen) : Emits p (putFpdu b f) (Filled p) := by
  have hpush :
      ∀ {b : EntityBuilder}, Sized p b → b.buf.length + (f.encodedLen + p.crcCost) ≤ p.maxEntity →
      Emits p (Act.lift ((b.push f).mapError fun e => .negotiation (.encode e))) (Filled p) := by
    intro b h hlen
    apply emits_lift
    intro b' hb'
    cases hb : b.push f with
    | error e =>
      rw [hb] at hb'
      cases hb'
    | ok b₁ =>
      rw [hb] at hb'
      obtain rfl := Except.ok.inj hb'
      exact h.push hlen hb
  by_cases hfits : b.fits f.encodedLen = true
  · simp only [putFpdu, hfits, if_true, Act.pure_bind]
    exact hpush h (fits_length h hfits)
  · simp only [putFpdu, hfits, Bool.false_eq_true, if_false]
    refine (emits_send (Q := fun _ => True) (h.measured (fits_count h hf hfits)) trivial).bind ?_
    intro _ _
    apply hpush h.take
    rw [Fits] at hf
    simpa [EntityBuilder.take] using hf

lemma putFpdus_emits {fs : List Fpdu} (h : Sized p b) (hf : ∀ f ∈ fs, Fits p f.encodedLen) :
    Emits p (putFpdus b fs) fun b' => Sized p b' ∧ (fs ≠ [] ∨ 0 < b.count → 0 < b'.count) := by
  induction fs generalizing b with
  | nil => exact emits_pure ⟨h, fun hne => hne.resolve_left (fun hnil => hnil rfl)⟩
  | cons f fs ih =>
    rw [List.forall_mem_cons] at hf
    refine (putFpdu_emits h hf.1).bind ?_
    rintro b' ⟨hb', hcount⟩
    exact (ih hb' hf.2).mono fun b'' hb'' => ⟨hb''.1, fun _ => hb''.2 (.inr hcount)⟩

lemma sendFpdu_emits (hf : Fits p f.encodedLen) : Emits p (sendFpdu p.crc f) fun _ => True := by
  refine Emits.bind (Q := Measured p) ?_ ?_
  · apply emits_lift
    intro e he
    cases hs : Frame.singleEntity f p.crc with
    | error err =>
      rw [hs] at he
      cases he
    | ok e' =>
      rw [hs] at he
      obtain rfl := Except.ok.inj he
      obtain ⟨-, rfl⟩ := Frame.singleEntity_iff.mp hs
      refine ⟨Frame.image_ne_nil p.crc f, ?_⟩
      rw [image_length_cost]
      exact hf
  · exact fun e he => emits_send he trivial

/-- The value of an act that is known to put certain FPDUs. -/
lemma Emits.of_puts (hx : Emits p x Q) {bs fs : List Fpdu} {P : α → List Fpdu → Prop}
    (hp : Puts p x bs fs P) :
    Emits p x fun a => Q a ∧ ∃ bs', P a bs' := by
  obtain ⟨ws, r⟩ := x
  cases r with
  | error e => exact hx
  | ok a =>
    obtain ⟨bs', hbs', -⟩ := hp
    exact ⟨hx.1, hx.2, bs', hbs'⟩

end Emits

section Acts

variable {σ : Type} {src : ArticleSource σ} {p : DataParams} {s : SendState σ} {bs : List Fpdu}

lemma syncPoint_emits (h : Sized p s.entity) (hf : ∀ f ∈ syncFpdus p s, Fits p f.encodedLen)
    (article wire : Bytes) :
    Emits p (syncPoint p s article wire) fun y => Sized p y.1.entity := by
  rw [syncFpdus, List.forall_mem_append] at hf
  refine (putFpdus_emits h hf.1).bind fun b₁ hb₁ => ?_
  refine (putFpdu_emits hb₁.1 (hf.2 _ List.mem_cons_self)).bind fun b₂ hb₂ => ?_
  refine (emits_send (Q := fun _ => True) (hb₂.1.measured hb₂.2) trivial).bind fun _ _ => ?_
  refine (emits_lift (Q := fun _ => True) fun _ _ => trivial).bind fun m _ => ?_
  refine (emits_emit (Q := fun _ => True) (by simp [sends]) trivial).bind fun _ _ => ?_
  exact emits_pure hb₂.1.take

lemma prepare_emits (h : Sized p s.entity) (article : Bytes) (rest : σ)
    (hf : (onWire p s.compressor s.bytesSinceSync article).1 = true → ∀ f ∈ syncFpdus p s,
      Fits p f.encodedLen) :
    Emits p (prepare p s article rest) fun y => Sized p y.1.entity ∧
      ((onWire p s.compressor s.bytesSinceSync article).1 = false → y.1.entity = s.entity) := by
  rw [onWire_fst] at hf ⊢
  cases hsync : needsSync p s.bytesSinceSync (compressArticle s.compressor article).1.length with
  | false =>
    simp only [prepare, hsync, Bool.false_eq_true, if_false]
    exact emits_pure ⟨h, fun _ => rfl⟩
  | true =>
    simp only [prepare, hsync, if_true]
    exact (syncPoint_emits
      (s := { s with compressor := (compressArticle s.compressor article).2, source := rest }) h
      (hf hsync) article _).mono fun _ hy => ⟨hy, fun hno => by cases hno⟩

lemma sendFull_emits {b : EntityBuilder} (h : Sized p b) (hb : Fits p (headerLen + 1) ∨ 0 < b.count) :
    Emits p (sendFull b) (Sized p) := by
  simp only [sendFull]
  split
  · rename_i hfull
    have hcount := hb.elim (fun hf => remaining_count h hf hfull) id
    exact (emits_send (Q := fun _ => True) (h.measured hcount) trivial).bind fun _ _ => emits_pure h.take
  · exact emits_pure h

/-- After the article an FPDU of one byte still finds room in an empty entity, or the
builder is not empty. -/
def Begun (p : DataParams) (s : SendState σ) (article : Bytes) : Prop :=
  Fits p (headerLen + 1) ∨
    ((turnPacker p s article).push (onWire p s.compressor s.bytesSinceSync article).2.1).1 ≠ [] ∨
    ((onWire p s.compressor s.bytesSinceSync article).1 = false ∧ 0 < s.entity.count)

lemma sendArticle_emits (h : Sized p s.entity) (hstock : Stocked p s.entity bs)
    (article : Bytes) (rest : σ) (hf : ∀ f ∈ turnFpdus p s article, Fits p f.encodedLen)
    (hbegun : Begun p s article) :
    Emits p (sendArticle src p s article rest) fun s' => Sized p s'.entity := by
  rw [turnFpdus, List.forall_mem_append] at hf
  have hsync : (onWire p s.compressor s.bytesSinceSync article).1 = true → ∀ f ∈ syncFpdus p s,
      Fits p f.encodedLen := by
    intro hdue
    simpa only [hdue, if_true] using hf.1
  refine ((prepare_emits h article rest hsync).of_puts (prepare_puts hstock article rest)).bind ?_
  rintro ⟨s₁, wire⟩ ⟨⟨hsized, hsame⟩, bs₁, -, hp, -⟩
  obtain rfl : wire = _ := hp.wire
  have hpush := hf.2
  rw [← hp.packer] at hpush
  refine Emits.bind (Q := Sized p) ?_ ?_
  · refine (putFpdus_emits hsized hpush).bind ?_
    rintro b ⟨hb, hcount⟩
    apply sendFull_emits hb
    rcases hbegun with hroom | hsome | ⟨hno, hpos⟩
    · exact .inl hroom
    · rw [← hp.packer] at hsome
      exact .inr (hcount (.inl hsome))
    · rw [← hsame hno] at hpos
      exact .inr (hcount (.inr hpos))
  · intro b hb
    refine (emits_lift (Q := fun _ => True) fun _ _ => trivial).bind fun m _ => ?_
    exact emits_pure hb

lemma endData_emits (h : Sized p s.entity) (hf : ∀ f ∈ endFpdus p s, Fits p f.encodedLen) :
    Emits p (endData p s) fun phase => ∀ s', phase ≠ .looping s' := by
  rw [endFpdus, List.forall_mem_append] at hf
  refine (putFpdus_emits h hf.1).bind fun b₁ hb₁ => ?_
  refine (putFpdu_emits hb₁.1 (hf.2 _ List.mem_cons_self)).bind fun b₂ hb₂ => ?_
  refine (emits_send (Q := fun _ => True) (hb₂.1.measured hb₂.2) trivial).bind fun _ _ => ?_
  refine (emits_lift (Q := fun _ => True) fun _ _ => trivial).bind fun m _ => ?_
  exact emits_pure fun _ hp => by cases hp

lemma interrupt_emits (m : Machine)
    (hf : ∀ m', applyLocal m .cancel = .ok m' → Fits p (idtFpdu p).encodedLen) :
    Emits p (interrupt p m) fun _ => True := by
  refine (emits_lift (Q := fun _ => Fits p (idtFpdu p).encodedLen) fun m' hm' => hf m' hm').bind
    fun m' hidt => ?_
  refine (sendFpdu_emits hidt).bind fun _ _ => ?_
  exact emits_pure trivial

lemma cancel_emits (h : Sized p s.entity)
    (hf : ∀ m', applyLocal s.machine .cancel = .ok m' → Fits p (idtFpdu p).encodedLen) :
    Emits p (cancel p s) fun phase => ∀ s', phase ≠ .looping s' := by
  have hidt : Emits p (do
      let m ← interrupt p s.machine
      pure (SendPhase.interrupting { s with machine := m, entity := s.entity.take })) fun phase =>
        ∀ s', phase ≠ .looping s' := by
    refine (interrupt_emits s.machine hf).bind fun m _ => ?_
    exact emits_pure fun _ hp => by cases hp
  simp only [cancel]
  split
  · rename_i hcount
    exact (emits_send (Q := fun _ => True) (h.measured hcount) trivial).bind fun _ _ => hidt
  · exact hidt

section Receptions

variable {store : MemoryCheckpoints} {f : Fpdu}

/-- The answers to what the sender may be sent while it is in its loop. -/
def Answerable (p : DataParams) (store : MemoryCheckpoints) (f : Fpdu) : Prop :=
  (f.kind = .resyn → p.resync = true →
    Fits p (Builder.ackResyn p.peerId (resumed store f).sync).encodedLen) ∧
    (f.kind = .idt → Fits p (Builder.ackIdt p.peerId).encodedLen)

lemma handleAsync_emits (h : Sized p s.entity)
    (hf : ∀ m, applyReceived s.machine f = .ok m → Answerable p store f) :
    Emits p (handleAsync src p store s f) fun phase => ∀ s', phase = .looping s' →
    Sized p s'.entity := by
  refine (emits_lift (Q := fun _ => Answerable p store f) fun m hm => hf m hm).bind fun m hanswer => ?_
  split
  · refine (emits_emit (Q := fun _ => True) (by simp [sends]) trivial).bind fun _ _ => ?_
    refine emits_pure ?_
    rintro s' hs'
    obtain rfl := SendPhase.looping.inj hs'
    exact h
  · rename_i hresyn
    split
    · rename_i hnegotiated
      refine (sendFpdu_emits (hanswer.1 hresyn hnegotiated)).bind fun _ _ => ?_
      refine (emits_lift (Q := fun _ => True) fun _ _ => trivial).bind fun m _ => ?_
      refine emits_pure ?_
      rintro s' hs'
      obtain rfl := SendPhase.looping.inj hs'
      exact h.take
    · exact emits_lift fun _ hr => by cases hr
  · rename_i hidt
    refine (sendFpdu_emits (hanswer.2 hidt)).bind fun _ _ => ?_
    refine (emits_lift (Q := fun _ => True) fun _ _ => trivial).bind fun m _ => ?_
    exact emits_pure fun _ hp => by cases hp
  · refine emits_pure ?_
    rintro s' hs'
    obtain rfl := SendPhase.looping.inj hs'
    exact h

lemma interrupted_emits
    (hf : ∀ m, applyReceived s.machine f = .ok m → f.kind = .idt →
      Fits p (Builder.ackIdt p.peerId).encodedLen) :
    Emits p (interrupted p s f) fun phase => ∀ s', phase ≠ .looping s' := by
  refine Emits.bind (Q := fun _ => True) ?_ ?_
  · refine (emits_lift (Q := fun _ => f.kind = .idt → Fits p (Builder.ackIdt p.peerId).encodedLen)
      fun m hm => hf m hm).bind fun m hanswer => ?_
    split
    · exact emits_pure trivial
    · rename_i hidt
      refine (sendFpdu_emits (hanswer hidt)).bind fun _ _ => ?_
      split
      · exact emits_pure trivial
      · exact emits_pure trivial
    · exact emits_pure trivial
  · rintro ⟨m, done⟩ -
    cases done
    · exact emits_pure fun _ hp => by cases hp
    · exact emits_pure fun _ hp => by cases hp

end Receptions

end Acts

end SendData

namespace Sending

open SendData

variable {σ : Type} {src : ArticleSource σ} {p : DataParams} {x : Sending σ} {s : SendState σ}

/-- Each FPDU that the sender puts into an entity when this happens fits an entity of its own. -/
def Room (src : ArticleSource σ) (p : DataParams) (x : Sending σ) : Occasion → Prop
  | .turn => ∀ s, x.phase = .looping s → windowFull p s = false →
    match src.nextArticle s.source with
    | none => ∀ f ∈ endFpdus p s, Fits p f.encodedLen
    | some (article, _) => (∀ f ∈ turnFpdus p s article, Fits p f.encodedLen) ∧ Begun p s article
  | .cancellation => ∀ s, x.phase = .looping s → ∀ m, applyLocal s.machine .cancel = .ok m →
    Fits p (idtFpdu p).encodedLen
  | .reception (.ok f) =>
    (∀ s, x.phase = .looping s → ∀ m, applyReceived s.machine f = .ok m → Answerable p x.store f) ∧
    ∀ s, x.phase = .interrupting s → ∀ m, applyReceived s.machine f = .ok m → f.kind = .idt →
      Fits p (Builder.ackIdt p.peerId).encodedLen
  | .reception (.error _) => True

structure Disciplined (p : DataParams) (x : Sending σ) : Prop where
  sent : ∀ e, Traffic.sent e ∈ x.traffic → Measured p e
  looping : ∀ s, x.phase = .looping s → Sized p s.entity ∧ ∃ bs, Stocked p s.entity bs

lemma hear_sent (h : ∀ e, Traffic.sent e ∈ x.traffic → Measured p e) (r : Except SessionError Fpdu) :
    ∀ e, Traffic.sent e ∈ (x.hear r).traffic → Measured p e := by
  cases r with
  | error _ => exact h
  | ok f =>
    intro e he
    rcases List.mem_append.mp he with he | he
    · exact h e he
    · cases List.mem_singleton.mp he

lemma disciplined_follow (h : ∀ e, Traffic.sent e ∈ x.traffic → Measured p e) {act : Run (SendPhase σ)}
    (hact : Emits p act fun phase => ∀ s, phase = .looping s → Sized p s.entity ∧
      ∃ bs, Stocked p s.entity bs) :
    Disciplined p (x.follow act) := by
  refine ⟨?_, ?_⟩
  · intro e he
    rw [follow_traffic] at he
    rcases List.mem_append.mp he with he | he
    · exact h e he
    · obtain ⟨e', he', heq⟩ := List.mem_map.mp he
      obtain rfl := Traffic.sent.inj heq
      exact hact.sends e' he'
  · intro s hs
    obtain ⟨ws, r⟩ := act
    cases r with
    | error e => cases hs
    | ok phase => exact hact.2 s hs

lemma disciplined_leave (h : ∀ e, Traffic.sent e ∈ x.traffic → Measured p e) {act : Run (SendPhase σ)}
    (hact : Emits p act fun phase => ∀ s, phase ≠ .looping s) : Disciplined p (x.follow act) :=
  disciplined_follow h (hact.mono fun _ hphase s hs => absurd hs (hphase s))

lemma disciplined_failed (h : ∀ e, Traffic.sent e ∈ x.traffic → Measured p e) (e : SessionError) :
    Disciplined p (x.follow (Act.lift (.error e))) :=
  disciplined_leave h (emits_lift fun _ hr => by cases hr)

lemma disciplined_turn (hphase : x.phase = .looping s) (h : Disciplined p x)
    (hfull : windowFull p s = false) (hroom : Room src p x .turn) :
    Disciplined p (x.follow (advance src p s)) := by
  obtain ⟨hsized, bs, hstock⟩ := h.looping s hphase
  have hroom := hroom s hphase hfull
  cases hnext : src.nextArticle s.source with
  | none =>
    rw [hnext] at hroom
    rw [advance_end hnext]
    exact disciplined_leave h.sent (endData_emits hsized hroom)
  | some y =>
    obtain ⟨article, rest⟩ := y
    rw [hnext] at hroom
    apply disciplined_follow h.sent
    simp only [advance, hnext]
    refine ((sendArticle_emits hsized hstock article rest hroom.1 hroom.2).of_puts
      (sendArticle_puts hstock article rest)).bind ?_
    rintro s' ⟨hsized', bs', hstock', -⟩
    refine emits_pure ?_
    intro t ht
    obtain rfl := SendPhase.looping.inj ht
    exact ⟨hsized', bs', hstock'⟩

lemma disciplined_async (hphase : x.phase = .looping s) (h : Disciplined p x) {f : Fpdu}
    (hroom : Room src p x (.reception (.ok f))) :
    Disciplined p ((x.hear (.ok f)).follow (handleAsync src p x.store s f)) := by
  obtain ⟨hsized, bs, hstock⟩ := h.looping s hphase
  have hemits : Emits p (handleAsync src p x.store s f) _ := handleAsync_emits hsized (hroom.1 s hphase)
  have hsent := hear_sent h.sent (.ok f)
  by_cases hresyn : f.kind = .resyn
  · apply disciplined_follow hsent
    refine (hemits.of_puts (resyn_puts hresyn)).mono ?_
    rintro phase ⟨hs, bs', -, m, rfl⟩ t ht
    obtain rfl := SendPhase.looping.inj ht
    exact ⟨hs _ rfl, [], hstock.take⟩
  by_cases hidt : f.kind = .idt
  · apply disciplined_follow hsent
    refine (hemits.of_puts (idt_puts hidt)).mono ?_
    rintro phase ⟨-, bs', -, m, res, rfl⟩ t ht
    cases ht
  by_cases hack : f.kind = .ackSyn
  · apply disciplined_follow hsent
    have hputs : Puts p (handleAsync src p x.store s f) bs [] _ := ackSyn_puts hack
    refine (hemits.of_puts hputs).mono ?_
    rintro phase ⟨hs, bs', -, m, rfl⟩ t ht
    obtain rfl := SendPhase.looping.inj ht
    exact ⟨hs _ rfl, bs, hstock⟩
  · apply disciplined_follow hsent
    have hputs : Puts p (handleAsync src p x.store s f) bs [] _ := other_puts hresyn hidt hack
    refine (hemits.of_puts hputs).mono ?_
    rintro phase ⟨hs, bs', -, m, rfl⟩ t ht
    obtain rfl := SendPhase.looping.inj ht
    exact ⟨hs _ rfl, bs, hstock⟩

lemma disciplined_take (h : Disciplined p x) {o : Occasion} (hroom : Room src p x o) :
    Disciplined p (x.take src p o) := by
  apply take_rule h
  · rintro s hphase rfl hfull
    exact disciplined_turn hphase h hfull hroom
  · rintro s f hphase rfl
    exact disciplined_async hphase h hroom
  · rintro s hphase rfl
    exact disciplined_leave h.sent (cancel_emits (h.looping s hphase).1 (hroom s hphase))
  · rintro s f hphase rfl
    exact disciplined_leave (hear_sent h.sent (.ok f)) (interrupted_emits (hroom.2 s hphase))
  · exact disciplined_failed h.sent

lemma disciplined_start (src : ArticleSource σ) (p : DataParams) (m : Machine) (source : σ)
    (store : MemoryCheckpoints) (cp : Checkpoint) : Disciplined p (start src p m source store cp) := by
  refine ⟨fun e he => absurd he List.not_mem_nil, ?_⟩
  intro s hs
  obtain rfl := SendPhase.looping.inj hs
  exact ⟨.new p, [], .new p⟩

lemma disciplined_run {x : Sending σ} (h : Disciplined p x) {os : List Occasion}
    (hroom : Each (take src p) (Room src p) x os) : Disciplined p (os.foldl (take src p) x) := by
  induction os generalizing x with
  | nil => exact h
  | cons o os ih => exact ih (disciplined_take h hroom.1) hroom.2

section Wide

/-- A packer that has been given the room of an entity. -/
structure Packs (p : DataParams) (k : ArticlePacker) : Prop where
  holds : ∃ ws, k.Holds ws ∧ (k.multiArticle = false → ws = [])
  maxDtfLen : k.maxDtfLen = max (p.maxEntity - p.crcCost) (headerLen + 1)

lemma packs_perform {k : ArticlePacker} (h : Packs p k) (hp : Fits p (headerLen + 1))
    (c : ArticlePacker.Call) :
    Packs p (c.perform k).2 ∧ ∀ f ∈ (c.perform k).1, Fits p f.encodedLen := by
  obtain ⟨ws, hholds, hmono⟩ := h.holds
  obtain ⟨out, ws', hholds', hmax, hmono', hemit, -⟩ := ArticlePacker.perform_spec hholds hmono c
  refine ⟨⟨⟨ws', hholds', hmono'⟩, hmax.trans h.maxDtfLen⟩, ?_⟩
  intro f hf
  have hlen := (hemit f hf).1.2.2
  rw [h.maxDtfLen] at hlen
  rw [Fits] at hp ⊢
  omega

structure Wide (p : DataParams) (x : Sending σ) : Prop where
  looping : ∀ s, x.phase = .looping s → Packs p s.packer ∧ ∃ bs, Stocked p s.entity bs

lemma turn_fits (hp : Fits p 14) (h : Packs p s.packer) (article : Bytes) :
    (∀ f ∈ turnFpdus p s article, Fits p f.encodedLen) ∧
      Packs p ((turnPacker p s article).push
        (onWire p s.compressor s.bytesSinceSync article).2.1).2 := by
  have hseven : Fits p (headerLen + 1) := hp.mono (by decide)
  cases hsync : (onWire p s.compressor s.bytesSinceSync article).1 with
  | false =>
    simp only [turnFpdus, turnPacker, hsync, Bool.false_eq_true, if_false, List.nil_append]
    exact (packs_perform h hseven (.push _)).symm
  | true =>
    have hflush := packs_perform h hseven .flush
    have hpush :=
      packs_perform hflush.1 hseven (.push (onWire p s.compressor s.bytesSinceSync article).2.1)
    have hsyn := Builder.syn_encodedLen_le p.peerId (Nat.mod_lt (s.syncNo + 1) (Nat.two_pow_pos 32))
    simp only [turnFpdus, turnPacker, syncFpdus, hsync, if_true, List.forall_mem_append,
      List.mem_singleton, forall_eq]
    exact ⟨⟨⟨hflush.2, hp.mono (hsyn.trans (by decide))⟩, hpush.2⟩, hpush.1⟩

/-- Where every FPDU fits, every step has room. -/
lemma Wide.room (hp : Fits p 14) (h : Wide p x) (o : Occasion) : Room src p x o := by
  have hseven : Fits p (headerLen + 1) := hp.mono (by decide)
  cases o with
  | reception r =>
    cases r with
    | error e => trivial
    | ok f =>
      have hack : Fits p (Builder.ackIdt p.peerId).encodedLen :=
        hp.mono (Builder.ackIdt_length p.peerId ▸ by decide)
      refine ⟨fun s _ m _ => ⟨fun _ _ => ?_, fun _ => hack⟩, fun s _ m _ _ => hack⟩
      have hlen := Builder.ackResyn_encodedLen_le p.peerId (resumed_lt x.store f)
      exact hp.mono (hlen.trans (by decide))
  | cancellation =>
    intro s _ m _
    exact hp.mono (Builder.idt_length _ _ _).le
  | turn =>
    intro s hs _
    obtain ⟨hpacks, -⟩ := h.looping s hs
    cases hnext : src.nextArticle s.source with
    | none =>
      simp only [endFpdus, List.forall_mem_append, List.mem_singleton, forall_eq]
      exact ⟨(packs_perform hpacks hseven .flush).2,
        hp.mono (Builder.dtfEnd_length p.peerId ▸ by decide)⟩
    | some y =>
      obtain ⟨article, rest⟩ := y
      exact ⟨(turn_fits hp hpacks article).1, .inl hseven⟩

lemma wide_follow {act : Run (SendPhase σ)} {bs fs : List Fpdu} {Q : SendPhase σ → List Fpdu → Prop}
    (hputs : Puts p act bs fs Q)
    (hq : ∀ phase bs', Q phase bs' → ∀ s, phase = .looping s → Packs p s.packer ∧
      Stocked p s.entity bs') :
    Wide p (x.follow act) := by
  constructor
  intro s hs
  rcases x.follow_puts hputs with ⟨e, _, he, -, -⟩ | ⟨_, bs', hphase, -, -⟩
  · rw [he] at hs
    cases hs
  · obtain ⟨hpacks, hstock⟩ := hq _ bs' hphase s hs
    exact ⟨hpacks, bs', hstock⟩

lemma wide_turn (hp : Fits p 14) (hphase : x.phase = .looping s) (h : Wide p x) :
    Wide p (x.follow (advance src p s)) := by
  obtain ⟨hpacks, bs, hstock⟩ := h.looping s hphase
  cases hnext : src.nextArticle s.source with
  | none =>
    rw [advance_end hnext]
    apply wide_follow (endData_puts hstock)
    rintro phase bs' ⟨-, m, rfl⟩ t ht
    cases ht
  | some y =>
    obtain ⟨article, rest⟩ := y
    apply wide_follow (advance_puts hstock hnext)
    rintro phase bs' ⟨s', rfl, hstock', -, hpacker, -⟩ t ht
    obtain rfl := SendPhase.looping.inj ht
    exact ⟨hpacker ▸ (turn_fits hp hpacks article).2, hstock'⟩

lemma wide_async (hp : Fits p 14) (hphase : x.phase = .looping s) (h : Wide p x) (f : Fpdu) :
    Wide p ((x.hear (.ok f)).follow (handleAsync src p x.store s f)) := by
  obtain ⟨hpacks, bs, hstock⟩ := h.looping s hphase
  by_cases hresyn : f.kind = .resyn
  · apply wide_follow (resyn_puts hresyn)
    rintro phase bs' ⟨rfl, m, rfl⟩ t ht
    obtain rfl := SendPhase.looping.inj ht
    have hseven : Fits p (headerLen + 1) := hp.mono (by decide)
    exact ⟨(packs_perform hpacks hseven .flush).1, hstock.take⟩
  by_cases hidt : f.kind = .idt
  · apply wide_follow (idt_puts hidt)
    rintro phase bs' ⟨-, m, res, rfl⟩ t ht
    cases ht
  by_cases hack : f.kind = .ackSyn
  · have hputs : Puts p (handleAsync src p x.store s f) bs [] _ := ackSyn_puts hack
    apply wide_follow hputs
    rintro phase bs' ⟨rfl, m, rfl⟩ t ht
    obtain rfl := SendPhase.looping.inj ht
    exact ⟨hpacks, hstock⟩
  · have hputs : Puts p (handleAsync src p x.store s f) bs [] _ := other_puts hresyn hidt hack
    apply wide_follow hputs
    rintro phase bs' ⟨rfl, m, rfl⟩ t ht
    obtain rfl := SendPhase.looping.inj ht
    exact ⟨hpacks, hstock⟩

lemma wide_leave {act : Run (SendPhase σ)} {bs fs : List Fpdu} {Q : SendPhase σ → List Fpdu → Prop}
    (hputs : Puts p act bs fs Q) (hq : ∀ phase bs', Q phase bs' → ∀ s, phase ≠ .looping s) :
    Wide p (x.follow act) :=
  wide_follow hputs fun phase bs' hphase s hs => absurd hs (hq phase bs' hphase s)

lemma wide_take (hp : Fits p 14) (h : Wide p x) (o : Occasion) : Wide p (x.take src p o) := by
  apply take_rule h
  · intro s hphase _ _
    exact wide_turn hp hphase h
  · intro s f hphase _
    exact wide_async hp hphase h f
  · intro s hphase _
    obtain ⟨-, bs, hstock⟩ := h.looping s hphase
    apply wide_leave (cancel_puts hstock)
    rintro phase bs' ⟨-, m, rfl⟩ s'
    simp
  · intro s f _ _
    apply wide_leave (interrupted_puts f)
    rintro phase bs' ⟨-, ⟨m, res, rfl⟩ | ⟨m, rfl⟩⟩ s'
    · simp
    · simp
  · intro e
    have hputs : Puts p (Act.lift (.error e)) [] [] fun (_ : SendPhase σ) _ => False :=
      puts_lift (by simp)
    exact wide_leave hputs (by simp)

lemma each_room (hp : Fits p 14) {x : Sending σ} (h : Wide p x) (os : List Occasion) :
    Each (take src p) (Room src p) x os := by
  induction os generalizing x with
  | nil => trivial
  | cons o os ih => exact ⟨h.room hp o, ih (wide_take hp h o)⟩

lemma wide_start (hmax : p.maxEntity ≤ 65535) (src : ArticleSource σ) (m : Machine) (source : σ)
    (store : MemoryCheckpoints) (cp : Checkpoint) : Wide p (start src p m source store cp) := by
  constructor
  intro s hs
  obtain rfl := SendPhase.looping.inj hs
  have hholds :=
    ArticlePacker.new_holds p.peerId ((Nat.sub_le p.maxEntity p.crcCost).trans hmax) p.multiArticle
  exact ⟨⟨⟨[], hholds, fun _ => rfl⟩, rfl⟩, [], .new p⟩

end Wide

def AllMeasured (p : DataParams) (x : Sending σ) : Prop :=
  ∀ e, Traffic.sent e ∈ x.traffic → e ≠ [] ∧ e.length ≤ p.maxEntity

lemma run_each_measured (src : ArticleSource σ) (m : Machine) (source : σ) (store : MemoryCheckpoints)
    (cp : Checkpoint) (os : List Occasion)
    (hroom : Each (take src p) (Room src p) (start src p m source store cp) os) :
    AllMeasured p (run src p m source store cp os) := by
  intro e he
  have hmeasured := (disciplined_run (disciplined_start src p m source store cp) hroom).sent e he
  exact ⟨hmeasured.nonempty, hmeasured.length⟩

/-- The entity of an IDT, sent at once. -/
lemma idt_measured
    (h : ∀ os, AllMeasured p (run VecSource.ops p ⟨.requester, .tde02A⟩ (.new []) .empty .default os)) :
    Fits p 14 := by
  have hsent : Traffic.sent (Frame.image p.crc (idtFpdu p)) ∈
      (run VecSource.ops p ⟨.requester, .tde02A⟩ (.new []) .empty .default [.cancellation]).traffic := by
    have hcode : cancelCode p = .cancelByRequester ∨ cancelCode p = .cancelByServer := by
      rw [cancelCode]
      split
      · exact .inl rfl
      · exact .inr rfl
    have hsingle := Frame.singleEntity_ok (Builder.idt_sound p.peerId hcode) p.crc
    have heffects :
        (SendData.cancel p (SendData.start VecSource.ops p ⟨.requester, .tde02A⟩
        (.new []) .default)).effects = [.send (Frame.image p.crc (idtFpdu p))] := by
      have hcount : ¬ 0 < (EntityBuilder.new p.maxEntity p.crc).count := Nat.lt_irrefl 0
      simp only [SendData.cancel, SendData.start, hcount, if_false, interrupt, sendFpdu, hsingle]
      rfl
    show _ ∈ (Sending.follow _ _).traffic
    rw [follow_traffic, heffects]
    exact List.mem_singleton_self _
  have hlen := (h [.cancellation] _ hsent).2
  rw [image_length_cost] at hlen
  exact hlen

/-- No entity is empty or longer than agreed in a run in which every FPDU put into an entity fits an
entity of its own. An entity that holds an IDT is enough for all of them. -/
theorem run_measured (p : DataParams) (hmax : p.maxEntity ≤ 65535) :
    (∀ {σ : Type} (src : ArticleSource σ) (m : Machine) (source : σ) (store : MemoryCheckpoints)
      (cp : Checkpoint) (os : List Occasion), Each (take src p) (Room src p)
      (start src p m source store cp) os →
        AllMeasured p (run src p m source store cp os)) ∧
    ((∀ {σ : Type} (src : ArticleSource σ) (m : Machine) (source : σ) (store : MemoryCheckpoints)
      (cp : Checkpoint) (os : List Occasion), AllMeasured p (run src p m source store cp os)) ↔
      14 + p.crcCost ≤ p.maxEntity) := by
  refine ⟨?_, ?_, ?_⟩
  · intro σ src m source store cp os hroom
    exact run_each_measured src m source store cp os hroom
  · intro h
    exact idt_measured fun os => h _ _ _ _ _ os
  · intro hp σ src m source store cp os
    exact run_each_measured src m source store cp os
      (each_room hp (wide_start hmax src m source store cp) os)

/-- Too narrow for an IDT, but not for an article and the DTF.END. -/
def narrowParams : DataParams := { kilobyteParams with maxEntity := 12 }

theorem run_measured_narrow :
    AllMeasured narrowParams
      (run VecSource.ops narrowParams ⟨.requester, .tde02A⟩ (.new [[7]]) .empty .default
        [.turn, .turn]) := by
  refine (run_measured narrowParams (by decide)).1 VecSource.ops ⟨.requester, .tde02A⟩ (.new [[7]])
    .empty .default _ ⟨?_, ?_, trivial⟩
  · intro s hs _
    obtain rfl := SendPhase.looping.inj hs
    show (∀ f ∈ turnFpdus narrowParams _ [7], Fits narrowParams f.encodedLen) ∧ Begun narrowParams _ [7]
    exact ⟨by decide, .inl (by decide)⟩
  · intro s hs _
    obtain rfl := SendPhase.looping.inj hs
    show ∀ f ∈ endFpdus narrowParams _, Fits narrowParams f.encodedLen
    decide

/-- With entities of seven bytes the DTF.END of a file without articles finds an empty builder
too small for it. -/
theorem run_oversized :
    ¬ ∀ (p : DataParams), 7 ≤ p.maxEntity → ∀ {σ : Type} (src : ArticleSource σ) (m : Machine)
    (source : σ) (store : MemoryCheckpoints) (cp : Checkpoint) (os : List Occasion),
    AllMeasured p (run src p m source store cp os) := by
  intro h
  have hall :=
    h { kilobyteParams with maxEntity := 7 } (by decide) VecSource.ops
      ⟨.requester, .tde02A⟩ (.new []) .empty
    .default [.turn]
  exact (hall [] (by decide +kernel)).1 rfl

end Sending

end PesitWizard.Io
