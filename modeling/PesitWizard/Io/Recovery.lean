import PesitWizard.Core.Reference
import PesitWizard.Io.Outgoing
import PesitWizard.Io.ReceiveData
import PesitWizard.Library.Moves

/-! Compressed articles that are sent again after a RESYN. The sender and the receiver keep a reference
each, and what was lost before the RESYN is in that of the sender only. -/

namespace PesitWizard.Io

open PesitWizard.Core Library SendData Compress

/-- An article in a turn of the sender: its form on the link, and whether this form may refer to
earlier articles. -/
structure Offer where
  article : Bytes
  wire : Bytes
  refers : Bool

def SendData.refers (p : DataParams) (compressor : Option Compressor) (bytesSinceSync : ℕ)
    (article : Bytes) : Bool :=
  match compressor with
  | none => false
  | some c => c.mode.refers && !(onWire p compressor bytesSinceSync article).1

def SendData.offer {σ : Type} (p : DataParams) (s : SendState σ) (article : Bytes) : Offer :=
  ⟨article, (onWire p s.compressor s.bytesSinceSync article).2.1,
    refers p s.compressor s.bytesSinceSync article⟩

namespace Sending

variable {σ : Type} (src : ArticleSource σ) (p : DataParams) (x : Sending σ)

/-- What a sender puts on its link of an article, if it does. -/
def offered : Occasion → Option Offer
  | .turn =>
    match x.phase, (x.take src p .turn).phase with
    | .looping s, .looping _ =>
      if windowFull p s then none else (src.nextArticle s.source).map fun y => offer p s y.1
    | _, _ => none
  | _ => none

/-- Whether a sender rewinds and answers with an ACK(RESYN). -/
def answersResyn : Occasion → Bool
  | .reception (.ok f) =>
    match x.phase, (x.take src p (.reception (.ok f))).phase with
    | .looping _, .looping _ => f.kind = .resyn
    | _, _ => false
  | _ => false

end Sending

namespace ReceiveData

def decode (decompressor : Option Decompressor) (wire : Bytes) :
    Except DecompressError (Bytes × Option Decompressor) :=
  match decompressor with
  | none => .ok (wire, none)
  | some d => (d.decompress wire).map fun (plain, d) => (plain, some d)

lemma takeArticle_decode (s : RecvState) (wire : Bytes) : takeArticle s wire =
    match decode s.decompressor wire with
    | .ok (plain, d) => ⟨[.write plain], .ok { s with
        decompressor := d
        dataBytes := s.dataBytes + wire.length
        articles := s.articles + 1 }⟩
    | .error e => ⟨[], .error (.decompress e)⟩ := by
  rw [takeArticle]
  cases s.decompressor with
  | none => rfl
  | some d =>
    simp only [decode]
    cases d.decompress wire <;> rfl

end ReceiveData

/-- The decompressor of a receiver that reads articles, or discards everything until the ACK(RESYN), or
has failed. The rewinding of the receiver leaves it as it is. -/
inductive Decoding
  | reading (d : Option Decompressor)
  | discarding (d : Option Decompressor)
  | failed

namespace Decoding

def damage : Decoding → Decoding
  | reading d => discarding d
  | l => l

def resume : Decoding → Decoding
  | discarding d => reading d
  | l => l

def reads : Decoding → Bool
  | reading _ => true
  | _ => false

end Decoding

/-- What happens: something to the sender, or an entity on its way to the receiver is damaged, so that
nothing it holds and nothing behind it is read before the ACK(RESYN). -/
inductive Incident
  | occasion (o : Occasion)
  | damage

/-- A sender and the decompressor of the receiver, with the articles that were sent, those that reached
the decompressor, and what it made of each of them. -/
structure Recovery (σ : Type) where
  sender : Sending σ
  receiver : Decoding
  sent : List Bytes
  reached : List Bytes
  decompressed : List (Bytes × Bytes)

namespace Recovery

variable {σ : Type} (src : ArticleSource σ) (p : DataParams)

def start (m : Machine) (source : σ) (store : MemoryCheckpoints) (cp : Checkpoint) : Recovery σ :=
  ⟨.start src p m source store cp, .reading (ReceiveData.start p m cp).decompressor, [], [], []⟩

def pass (x : Recovery σ) (y : Offer) : Recovery σ :=
  let x := { x with sent := x.sent ++ [y.article] }
  match x.receiver with
  | .reading d =>
    match ReceiveData.decode d y.wire with
    | .ok (plain, d) =>
      { x with
        receiver := .reading d
        reached := x.reached ++ [y.article]
        decompressed := x.decompressed ++ [(y.article, plain)] }
    | .error _ => { x with receiver := .failed }
  | _ => x

def take (x : Recovery σ) : Incident → Recovery σ
  | .damage => { x with receiver := x.receiver.damage }
  | .occasion o =>
    let y := { x with sender := x.sender.take src p o }
    match x.sender.offered src p o with
    | some a => y.pass a
    | none => if x.sender.answersResyn src p o then { y with receiver := y.receiver.resume } else y

/-- The receiver gets back each article that reaches its decompressor. -/
def Restored (x : Recovery σ) : Prop := ∀ y ∈ x.decompressed, y.2 = y.1

/-- An article that reaches the receiver in a form that refers to earlier ones agrees with those that
were sent only where they have been received too. -/
def Independent (x : Recovery σ) : Incident → Prop
  | .damage => True
  | .occasion o => ∀ y, x.sender.offered src p o = some y → x.receiver.reads = true → y.refers = true →
      y.article.length ≤ max p.maxArticle 1 → Agrees x.sent x.reached y.article

end Recovery

section Forms

variable {p : DataParams} {sent : List Bytes} {c : Compressor} {n : ℕ} {a : Bytes}

/-- The form of an article on the link is that of one mode, under what the sender remembers if
it refers to that. -/
lemma onWire_form (h : Remembers sent c.reference) (p : DataParams) (n : ℕ) (a : Bytes) :
    ∃ mode ss, (onWire p (some c) n a).2.1 = Compress.compress mode a ss ∧ a.length ≤ ss.length ∧
      mode.refers = refers p (some c) n a ∧ (mode.refers = true → Remembers sent ss) := by
  rw [SendData.refers]
  cases hsync : needsSync p n (c.compress a).1.length with
  | false =>
    rw [onWire_plain hsync]
    exact ⟨c.mode, c.grown a, rfl, c.le_grown a, (Bool.and_true _).symm, fun _ => h.grown a⟩
  | true =>
    rw [onWire_sync hsync]
    exact ⟨.literal, _, rfl, Compressor.le_grown _ a, (Bool.and_false _).symm, nofun⟩

lemma onWire_remembers (h : Remembers sent c.reference) (p : DataParams) (n : ℕ) (a : Bytes) :
    ∃ c', (onWire p (some c) n a).2.2 = some c' ∧ Remembers (sent ++ [a]) c'.reference := by
  have hfirst : Remembers (sent ++ [a]) (c.compress a).2.reference := (h.grown a).update a
  cases hsync : needsSync p n (c.compress a).1.length with
  | false =>
    rw [onWire_plain hsync]
    exact ⟨_, rfl, hfirst⟩
  | true =>
    rw [onWire_sync hsync]
    refine ⟨_, rfl, Remembers.twice ?_⟩
    exact (Remembers.grown (c := (c.compress a).2.syncPoint) hfirst a).update a

def Holds (p : DataParams) (sent : List Bytes) : Option Compressor → Prop
  | none => p.compression = .none
  | some c => p.compression ≠ .none ∧ Remembers sent c.reference

def Keeps (p : DataParams) (reached : List Bytes) : Option Decompressor → Prop
  | none => p.compression = .none
  | some d => p.compression ≠ .none ∧ d.maxArticle = max p.maxArticle 1 ∧
      d.reference.length = max p.maxArticle 1 ∧ Remembers reached d.reference

variable {reached : List Bytes} {compressor : Option Compressor} {d : Option Decompressor}

lemma Holds.onWire (h : Holds p sent compressor) (n : ℕ) (a : Bytes) :
    Holds p (sent ++ [a]) (onWire p compressor n a).2.2 := by
  cases compressor with
  | none =>
    rw [onWire_none]
    exact h
  | some c =>
    obtain ⟨c', hc', hremembers⟩ := onWire_remembers h.2 p n a
    rw [hc']
    exact ⟨h.1, hremembers⟩

lemma Holds.syncPoint (h : Holds p sent compressor) :
    Holds p sent (compressor.map Compressor.syncPoint) := by
  cases compressor with
  | none => exact h
  | some c => exact h

lemma Keeps.decode (h : Holds p sent compressor) (hd : Keeps p reached d) (n : ℕ) (a : Bytes) :
    (∃ e, ReceiveData.decode d (SendData.onWire p compressor n a).2.1 = .error e ∧
      ¬ a.length ≤ max p.maxArticle 1) ∨
    ∃ plain d', ReceiveData.decode d (SendData.onWire p compressor n a).2.1 = .ok (plain, d') ∧
      (plain = a ↔
        (refers p compressor n a = true → a.length ≤ max p.maxArticle 1 → Agrees sent reached a)) ∧
      (plain = a → Keeps p (reached ++ [a]) d') := by
  cases compressor with
  | none =>
    cases d with
    | some d => exact absurd h hd.1
    | none =>
      rw [onWire_none]
      exact .inr ⟨a, none, rfl, iff_of_true rfl nofun, fun _ => hd⟩
  | some c =>
    cases d with
    | none => exact absurd hd h.1
    | some d =>
      obtain ⟨hnone, hmax, hlen, hremembers⟩ := hd
      obtain ⟨mode, ss, hwire, hss, hmode, hsent⟩ := onWire_form h.2 p n a
      simp only [ReceiveData.decode, Decompressor.decompress, hwire, ← hmode]
      by_cases ha : a.length ≤ max p.maxArticle 1
      · rw [decompress_compress mode hss (hlen ▸ ha) (hmax ▸ ha)]
        refine .inr ⟨_, _, rfl, ?_, ?_⟩
        · rw [received_eq_iff hsent hremembers hss (hlen ▸ ha)]
          exact forall_congr' fun _ => ⟨fun hagrees _ => hagrees, fun hagrees => hagrees ha⟩
        · intro hplain
          change received mode a ss d.reference = a at hplain
          simp only [hplain]
          exact ⟨hnone, hmax, (update_length _ _ (hlen ▸ ha)).trans hlen, hremembers.update a⟩
      · obtain ⟨e, he⟩ := decompress_tooLong mode d.reference hss (hmax ▸ not_le.mp ha)
        rw [he]
        exact .inl ⟨e, rfl, ha⟩

end Forms

namespace Sending

variable {σ : Type} {src : ArticleSource σ} {p : DataParams} {x : Sending σ} {s s' : SendState σ}
    {bs fs : List Fpdu}

lemma puts_looping {act : Run (SendPhase σ)} {Q : SendPhase σ → List Fpdu → Prop}
    (h : Puts p act bs fs Q) (hs : (x.follow act).phase = .looping s') : ∃ bs', Q (.looping s') bs' := by
  obtain ⟨e, zs, hfailed, -, -⟩ | ⟨zs, bs', hq, -, -⟩ := follow_puts x h
  · rw [hs] at hfailed
    cases hfailed
  · rw [hs] at hq
    exact ⟨bs', hq⟩

/-- A reception leaves the compressor alone or is a RESYN. -/
lemma handleAsync_looping {f : Fpdu} (hstock : Stocked p s.entity bs)
    (h : (x.follow (handleAsync src p x.store s f)).phase = .looping s') :
    (∃ bs', Stocked p s'.entity bs') ∧
      (s'.compressor = s.compressor ∨ s'.compressor = s.compressor.map Compressor.syncPoint) := by
  by_cases hresyn : f.kind = .resyn
  · obtain ⟨-, -, m, hs'⟩ := puts_looping (resyn_puts hresyn) h
    obtain rfl := SendPhase.looping.inj hs'
    exact ⟨⟨[], hstock.take⟩, .inr rfl⟩
  · by_cases hidt : f.kind = .idt
    · obtain ⟨-, -, m, res, hs'⟩ := puts_looping (idt_puts hidt) h
      cases hs'
    · by_cases hack : f.kind = .ackSyn
      · have hputs : Puts p (handleAsync src p x.store s f) bs [] _ := ackSyn_puts hack
        obtain ⟨-, -, m, hs'⟩ := puts_looping hputs h
        obtain rfl := SendPhase.looping.inj hs'
        exact ⟨⟨bs, hstock⟩, .inl rfl⟩
      · have hputs : Puts p (handleAsync src p x.store s f) bs [] _ := other_puts hresyn hidt hack
        obtain ⟨-, -, m, hs'⟩ := puts_looping hputs h
        obtain rfl := SendPhase.looping.inj hs'
        exact ⟨⟨bs, hstock⟩, .inl rfl⟩

/-- The compressor of a sender after a turn is the one that `onWire` says, whatever is in its builder. -/
lemma turn_looping (hphase : x.phase = .looping s) (hstock : Stocked p s.entity bs)
    (h : (x.take src p .turn).phase = .looping s') :
    (∃ bs', Stocked p s'.entity bs') ∧
      ((x.offered src p .turn = none ∧ s'.compressor = s.compressor) ∨
        ∃ a, x.offered src p .turn = some (offer p s a) ∧
          s'.compressor = (onWire p s.compressor s.bytesSinceSync a).2.2) := by
  simp only [offered, hphase, h]
  simp only [take, hphase] at h
  cases hfull : windowFull p s with
  | true =>
    rw [hfull, if_pos rfl, hphase] at h
    obtain rfl := SendPhase.looping.inj h
    exact ⟨⟨bs, hstock⟩, .inl ⟨rfl, rfl⟩⟩
  | false =>
    rw [hfull, if_neg Bool.false_ne_true] at h
    cases hnext : src.nextArticle s.source with
    | none =>
      rw [advance_end hnext] at h
      obtain ⟨-, -, m, hs'⟩ := puts_looping (endData_puts hstock) h
      cases hs'
    | some y =>
      obtain ⟨bs', t, hs', hstock', hturned, -, -⟩ := puts_looping (advance_puts hstock hnext) h
      obtain rfl := SendPhase.looping.inj hs'
      exact ⟨⟨bs', hstock'⟩, .inr ⟨y.1, rfl, hturned.compressor⟩⟩

/-- A sender is in its loop only if it has never left it. -/
lemma take_looping {o : Occasion} (hstock : ∀ s, x.phase = .looping s → ∃ bs, Stocked p s.entity bs)
    (ho : o ≠ .turn) (h : (x.take src p o).phase = .looping s') :
    ∃ s, x.phase = .looping s ∧ (∃ bs', Stocked p s'.entity bs') ∧
      (s'.compressor = s.compressor ∨ s'.compressor = s.compressor.map Compressor.syncPoint) := by
  refine take_rule (P := fun y => y.phase = .looping s' → ∃ s, x.phase = .looping s ∧
    (∃ bs', Stocked p s'.entity bs') ∧
    (s'.compressor = s.compressor ∨ s'.compressor = s.compressor.map Compressor.syncPoint))
    ?_ ?_ ?_ ?_ ?_ ?_ h
  · intro hphase
    exact ⟨s', hphase, hstock s' hphase, .inl rfl⟩
  · intro s _ hturn
    exact absurd hturn ho
  · intro s f hphase _ hs'
    obtain ⟨bs, hbs⟩ := hstock s hphase
    exact ⟨s, hphase, handleAsync_looping (x := x.hear (.ok f)) hbs hs'⟩
  · intro s hphase _ hs'
    obtain ⟨bs, hbs⟩ := hstock s hphase
    obtain ⟨-, -, m, hinterrupting⟩ := puts_looping (cancel_puts hbs) hs'
    cases hinterrupting
  · intro s f _ _ hs'
    obtain ⟨-, -, ⟨m, res, hended⟩ | ⟨m, hinterrupting⟩⟩ := puts_looping (interrupted_puts f) hs'
    · cases hended
    · cases hinterrupting
  · intro e hs'
    cases hs'

end Sending

namespace Recovery

variable {σ : Type} {src : ArticleSource σ} {p : DataParams} {x : Recovery σ}

/-- Each end remembers the articles that it has seen. -/
structure Tracks (p : DataParams) (x : Recovery σ) : Prop where
  stocked : ∀ s, x.sender.phase = .looping s → ∃ bs, Stocked p s.entity bs
  sender : ∀ s, x.sender.phase = .looping s → Holds p x.sent s.compressor
  receiver : ∀ d, x.receiver = .reading d ∨ x.receiver = .discarding d → Keeps p x.reached d

lemma tracks_start (src : ArticleSource σ) (p : DataParams) (m : Machine) (source : σ)
    (store : MemoryCheckpoints) (cp : Checkpoint) : (start src p m source store cp).Tracks p := by
  have hzeros : Remembers [] (List.replicate (max (max p.maxArticle 1) 1) 0) := Remembers.zeros _
  refine ⟨?_, ?_, ?_⟩
  · intro s hs
    obtain rfl := SendPhase.looping.inj hs
    exact ⟨[], Stocked.new p⟩
  · intro s hs
    obtain rfl := SendPhase.looping.inj hs
    show Holds p []
      (if p.compression = .none then none else some (.new p.compression (max p.maxArticle 1)))
    split
    · assumption
    · exact ⟨by assumption, hzeros⟩
  · intro d hd
    obtain rfl : (ReceiveData.start p m cp).decompressor = d := by
      rcases hd with hd | hd
      · exact Decoding.reading.inj hd
      · cases hd
    show Keeps p [] (if p.compression = .none then none else some (.new (max p.maxArticle 1)))
    split
    · assumption
    · refine ⟨by assumption, ?_, ?_, hzeros⟩
      · exact max_eq_left (le_max_right _ _)
      · exact List.length_replicate.trans (max_eq_left (le_max_right _ _))

lemma Tracks.damage (h : x.Tracks p) :
    ({ x with receiver := x.receiver.damage } : Recovery σ).Tracks p := by
  refine ⟨h.stocked, h.sender, ?_⟩
  intro d hd
  apply h.receiver d
  cases hx : x.receiver with
  | reading d' => simpa [hx, Decoding.damage] using hd
  | discarding d' => simpa [hx, Decoding.damage] using hd
  | failed => simp [hx, Decoding.damage] at hd

lemma Tracks.resume (h : x.Tracks p) :
    ({ x with receiver := x.receiver.resume } : Recovery σ).Tracks p := by
  refine ⟨h.stocked, h.sender, ?_⟩
  intro d hd
  apply h.receiver d
  cases hx : x.receiver with
  | reading d' => simpa [hx, Decoding.resume] using hd
  | discarding d' => simpa [hx, Decoding.resume] using hd
  | failed => simp [hx, Decoding.resume] at hd

/-- The sender goes on without an article. -/
lemma Tracks.quiet (h : x.Tracks p) {o : Occasion} (hnone : x.sender.offered src p o = none) :
    ({ x with sender := x.sender.take src p o } : Recovery σ).Tracks p := by
  suffices hkeeps : ∀ s', (x.sender.take src p o).phase = .looping s' →
      (∃ bs, Stocked p s'.entity bs) ∧ Holds p x.sent s'.compressor from
    ⟨fun s' hs' => (hkeeps s' hs').1, fun s' hs' => (hkeeps s' hs').2, h.receiver⟩
  intro s' hs'
  by_cases ho : o = .turn
  · subst ho
    cases hphase : x.sender.phase with
    | looping s =>
      obtain ⟨bs, hbs⟩ := h.stocked s hphase
      obtain ⟨hstock, ⟨-, hc⟩ | ⟨a, ha, -⟩⟩ := Sending.turn_looping hphase hbs hs'
      · exact ⟨hstock, hc ▸ h.sender s hphase⟩
      · rw [hnone] at ha
        cases ha
    | interrupting s => simp [Sending.take, hphase] at hs'
    | ended m res => simp [Sending.take, hphase] at hs'
    | failed e => simp [Sending.take, hphase] at hs'
  · obtain ⟨s, hphase, hstock, hc | hc⟩ := Sending.take_looping h.stocked ho hs'
    · exact ⟨hstock, hc ▸ h.sender s hphase⟩
    · exact ⟨hstock, hc ▸ (h.sender s hphase).syncPoint⟩

lemma Tracks.offered (h : x.Tracks p) {o : Occasion} {y : Offer}
    (hy : x.sender.offered src p o = some y) :
    ∃ (s : SendState σ) (a : Bytes), y = offer p s a ∧ Holds p x.sent s.compressor ∧
      ∀ s', (x.sender.take src p o).phase = .looping s' →
        (∃ bs, Stocked p s'.entity bs) ∧ Holds p (x.sent ++ [a]) s'.compressor := by
  cases o with
  | reception r => cases hy
  | cancellation => cases hy
  | turn =>
    cases hphase : x.sender.phase with
    | looping s =>
      obtain ⟨bs, hbs⟩ := h.stocked s hphase
      cases hnext : (x.sender.take src p .turn).phase with
      | looping s' =>
        obtain ⟨hstock, ⟨hnone, -⟩ | ⟨a, ha, hc⟩⟩ := Sending.turn_looping hphase hbs hnext
        · rw [hnone] at hy
          cases hy
        · rw [ha] at hy
          refine ⟨s, a, (Option.some.inj hy).symm, h.sender s hphase, ?_⟩
          intro t ht
          obtain rfl := SendPhase.looping.inj ht
          exact ⟨hstock, hc ▸ (h.sender s hphase).onWire _ a⟩
      | interrupting t => simp [Sending.offered, hphase, hnext] at hy
      | ended m res => simp [Sending.offered, hphase, hnext] at hy
      | failed e => simp [Sending.offered, hphase, hnext] at hy
    | interrupting s => simp [Sending.offered, hphase] at hy
    | ended m res => simp [Sending.offered, hphase] at hy
    | failed e => simp [Sending.offered, hphase] at hy

lemma restored_snoc (a plain : Bytes) {ys : List (Bytes × Bytes)} (h : ∀ y ∈ ys, y.2 = y.1) :
    (∀ y ∈ ys ++ [(a, plain)], y.2 = y.1) ↔ plain = a := by
  rw [List.forall_mem_append]
  simp only [List.forall_mem_singleton]
  exact and_iff_right h

/-- An article reaches the decompressor or is lost. -/
lemma Tracks.pass (h : x.Tracks p) (hgood : x.Restored) {o : Occasion} {y : Offer}
    (hy : x.sender.offered src p o = some y) :
    ((({ x with sender := x.sender.take src p o } : Recovery σ).pass y).Restored ↔
      (x.receiver.reads = true → y.refers = true → y.article.length ≤ max p.maxArticle 1 →
        Agrees x.sent x.reached y.article)) ∧
      ((({ x with sender := x.sender.take src p o } : Recovery σ).pass y).Restored →
        (({ x with sender := x.sender.take src p o } : Recovery σ).pass y).Tracks p) := by
  obtain ⟨s, a, rfl, hholds, hnext⟩ := h.offered hy
  have hstock := fun s' hs' => (hnext s' hs').1
  have hsender := fun s' hs' => (hnext s' hs').2
  cases hrec : x.receiver with
  | reading d =>
    obtain ⟨e, he, hlong⟩ | ⟨plain, d', hok, hplain, hkeeps⟩ :=
      Keeps.decode hholds (h.receiver d (.inl hrec)) s.bytesSinceSync a
    · simp only [Recovery.pass, offer, he]
      refine ⟨iff_of_true hgood fun _ _ hle => absurd hle hlong, fun _ => ⟨hstock, hsender, ?_⟩⟩
      rintro d (hd | hd) <;> cases hd
    · simp only [Recovery.pass, offer, hok]
      have hiff := restored_snoc a plain hgood
      refine ⟨hiff.trans (hplain.trans ⟨fun hagrees _ => hagrees, fun hagrees => hagrees rfl⟩), ?_⟩
      intro hrestored
      refine ⟨hstock, hsender, ?_⟩
      rintro d (hd | hd)
      · obtain rfl := Decoding.reading.inj hd
        exact hkeeps (hiff.mp hrestored)
      · cases hd
  | discarding d =>
    simp only [Recovery.pass]
    refine ⟨iff_of_true hgood nofun, fun _ => ⟨hstock, hsender, ?_⟩⟩
    intro d' hd'
    exact h.receiver d' (hrec ▸ hd')
  | failed =>
    simp only [Recovery.pass]
    refine ⟨iff_of_true hgood nofun, fun _ => ⟨hstock, hsender, ?_⟩⟩
    intro d' hd'
    exact h.receiver d' (hrec ▸ hd')

lemma Tracks.take (h : x.Tracks p) (hgood : x.Restored) (i : Incident) :
    ((x.take src p i).Restored ↔ x.Independent src p i) ∧
    (x.Independent src p i → (x.take src p i).Tracks p) := by
  cases i with
  | damage => exact ⟨iff_of_true hgood trivial, fun _ => h.damage⟩
  | occasion o =>
    cases hoffered : x.sender.offered src p o with
    | some y =>
      obtain ⟨hiff, htracks⟩ := h.pass hgood hoffered
      simp only [Recovery.take, Independent, hoffered, Option.some.injEq, forall_eq']
      exact ⟨hiff, fun hp => htracks (hiff.mpr hp)⟩
    | none =>
      simp only [Recovery.take, Independent, hoffered]
      have hquiet := h.quiet hoffered
      split
      · exact ⟨iff_of_true hgood nofun, fun _ => hquiet.resume⟩
      · exact ⟨iff_of_true hgood nofun, fun _ => hquiet⟩

lemma restored_of_take {i : Incident} (h : (x.take src p i).Restored) : x.Restored := by
  have hpass (z : Recovery σ) (y : Offer) : ∀ w ∈ z.decompressed, w ∈ (z.pass y).decompressed := by
    intro w hw
    simp only [Recovery.pass]
    split
    · split
      · exact List.mem_append_left _ hw
      · exact hw
    · exact hw
  intro w hw
  apply h w
  cases i with
  | damage => exact hw
  | occasion o =>
    simp only [Recovery.take]
    split
    · exact hpass _ _ w hw
    · split
      · exact hw
      · exact hw

/-- Whatever is lost and resent, the receiver gets back the articles of the source as long as each
article that refers to earlier ones agrees with lost ones only where it would agree without them. -/
theorem restored_iff (src : ArticleSource σ) (p : DataParams) (m : Machine) (source : σ)
    (store : MemoryCheckpoints) (cp : Checkpoint) (is : List Incident) :
    (is.foldl (take src p) (start src p m source store cp)).Restored ↔
      Each (take src p) (Independent src p) (start src p m source store cp) is := by
  apply kept_iff (Tracks p)
  · exact fun x i => restored_of_take
  · exact fun x i hinv hgood => hinv.take hgood i
  · exact tracks_start src p m source store cp
  · exact nofun

/-- A transfer that is restarted at point 1, behind the first of three articles. The third article is
lost; it is longer than the second one, which is sent before it again. -/
def resent : Recovery VecSource :=
  [.occasion .turn, .damage, .occasion .turn,
    .occasion (.reception (.ok (Builder.resyn 1 .transmissionError 1))),
    .occasion .turn, .occasion .turn].foldl
    (take VecSource.ops ⟨1, ⟨1, 1⟩, true, .vertical, true, 512, false, 2, .requester⟩)
    (start VecSource.ops ⟨1, ⟨1, 1⟩, true, .vertical, true, 512, false, 2, .requester⟩
      ⟨.requester, .tde02A⟩ (.new [[5], [1], [9, 7]])
      (MemoryCheckpoints.empty.record ⟨1, 1, 1, 1⟩) ⟨1, 1, 1, 1⟩)

theorem resent_misread :
    resent.decompressed = [([1], [1]), ([1], [1]), ([9, 7], [9, 0])] ∧ ¬ resent.Restored := by
  have hlast : resent.decompressed = [([1], [1]), ([1], [1]), ([9, 7], [9, 0])] := by decide +kernel
  refine ⟨hlast, fun h => ?_⟩
  have := h ([9, 7], [9, 0]) (hlast ▸ by simp)
  revert this
  decide

end Recovery

end PesitWizard.Io
