import PesitWizard.Io.Lossless

/-! A data phase that either end may interrupt: what the receiver gets is bounded by what the sender has
announced and read. -/

namespace PesitWizard.Io

open PesitWizard.Core Library

namespace Reception

variable {τ : Type} {ops : ArticleSink τ} {p : DataParams} {x : Reception τ}

def Deaf (phase : RecvPhase) : Prop := (∀ r, phase ≠ .receiving r) ∧ Calm phase

lemma Reaction.deaf {pos : Position} {phase next : RecvPhase} {ws : List Effect}
    (h : Reaction p pos phase ws next) (hphase : Deaf phase) :
    Deaf next ∧ ∀ w ∈ ws, ∃ e, w = .send e := by
  cases h with
  | articles _ hheard hlevel hcalm =>
    rcases hheard with rfl | ⟨r, hr⟩
    · refine ⟨⟨?_, hcalm⟩, by simp⟩
      intro r' hr'
      obtain ⟨r, hr, -⟩ := hlevel r' hr'
      exact hphase.1 r hr
    · exact absurd hr (hphase.1 r)
  | point hr _ _ _ => exact absurd hr (hphase.1 _)
  | interruption hover hcalm =>
    refine ⟨⟨hover, hcalm⟩, ?_⟩
    intro w hw
    exact ⟨_, List.mem_singleton.mp hw⟩

lemma performAll_sends {ws : List Effect} (h : ∀ w ∈ ws, ∃ e, w = .send e) (x : Reception τ) :
    (x.performAll ops ws).Grows x := by
  induction ws generalizing x with
  | nil => exact .refl x
  | cons w ws ih =>
    rw [List.forall_mem_cons] at h
    obtain ⟨e, rfl⟩ := h.1
    exact ih h.2 (x.perform ops (.send e))

variable (ops) in
lemma take_deaf (hx : Deaf x.phase) {r : Except SessionError Fpdu} (hr : Tolerable r) :
    (x.take ops p r).Grows x ∧ Deaf (x.take ops p r).phase := by
  rcases take_cases ops (p := p) hx.2 hr with h | ⟨ws, next, hreact, h⟩
  · rw [h]
    exact ⟨.refl x, hx⟩
  · obtain ⟨hnext, hsends⟩ := hreact.deaf hx
    rw [h]
    exact ⟨performAll_sends hsends x, hnext⟩

variable (ops) in
lemma takeAll_deaf (hx : Deaf x.phase) {fs : List Fpdu} (hf : ∀ f ∈ fs, Mild f) :
    (x.takeAll ops p fs).Grows x ∧ Deaf (x.takeAll ops p fs).phase := by
  induction fs generalizing x with
  | nil => exact ⟨.refl x, hx⟩
  | cons f fs ih =>
    rw [List.forall_mem_cons] at hf
    obtain ⟨hgrows, hdeaf⟩ := take_deaf ops (p := p) (r := .ok f) hx hf.1
    obtain ⟨hgrows', hdeaf'⟩ := ih hdeaf hf.2
    exact ⟨hgrows'.trans hgrows, hdeaf'⟩

variable (ops) in
lemma flow_deaf (hx : Deaf x.phase) {es : List Bytes} (he : ∀ e ∈ es, LegibleAs Mild p.crc e) :
    (flow ops p es [] x).Grows x ∧ Deaf (flow ops p es [] x).phase := by
  induction es generalizing x with
  | nil => exact ⟨.refl x, hx⟩
  | cons e es ih =>
    rw [List.forall_mem_cons] at he
    have hfirst : (x.takeEntity ops p e).Grows x ∧ Deaf (x.takeEntity ops p e).phase := by
      rcases he.1 with ⟨g, hne, hg, rfl⟩ | ⟨err, hopen, hdiag⟩
      · simp only [takeEntity, opened_images hne (fun f hf => (hg f hf).1)]
        exact takeAll_deaf _ hx (fun f hf => (hg f hf).2)
      · simp only [takeEntity, hopen]
        exact take_deaf _ (r := .error err) hx hdiag
    obtain ⟨hgrows, hdeaf⟩ := ih hfirst.2 he.2
    exact ⟨hgrows.trans hfirst.1, hdeaf⟩

variable (ops) in
lemma take_quiet (hx : Calm x.phase) {f : Fpdu} (hf : f.kind = .idt ∨ f.kind = .ackIdt) :
    (x.take ops p (.ok f)).Grows x := by
  by_cases hdeaf : ∀ r, x.phase ≠ .receiving r
  · exact (take_deaf _ (r := .ok f) ⟨hdeaf, hx⟩ (.inr hf)).1
  · simp only [not_forall, not_not] at hdeaf
    obtain ⟨s, hs⟩ := hdeaf
    simp only [take, hs, ReceiveData.react, follow]
    refine performAll_sends ?_ x
    simp only [ReceiveData.handle]
    cases happly : applyReceived s.machine f with
    | error e => rintro w ⟨⟩
    | ok machine =>
      rcases hf with hf | hf
      · simp only [Act.lift_ok_bind, hf, show FpduKind.isData .idt = false from rfl,
          Bool.false_eq_true, if_false, sendFpdu_ackIdt]
        cases haccept : applyLocal machine .accept with
        | error e => exact fun w hw => ⟨_, List.mem_singleton.mp hw⟩
        | ok m => exact fun w hw => ⟨_, List.mem_singleton.mp hw⟩
      · simp only [Act.lift_ok_bind, hf, show FpduKind.isData .ackIdt = false from rfl,
          Bool.false_eq_true, if_false]
        rintro w ⟨⟩

lemma flow_image {f : Fpdu} (hf : Frame.Sound f) (x : Reception τ) :
    flow ops p [Frame.image p.crc f] [] x = x.take ops p (.ok f) := by
  simp only [flow, List.foldl_cons, List.foldl_nil, takeEntity, opened_image hf p.crc]
  rfl

end Reception

namespace Session

open Reception SendData

variable {σ τ : Type} {u : Setup σ τ} {c d : Session σ τ} {written : List Bytes}

def Answer (p : DataParams) (f : Fpdu) : Prop :=
  (∃ n, n < 2 ^ 24 ∧ f = Builder.ackSyn p.peerId n) ∨ f = Builder.ackIdt p.peerId ∨
    f = Builder.idt p.peerId .voluntaryStop (cancelCode p)

def Reply (p : DataParams) (e : Bytes) : Prop := ∃ f, Answer p f ∧ e = Frame.image p.crc f

lemma cancelCode_cases (p : DataParams) :
    cancelCode p = .cancelByRequester ∨ cancelCode p = .cancelByServer := by
  simp only [cancelCode]
  split
  · exact .inl rfl
  · exact .inr rfl

lemma Answer.sound {p : DataParams} {f : Fpdu} (h : Answer p f) : Frame.Sound f := by
  rcases h with ⟨n, hn, rfl⟩ | rfl | rfl
  · exact Builder.ackSyn_sound _ hn
  · exact Builder.ackIdt_sound _
  · exact Builder.idt_sound _ (cancelCode_cases p)

lemma legible_image {Q : Fpdu → Prop} {f : Fpdu} (hf : Frame.Sound f) (hq : Q f) (crc : Bool) :
    LegibleAs Q crc (Frame.image crc f) := .inl ⟨[f], by simp, by simpa using ⟨hf, hq⟩, by simp⟩

lemma settled_phase (c : Session σ τ) (written : List Bytes) :
    (c.settled u written).phase = c.receiver.phase := by
  rw [settled]
  generalize hx : (⟨c.receiver.phase, c.receiver.store, c.receiver.recorded, c.receiver.sink, written,
    c.sender.link.incoming⟩ : Reception τ) = x
  have hphase := congrArg Reception.phase (performAll_phase u.ops x c.receiver.todo x.phase)
  rw [← hx] at hphase ⊢
  exact hphase

structure Tame (u : Setup σ τ) (c : Session σ τ) : Prop where
  calm : Calm c.receiver.phase
  pending : (∃ e, c.receiver.phase = .failed e) ∨ ∀ f ∈ c.receiver.link.pending, Mild f
  legible : ∀ e ∈ c.arriving, LegibleAs Mild u.rp.crc e
  keeps : ∀ pos, Effect.truncate pos ∉ c.receiver.todo
  receiverCrc : c.receiver.link.crc = u.rp.crc
  senderCrc : c.sender.link.crc = u.sp.crc
  senderPending : c.sender.link.pending = []
  replies : ∀ e ∈ c.sender.link.incoming ++ sends c.receiver.todo, Reply u.rp e

lemma Wired.tame (hw : c.Wired u written) : c.Tame u := by
  obtain ⟨⟨ns, hns, hin⟩, ns', hns', htodo⟩ := hw.incoming
  have hphase := settled_phase (u := u) c written
  refine ⟨hphase ▸ hw.steady.calm, ?_, fun e he => (hw.legible e he).imp (fun f hf => .inl hf), hw.keeps,
    hw.receiverCrc, hw.senderCrc, hw.senderPending, ?_⟩
  · rcases hw.pending with ⟨e, he⟩ | hp
    · exact .inl ⟨e, hphase ▸ he⟩
    · exact .inr (fun f hf => .inl (hp f hf))
  · rw [hin, htodo, ← List.map_append]
    intro e he
    obtain ⟨n, hn, rfl⟩ := List.mem_map.mp he
    refine ⟨_, .inl ⟨n, ?_, rfl⟩, rfl⟩
    rcases List.mem_append.mp hn with hn | hn
    · exact hns n hn
    · exact hns' n hn

variable (written) in
lemma Tame.settled_grows (h : c.Tame u) : (c.settled u written).Grows (c.outlook u written) := by
  have hcalm : Calm (c.settled u written).phase := by
    rw [settled_phase]
    exact h.calm
  rcases h.pending with ⟨e, he⟩ | hp
  · have hf : (c.settled u written).Failed := ⟨e, by rw [settled_phase, he]⟩
    rw [outlook, takeAll_failed hf, flow_failed hf]
    exact .refl _
  · obtain ⟨hgrows, hcalm'⟩ := takeAll_grows u.ops (p := u.rp) hcalm hp
    exact hgrows.trans (flow_grows hcalm' h.legible)

lemma Tame.outlook_calm (h : c.Tame u) : Calm (c.outlook u written).phase := by
  have hcalm : Calm (c.settled u written).phase := by
    rw [settled_phase]
    exact h.calm
  rcases h.pending with ⟨e, he⟩ | hp
  · have hf : (c.settled u written).Failed := ⟨e, by rw [settled_phase, he]⟩
    rw [outlook, takeAll_failed hf, flow_failed hf]
    exact hcalm
  · exact flow_calm (takeAll_grows u.ops (p := u.rp) hcalm hp).2 h.legible

section Moves

variable (written) in
lemma Tame.senderPerforms (h : c.Tame u) (hstep : c.senderPerforms = some d) :
    d.Tame u ∧ d.outlook u written = c.outlook u written := by
  obtain ⟨hphase, htodo, -, hpending, hcrc, -, hlink, harr, hsettled, -⟩ :=
    senderPerforms_outlook written (u := u) hstep
  refine ⟨⟨?_, ?_, ?_, ?_, ?_, ?_, ?_, ?_⟩, ?_⟩
  · rw [hphase]
    exact h.calm
  · rw [hphase, hpending]
    exact h.pending
  · rw [harr]
    exact h.legible
  · rw [htodo]
    exact h.keeps
  · rw [hcrc]
    exact h.receiverCrc
  · rw [hlink]
    exact h.senderCrc
  · rw [hlink]
    exact h.senderPending
  · rw [hlink, htodo]
    exact h.replies
  · simp only [outlook, harr, hsettled, hpending]

variable (written) in
lemma Tame.receiverPerforms (h : c.Tame u) (hstep : c.receiverPerforms u = some d) {w : Effect}
    {todo : List Effect} (htodo : c.receiver.todo = w :: todo) :
    d.Tame u ∧ d.outlook u (wrote written w) = c.outlook u written := by
  obtain ⟨w', todo', htodo', hdtodo, hphase, hlink, -, hstodo, -, -, hcrc, hpend, hsettled⟩ :=
    receiverPerforms_cases written hstep
  obtain ⟨rfl, rfl⟩ := List.cons.inj (htodo'.symm.trans htodo)
  have hacks : d.sender.link.incoming ++ sends d.receiver.todo = c.sender.link.incoming ++
      sends c.receiver.todo := by
    have hsame := congrArg Reception.acks hsettled
    rw [settled, settled, performAll_acks, performAll_acks] at hsame
    exact hsame
  refine ⟨⟨?_, ?_, ?_, ?_, ?_, ?_, ?_, ?_⟩, ?_⟩
  · rw [hphase]
    exact h.calm
  · rw [hphase, hlink]
    exact h.pending
  · rw [arriving, hlink, hstodo]
    exact h.legible
  · intro pos hmem
    exact h.keeps pos (by rw [htodo, hdtodo.symm]; exact List.mem_cons_of_mem _ hmem)
  · rw [hlink]
    exact h.receiverCrc
  · rw [hcrc]
    exact h.senderCrc
  · rw [hpend]
    exact h.senderPending
  · rw [hacks]
    exact h.replies
  · simp only [outlook, hsettled, arriving, hlink, hstodo]

lemma Reaction.replies {p : DataParams} {pos : Position} {phase next : RecvPhase} {ws : List Effect}
    (h : Reaction p pos phase ws next) : ∀ e ∈ sends ws, Reply p e := by
  intro e he
  cases h with
  | articles hwrites _ _ _ =>
    obtain ⟨w, hw, hwe⟩ := List.mem_filterMap.mp he
    obtain ⟨a, rfl⟩ := hwrites w hw
    cases hwe
  | @point r n _ hr hn _ _ =>
    have hmem : e ∈ answers p n := by
      have hsends :
          sends (.record ⟨n, pos.fileOffset, r.dataBytes, r.articles⟩ :: (answers p n).map .send) =
          answers p n := by simp [sends]
      rwa [hsends] at he
    simp only [answers] at hmem
    split at hmem
    · exact ⟨_, .inl ⟨n, hn, rfl⟩, List.mem_singleton.mp hmem⟩
    · cases hmem
  | interruption _ _ => exact ⟨_, .inr (.inl rfl), List.mem_singleton.mp he⟩

lemma react_error {p : DataParams} {store : MemoryCheckpoints} {pos : Position} {phase : RecvPhase}
    (hphase : Calm phase) {err : SessionError}
    (herr : ∀ e, err = .decode e → e.diag ≠ .transmissionError) {act : Run RecvPhase}
    (hact : ReceiveData.react p store pos phase (.error err) = some act) :
    ∃ e, RecvPhase.ofRun act = .failed e := by
  cases phase with
  | receiving s =>
    obtain rfl := Option.some.inj hact
    cases err with
    | decode e =>
      simp only [ReceiveData.handleError, herr e rfl, false_and, if_false]
      exact ⟨_, rfl⟩
    | _ => exact ⟨_, rfl⟩
  | awaitingAckResyn s => exact absurd rfl (hphase s)
  | interrupting s =>
    obtain rfl := Option.some.inj hact
    exact ⟨_, rfl⟩
  | ended m res => cases hact
  | failed e => cases hact

variable (written) in
lemma Tame.receiverTakes (h : c.Tame u) (hstep : c.receiverTakes u = some d) :
    d.Tame u ∧ d.outlook u written = c.outlook u written ∧ d.sender = c.sender ∧ c.receiver.todo = [] ∧
      d.receiver.store = c.receiver.store ∧ d.receiver.recorded = c.receiver.recorded ∧
      d.receiver.sink = c.receiver.sink ∧
      Reaction u.rp (u.ops.position c.receiver.sink) c.receiver.phase d.receiver.todo
      d.receiver.phase := by
  obtain ⟨r, link, act, htodo, hrecv, hact, rfl⟩ := receiverTakes_cases hstep
  have hsettled := settled_become written htodo link hact
  have hplain : ∀ f ∈ c.receiver.link.pending, Mild f := by
    refine h.pending.resolve_left ?_
    rintro ⟨e, he⟩
    rw [he] at hact
    cases hact
  obtain ⟨hcrc, hlegible, hnext⟩ := recv_next h.receiverCrc hplain h.legible hrecv
  have htolerable : Tolerable r := by
    rcases hnext with ⟨f, rfl, hf, -⟩ | ⟨err, rfl, hdiag, -⟩
    · exact hf
    · exact hdiag
  have hreact := react_reaction h.calm htolerable hact
  have hreplies : ∀ e ∈ c.sender.link.incoming ++ sends act.effects, Reply u.rp e := by
    rw [List.forall_mem_append]
    refine ⟨?_, Reaction.replies hreact⟩
    intro e he
    exact h.replies e (List.mem_append_left _ he)
  refine ⟨⟨hreact.calm, ?_, hlegible, hreact.keeps, hcrc.trans h.receiverCrc, h.senderCrc,
    h.senderPending, hreplies⟩, ?_, rfl, htodo, rfl, rfl, rfl, hreact⟩
  · rcases hnext with ⟨f, rfl, -, hpending, -⟩ | ⟨err, rfl, hdiag, -⟩
    · exact .inr hpending
    · exact .inl (react_error h.calm hdiag hact)
  · rcases hnext with ⟨f, rfl, -, -, hflow⟩ | ⟨err, rfl, hdiag, hflow⟩
    · rw [outlook, hsettled, outlook, hflow]
      rfl
    · obtain ⟨e, he⟩ := react_error h.calm hdiag hact
      have hfailed : ((c.settled u written).take u.ops u.rp (.error err)).Failed := by
        rw [← hsettled]
        exact ⟨e, by rw [settled_phase]; exact he⟩
      rw [outlook, hsettled, outlook, hflow, takeAll_failed hfailed, flow_failed hfailed,
        flow_failed hfailed]

variable (written) in
lemma Tame.becomes (h : c.Tame u) (htodo : c.sender.todo = []) (act : Run (SendPhase σ))
    (hact : ∀ e ∈ sends act.effects, LegibleAs Mild u.rp.crc e) :
    ({ c with sender := c.sender.become act } : Session σ τ).Tame u ∧
      ({ c with sender := c.sender.become act } : Session σ τ).outlook u written =
        flow u.ops u.rp (sends act.effects) [] (c.outlook u written) := by
  have harr : ({ c with sender := c.sender.become act } : Session σ τ).arriving = c.arriving ++
    sends act.effects := by
    simp [arriving, htodo, sends, Sender.become]
  refine ⟨⟨h.calm, h.pending, ?_, h.keeps, h.receiverCrc, h.senderCrc, h.senderPending, h.replies⟩, ?_⟩
  · rw [harr, List.forall_mem_append]
    exact ⟨h.legible, hact⟩
  · simp only [outlook, harr]
    rw [flow_append]
    rfl

def popped (c : Session σ τ) (es : List Bytes) : Session σ τ :=
  { c with sender := { c.sender with link := ⟨c.sender.link.crc, es, []⟩ } }

variable (written) in
lemma Tame.popped (h : c.Tame u) {e : Bytes} {es : List Bytes} (hin : c.sender.link.incoming = e :: es) :
    (c.popped es).Tame u ∧ c.outlook u written = ((c.popped es).outlook u written).owing e := by
  have hsettled : c.settled u written = ((c.popped es).settled u written).owing e := by
    rw [settled, settled, ← performAll_owing, hin]
    rfl
  refine ⟨⟨h.calm, h.pending, h.legible, h.keeps, h.receiverCrc, h.senderCrc, rfl, ?_⟩, ?_⟩
  · intro e' he'
    refine h.replies e' ?_
    rw [hin]
    exact List.mem_cons_of_mem _ he'
  · have harr : c.arriving = (c.popped es).arriving := rfl
    have hpend : (c.popped es).receiver.link.pending = c.receiver.link.pending := rfl
    simp only [outlook, hsettled, harr, takeAll_owing, flow_owing, hpend]

lemma Tame.senderReceives (h : c.Tame u) (hcrc : u.rp.crc = u.sp.crc)
    (hstep : c.senderPolls u = some d ∨ c.senderWaits u = some d) :
    ∃ f es act, Answer u.rp f ∧ c.sender.todo = [] ∧
    c.sender.link.incoming = Frame.image u.rp.crc f :: es ∧
      d = { c.popped es with sender := (c.popped es).sender.become act } ∧
      ((∃ s, c.sender.phase = .looping s ∧ act = handleAsync u.src u.sp c.sender.store s f) ∨
        ∃ s, c.sender.phase = .interrupting s ∧ act = interrupted u.sp s f) := by
  cases hin : c.sender.link.incoming with
  | nil =>
    have hpoll : c.sender.link.poll = none := by simp only [Link.poll, h.senderPending, hin]
    have hrecv : c.sender.link.recv = none := by simp only [Link.recv, hpoll, h.senderPending, hin]
    rcases hstep with hstep | hstep
    · simp only [senderPolls, hpoll] at hstep
      split at hstep <;> simp_all
    · simp only [senderWaits, hrecv] at hstep
      split at hstep <;> simp_all
  | cons e es =>
    obtain ⟨f, hf, rfl⟩ := h.replies e (by rw [hin]; simp)
    have hopen : opened c.sender.link.crc (Frame.image u.rp.crc f) = .ok [f] := by
      rw [h.senderCrc, ← hcrc]
      exact opened_image hf.sound u.rp.crc
    obtain ⟨hrecv, hpoll⟩ := Link.recv_ok h.senderPending hin hopen
    cases htodo : c.sender.todo with
    | cons w ws =>
      rcases hstep with hstep | hstep
      · simp only [senderPolls, htodo] at hstep
        cases hstep
      · simp only [senderWaits, htodo] at hstep
        cases hstep
    | nil =>
      rcases hstep with hstep | hstep
      · simp only [senderPolls, hpoll, htodo] at hstep
        cases hphase : c.sender.phase with
        | looping s =>
          simp only [hphase] at hstep
          exact ⟨f, es, _, hf, rfl, rfl, (Option.some.inj hstep).symm, .inl ⟨s, rfl, rfl⟩⟩
        | _ => simp [hphase] at hstep
      · simp only [senderWaits, hrecv, htodo] at hstep
        split at hstep
        · rename_i hwaits
          cases hphase : c.sender.phase with
          | looping s =>
            simp only [hphase, react, Option.map_some] at hstep
            exact ⟨f, es, _, hf, rfl, rfl, (Option.some.inj hstep).symm, .inl ⟨s, rfl, rfl⟩⟩
          | interrupting s =>
            simp only [hphase, react, Option.map_some] at hstep
            exact ⟨f, es, _, hf, rfl, rfl, (Option.some.inj hstep).symm, .inr ⟨s, rfl, rfl⟩⟩
          | ended m res => simp [hphase, waits] at hwaits
          | failed e => simp [hphase, waits] at hwaits
        · cases hstep

end Moves

section Cancellation

lemma senderCancels_cases (h : c.senderCancels u = some d) :
    ∃ s, c.sender.todo = [] ∧ c.sender.phase = .looping s ∧
    d = { c with sender := c.sender.become (cancel u.sp s) } := by
  simp only [senderCancels] at h
  split at h
  · rename_i s htodo hs
    exact ⟨s, htodo, hs, (Option.some.inj h).symm⟩
  · cases h

lemma receiverCancels_cases (h : c.receiverCancels u = some d) :
    ∃ s, c.receiver.todo = [] ∧ c.receiver.phase = .receiving s ∧
      d = { c with receiver := c.receiver.become (ReceiveData.cancel u.rp s) } := by
  simp only [receiverCancels] at h
  split at h
  · rename_i s htodo hs
    exact ⟨s, htodo, hs, (Option.some.inj h).symm⟩
  · cases h

def idtEntity (p : DataParams) : Bytes :=
  Frame.image p.crc (Builder.idt p.peerId .voluntaryStop (cancelCode p))

lemma interrupt_effects (p : DataParams) (m : Machine) :
    (∃ e, interrupt p m = ⟨[], .error e⟩) ∨ ∃ m', interrupt p m = ⟨[.send (idtEntity p)], .ok m'⟩ := by
  simp only [interrupt]
  cases happly : applyLocal m .cancel with
  | error e => exact .inl ⟨e, rfl⟩
  | ok m' =>
    simp only [Act.lift_ok_bind, sendFpdu,
      Frame.singleEntity_ok (Builder.idt_sound p.peerId (cancelCode_cases p)),
      Except.mapError]
    exact .inr ⟨m', rfl⟩

lemma cancel_effects (p : DataParams) (s : SendState σ) :
    (∀ s', SendPhase.ofRun (cancel p s) ≠ .looping s') ∧
      ∃ tail, (tail = [] ∨ tail = [.send (idtEntity p)]) ∧
        (cancel p s).effects = (if 0 < s.entity.count then [.send s.entity.buf] else []) ++ tail := by
  simp only [cancel]
  rcases interrupt_effects p s.machine with ⟨e, he⟩ | ⟨m', hm'⟩
  · rw [he]
    refine ⟨?_, [], .inl rfl, ?_⟩
    · intro s'
      split <;> exact fun h => by cases h
    · split <;> rfl
  · rw [hm']
    refine ⟨?_, [.send (idtEntity p)], .inr rfl, ?_⟩
    · intro s'
      split <;> exact fun h => by cases h
    · split <;> rfl

lemma receiver_cancel_effects (p : DataParams) (s : RecvState) :
    Deaf (RecvPhase.ofRun (ReceiveData.cancel p s)) ∧
      ((ReceiveData.cancel p s).effects = [] ∨
        (ReceiveData.cancel p s).effects = [.send (idtEntity p)]) := by
  simp only [ReceiveData.cancel]
  rcases interrupt_effects p s.machine with ⟨e, he⟩ | ⟨m', hm'⟩
  · rw [he]
    exact ⟨⟨by rintro r ⟨⟩, by rintro r ⟨⟩⟩, .inl rfl⟩
  · rw [hm']
    exact ⟨⟨by rintro r ⟨⟩, by rintro r ⟨⟩⟩, .inr rfl⟩

lemma stopped_effects (p : DataParams) (s : SendState σ) (f : Fpdu) :
    (∀ s', SendPhase.ofRun (interrupted p s f) ≠ .looping s') ∧
      ((interrupted p s f).effects = [] ∨ (interrupted p s f).effects = [.send (ackIdtEntity p)]) := by
  simp only [interrupted, interruptRecv]
  cases happly : applyReceived s.machine f with
  | error e => exact ⟨by rintro s' ⟨⟩, .inl rfl⟩
  | ok machine =>
    simp only [Act.lift_ok_bind]
    split
    · exact ⟨by rintro s' ⟨⟩, .inl rfl⟩
    · rw [sendFpdu_ackIdt]
      cases haccept : applyLocal machine .accept with
      | error e => exact ⟨by rintro s' ⟨⟩, .inr rfl⟩
      | ok m => exact ⟨by rintro s' ⟨⟩, .inr rfl⟩
    · exact ⟨by rintro s' ⟨⟩, .inl rfl⟩

lemma handleAsync_answer {p rp : DataParams} (src : ArticleSource σ) {s : SendState σ}
    (store : MemoryCheckpoints) (hm : s.machine.state = .tde02A ∨ s.machine.state = .tdl02B) {f : Fpdu}
    (hf : Answer rp f) :
    (∃ n, n < 2 ^ 24 ∧ f = Builder.ackSyn rp.peerId n ∧
      handleAsync src p store s f = ⟨[.acknowledge n], .ok (.looping (acked s n))⟩) ∨
    ((∀ s', SendPhase.ofRun (handleAsync src p store s f) ≠ .looping s') ∧
      ((handleAsync src p store s f).effects = [] ∨
        (handleAsync src p store s f).effects = [.send (ackIdtEntity p)])) := by
  rcases hf with ⟨n, hn, rfl⟩ | rfl | rfl
  · exact .inl ⟨n, hn, rfl, handleAsync_ackSyn hm store _ hn⟩
  · right
    have herr : ∃ e, applyReceived s.machine (Builder.ackIdt rp.peerId) = .error e := by
      obtain ⟨⟨role, state⟩, _, _, _, _, _, _, _, _, _, _⟩ := s
      rcases hm with rfl | rfl <;> exact ⟨_, rfl⟩
    obtain ⟨e, he⟩ := herr
    simp only [handleAsync, he, Act.lift_error_bind]
    exact ⟨by rintro s' ⟨⟩, .inl trivial⟩
  · right
    simp only [handleAsync]
    cases happly : applyReceived s.machine (Builder.idt rp.peerId .voluntaryStop (cancelCode rp)) with
    | error e => exact ⟨by rintro s' ⟨⟩, .inl rfl⟩
    | ok machine =>
      have hkind : (Builder.idt rp.peerId .voluntaryStop (cancelCode rp)).kind = .idt := rfl
      simp only [Act.lift_ok_bind, hkind, sendFpdu_ackIdt]
      cases haccept : applyLocal machine .accept with
      | error e => exact ⟨by rintro s' ⟨⟩, .inr rfl⟩
      | ok m => exact ⟨by rintro s' ⟨⟩, .inr rfl⟩

end Cancellation

end Session

namespace Transfer

open Reception SendData Session

variable {σ τ : Type} (t : Transfer σ τ) (total base : ℕ) (H : Prop)

/-- The invariant of a data phase that may be interrupted: as long as nobody has cancelled it is that of
the data phase without interruption; after that either the sender or the receiver has come to its end. -/
structure Guarded (c : Session σ τ) (written : List Bytes) : Prop where
  tame : c.Tame t.setup
  sink : t.Holds c.receiver.sink written
  sent : ∀ cp ∈ marks c, t.Sent total cp
  numbered : Numbered base c.sender.phase (marks c)
  within : t.Within total base (marks c) (c.outlook t.setup written)
  sending : ∀ s, c.sender.phase = .looping s → t.Inv total base H c written ∨
    (∃ bs ws, Loaded t.setup.sp s bs ws ∧ t.Ready total s) ∧ Deaf (c.outlook t.setup written).phase

variable {t total base H} {c d : Session σ τ} {written : List Bytes}

lemma Inv.guarded (h : t.Inv total base H c written) : t.Guarded total base H c written :=
  ⟨h.wired.tame, h.sink, h.sent, h.numbered, h.within, fun _ _ => .inl h⟩

lemma Guarded.loaded (h : t.Guarded total base H c written) {s : SendState σ}
    (hs : c.sender.phase = .looping s) :
    ∃ bs ws, Loaded t.setup.sp s bs ws ∧ t.Ready total s := by
  rcases h.sending s hs with hinv | ⟨hload, -⟩
  · have hprogress := hinv.progress
    rw [hs] at hprogress
    obtain ⟨bs, ws, hload, hready, -⟩ := hprogress
    exact ⟨bs, ws, hload, hready⟩
  · exact hload

lemma Within.owing {log : List Checkpoint} {x : Reception τ} {e : Bytes} :
    t.Within total base log (x.owing e) ↔ t.Within total base log x :=
  ⟨fun h => ⟨h.1, h.2, h.3, h.4⟩, fun h => ⟨h.1, h.2, h.3, h.4⟩⟩

lemma Guarded.senderPerforms (h : t.Guarded total base H c written) (hstep : c.senderPerforms = some d) :
    t.Guarded total base H d written := by
  obtain ⟨-, -, hsink, -, -, hphase, -, -, -, hmarks⟩ :=
    senderPerforms_outlook written (u := t.setup) hstep
  obtain ⟨htame, hout⟩ := h.tame.senderPerforms written hstep
  have hmarks' : marks d = marks c := hmarks
  refine ⟨htame, ?_, ?_, ?_, ?_, ?_⟩
  · rw [hsink]
    exact h.sink
  · rw [hmarks']
    exact h.sent
  · rw [hphase, hmarks']
    exact h.numbered
  · rw [hmarks', hout]
    exact h.within
  · intro s hs
    rw [hphase] at hs
    rcases h.sending s hs with hinv | ⟨hload, hdeaf⟩
    · exact .inl (hinv.senderPerforms hstep)
    · exact .inr ⟨hload, by rw [hout]; exact hdeaf⟩

lemma Guarded.receiverPerforms (h : t.Guarded total base H c written)
    (hstep : c.receiverPerforms t.setup = some d) {w : Effect} {todo : List Effect}
    (htodo : c.receiver.todo = w :: todo) :
    t.Guarded total base H d (wrote written w) := by
  obtain ⟨-, -, -, -, -, -, hphase, hstodo, hrec, -⟩ := receiverPerforms_cases written hstep
  obtain ⟨htame, hout⟩ := h.tame.receiverPerforms written hstep htodo
  have hmarks : marks d = marks c := by simp only [marks, hstodo, hrec]
  refine ⟨htame, receiverPerforms_sink hstep t.keeps h.sink h.tame.keeps htodo, ?_, ?_, ?_, ?_⟩
  · rw [hmarks]
    exact h.sent
  · rw [hphase, hmarks]
    exact h.numbered
  · rw [hmarks, hout]
    exact h.within
  · intro s hs
    rw [hphase] at hs
    rcases h.sending s hs with hinv | ⟨hload, hdeaf⟩
    · obtain ⟨w', todo', htodo', hinv'⟩ := hinv.receiverPerforms hstep
      obtain ⟨rfl, rfl⟩ := List.cons.inj (htodo'.symm.trans htodo)
      exact .inl hinv'
    · exact .inr ⟨hload, by rw [hout]; exact hdeaf⟩

lemma Guarded.receiverTakes (h : t.Guarded total base H c written)
    (hstep : c.receiverTakes t.setup = some d) :
    t.Guarded total base H d written := by
  obtain ⟨htame, hout, hsender, -, -, -, hsink, -⟩ := h.tame.receiverTakes written hstep
  have hmarks : marks d = marks c := by simp only [marks, hsender]
  refine ⟨htame, ?_, ?_, ?_, ?_, ?_⟩
  · rw [hsink]
    exact h.sink
  · rw [hmarks]
    exact h.sent
  · rw [hsender, hmarks]
    exact h.numbered
  · rw [hmarks, hout]
    exact h.within
  · intro s hs
    rw [hsender] at hs
    rcases h.sending s hs with hinv | ⟨hload, hdeaf⟩
    · exact .inl (hinv.receiverTakes hstep)
    · exact .inr ⟨hload, by rw [hout]; exact hdeaf⟩

lemma Guarded.stops (h : t.Guarded total base H c written) (htodo : c.sender.todo = [])
    {act : Run (SendPhase σ)} (hphase : ∀ s, SendPhase.ofRun act ≠ .looping s)
    (hrecords : records act.effects = [])
    (hact : ∀ e ∈ sends act.effects, LegibleAs Mild t.setup.rp.crc e)
    (hwithin : t.Within total base (marks c) (flow t.setup.ops t.setup.rp (sends act.effects) []
      (c.outlook t.setup written))) :
    t.Guarded total base H { c with sender := c.sender.become act } written := by
  obtain ⟨htame, hout⟩ := h.tame.becomes written htodo act hact
  have hmarks : marks { c with sender := c.sender.become act } = marks c := by
    simp only [marks, Sender.become, hrecords, htodo]
    rfl
  refine ⟨htame, h.sink, ?_, ?_, ?_, ?_⟩
  · rw [hmarks]
    exact h.sent
  · rw [hmarks]
    exact ⟨h.numbered.1, fun s hs => absurd hs (hphase s)⟩
  · rw [hmarks, hout]
    exact hwithin
  · intro s hs
    exact absurd hs (hphase s)

lemma legible_ackIdt (crc : Bool) (p : DataParams) (hcrc : crc = p.crc) :
    LegibleAs Mild crc (ackIdtEntity p) := by
  subst hcrc
  exact legible_image (Builder.ackIdt_sound p.peerId) (.inr (.inr rfl)) p.crc

lemma Guarded.senderReceives (h : t.Guarded total base H c written)
    (hstep : c.senderPolls t.setup = some d ∨ c.senderWaits t.setup = some d) :
    t.Guarded total base H d written := by
  obtain ⟨f, es, act, hf, htodo, hin, rfl, hact⟩ := h.tame.senderReceives t.agree.crc hstep
  obtain ⟨htame, hout⟩ := h.tame.popped written hin
  have hwithin := h.within
  rw [hout, Within.owing] at hwithin
  -- whatever the sender stops with, at most an acknowledgement goes out
  have hstops : ∀ act : Run (SendPhase σ), (∀ s, SendPhase.ofRun act ≠ .looping s) →
      (act.effects = [] ∨ act.effects = [.send (ackIdtEntity t.setup.sp)]) →
      t.Guarded total base H { c.popped es with sender := (c.popped es).sender.become act } written := by
    intro act hphase heffects
    have hlegible : ∀ e ∈ sends act.effects, LegibleAs Mild t.setup.rp.crc e := by
      rcases heffects with heffects | heffects
      · simp [heffects, SendData.sends]
      · simp only [heffects, SendData.sends, List.filterMap_cons, List.filterMap_nil,
          List.mem_singleton, forall_eq]
        exact legible_ackIdt _ _ t.agree.crc
    obtain ⟨htame', hout'⟩ := htame.becomes written htodo act hlegible
    have hmarks : marks { c.popped es with sender := (c.popped es).sender.become act } = marks c := by
      rcases heffects with heffects | heffects
      · simp [marks, Sender.become, heffects, Session.popped, htodo]
      · simp [marks, Sender.become, heffects, Session.popped, htodo, records]
    refine ⟨htame', h.sink, ?_, ?_, ?_, ?_⟩
    · rw [hmarks]
      exact h.sent
    · rw [hmarks]
      exact ⟨h.numbered.1, fun s hs => absurd hs (hphase s)⟩
    · rw [hmarks, hout']
      rcases heffects with heffects | heffects
      · rw [heffects]
        exact hwithin
      · rw [heffects]
        have hquiet := take_quiet t.setup.ops (p := t.setup.rp) htame.outlook_calm
          (f := Builder.ackIdt t.setup.sp.peerId) (.inr rfl) (x := (c.popped es).outlook t.setup written)
        rw [← flow_image (Builder.ackIdt_sound _), t.agree.crc] at hquiet
        exact hwithin.of_grows hquiet
    · intro s hs
      exact absurd hs (hphase s)
  rcases hact with ⟨s, hs, rfl⟩ | ⟨s, hs, rfl⟩
  · obtain ⟨bs, ws, hload, hready⟩ := h.loaded hs
    rcases handleAsync_answer t.setup.src (p := t.setup.sp) c.sender.store hload.machine hf with
      ⟨n, hn, rfl, hasync⟩ | ⟨hphase, heffects⟩
    · rcases h.sending s hs with hinv | ⟨-, hdeaf⟩
      · exact (hinv.senderReceives hstep).guarded
      · obtain ⟨htame', hout'⟩ := htame.becomes written htodo
          (handleAsync t.setup.src t.setup.sp c.sender.store s (Builder.ackSyn t.setup.rp.peerId n))
          (by simp [hasync, SendData.sends])
        rw [hasync] at htame' hout' ⊢
        have hmarks : marks { c.popped es with
            sender := (c.popped es).sender.become ⟨[.acknowledge n], .ok (.looping (Session.acked s n))⟩
              } = marks c := by
          simp [marks, Sender.become, Session.popped, htodo, records]
        refine ⟨htame', h.sink, ?_, ?_, ?_, ?_⟩
        · rw [hmarks]
          exact h.sent
        · rw [hmarks]
          refine ⟨h.numbered.1, ?_⟩
          intro s' hs'
          obtain rfl := SendPhase.looping.inj hs'
          exact h.numbered.2 s hs
        · rw [hmarks, hout']
          exact hwithin
        · intro s' hs'
          obtain rfl := SendPhase.looping.inj hs'
          rw [hout] at hdeaf
          refine .inr ⟨⟨bs, ws, ⟨hload.1, hload.2, hload.3, hload.4, hload.5, hload.6⟩,
            ⟨hready.1, hready.2, hready.3, hready.4⟩⟩, ?_⟩
          rw [hout']
          exact hdeaf
    · exact hstops _ hphase heffects
  · obtain ⟨hphase, heffects⟩ := stopped_effects t.setup.sp s f
    exact hstops _ hphase heffects

lemma Guarded.sends_deaf (h : t.Guarded total base H c written) (htodo : c.sender.todo = [])
    {s : SendState σ} (hphase : c.sender.phase = .looping s)
    (hdeaf : Deaf (c.outlook t.setup written).phase) :
    t.Guarded total base H
    { c with sender := c.sender.become (advance t.setup.src t.setup.sp s) } written := by
  obtain ⟨bs, ws, hload, hready⟩ := h.loaded hphase
  cases ha : t.articles[s.articles]? with
  | none =>
    obtain ⟨es, m, hrun, hlegible, -⟩ := endData_spec t.setup.ops t.roomy t.agree.crc hload
    have hadvance :
        (advance t.setup.src t.setup.sp s).Returns (es.map .send) (.ended m (result s .completed)) := by
      rw [advance, t.yields.done hready.source ha]
      exact hrun
    have hsends : sends (advance t.setup.src t.setup.sp s).effects = es := by
      rw [hadvance]
      exact sends_map_send es
    have hmild : ∀ e ∈ es, LegibleAs Mild t.setup.rp.crc e :=
      fun e he => (hlegible e he).imp (fun f hf => .inl hf)
    refine h.stops htodo ?_ ?_ ?_ ?_
    · rw [hadvance]
      rintro s' ⟨⟩
    · rw [hadvance]
      exact records_map_send es
    · rw [hsends]
      exact hmild
    · rw [hsends]
      exact h.within.of_grows (flow_deaf _ hdeaf hmild).1
  | some a =>
    obtain ⟨rest, hnext, hrest⟩ := t.yields.next hready.source ha
    obtain ⟨effects, s', bs', ws', hrun, hload', hturn, hlegible, hrecords, -, -⟩ :=
      sendArticle_spec t.setup.src t.setup.ops t.roomy t.agree.crc hload a rest
    have hadvance : (advance t.setup.src t.setup.sp s).Returns effects (.looping s') := by
      rw [advance, hnext, ← List.append_nil effects]
      exact hrun.bind (Act.returns_pure _)
    have heffects : (advance t.setup.src t.setup.sp s).effects = effects := by rw [hadvance]
    have hmild : ∀ e ∈ sends effects, LegibleAs Mild t.setup.rp.crc e :=
      fun e he => (hlegible e he).imp (fun f hf => .inl hf)
    obtain ⟨htame, hout⟩ := h.tame.becomes written htodo (advance t.setup.src t.setup.sp s)
      (by rw [heffects]; exact hmild)
    obtain ⟨hgrows, hdeaf'⟩ := flow_deaf t.setup.ops hdeaf hmild
    have hmarks : marks { c with sender := c.sender.become (advance t.setup.src t.setup.sp s) } =
        marks c ++ if (onWire t.setup.sp s.compressor s.bytesSinceSync a).1 then [mark s] else [] := by
      rw [become_returns hadvance]
      simp only [marks, htodo, hrecords]
      simp [records]
    have hnumbered := h.numbered
    rw [hphase] at hnumbered
    refine ⟨htame, h.sink, ?_, ?_, ?_, ?_⟩
    · rw [hmarks, List.forall_mem_append]
      refine ⟨h.sent, ?_⟩
      split
      · simpa using hready.mark_sent
      · simp
    · rw [hmarks, become_returns hadvance]
      exact hnumbered.turn hturn
    · rw [hmarks, hout, heffects]
      exact (h.within.extend _).of_grows hgrows
    · intro s'' hs''
      rw [become_returns hadvance] at hs''
      obtain rfl := SendPhase.looping.inj hs''
      refine .inr ⟨⟨bs', ws', hload', hready.step ha hturn hrest⟩, ?_⟩
      rw [hout, heffects]
      exact hdeaf'

lemma Guarded.senderAdvances (h : t.Guarded total base H c written)
    (hstep : c.senderAdvances t.setup = some d) :
    t.Guarded total base H d written := by
  obtain ⟨s, htodo, hphase, -, rfl⟩ := senderAdvances_cases hstep
  rcases h.sending s hphase with hinv | ⟨-, hdeaf⟩
  · exact (hinv.senderAdvances hstep).guarded
  · exact h.sends_deaf htodo hphase hdeaf

lemma Guarded.flushed (h : t.Guarded total base H c written) {s : SendState σ}
    (hphase : c.sender.phase = .looping s) :
    (∀ e ∈ (if 0 < s.entity.count then [s.entity.buf] else []), LegibleAs Mild t.setup.rp.crc e) ∧
      t.Within total base (marks c)
      (flow t.setup.ops t.setup.rp (if 0 < s.entity.count then [s.entity.buf] else []) []
        (c.outlook t.setup written)) := by
  obtain ⟨bs, ws, hload, -⟩ := h.loaded hphase
  by_cases hcount : 0 < s.entity.count
  · have hne : bs ≠ [] := by
      rintro rfl
      have hzero : s.entity.count = 0 := hload.buffered.count
      omega
    have hlegible : LegibleAs Mild t.setup.rp.crc s.entity.buf := by
      rw [hload.buffered.buf, t.agree.crc]
      exact .inl ⟨bs, hne, fun f hf => ⟨hload.buffered.sound f hf, .inl (.inl (hload.data f hf))⟩, rfl⟩
    simp only [if_pos hcount, List.mem_singleton, forall_eq]
    refine ⟨hlegible, ?_⟩
    rcases h.sending s hphase with hinv | ⟨-, hdeaf⟩
    · have hprogress := hinv.progress
      rw [hphase] at hprogress
      obtain ⟨bs', ws', hload', -, -, hrel⟩ := hprogress
      have hflow : flow t.setup.ops t.setup.rp [s.entity.buf] [] (c.outlook t.setup written) =
          (c.outlook t.setup written).takeAll t.setup.ops t.setup.rp bs' := by
        have hne' : bs' ≠ [] := by
          rintro rfl
          have hzero : s.entity.count = 0 := hload'.buffered.count
          omega
        have hentity := flow_entity t.setup.ops (p := t.setup.rp) [] [] hne' hload'.buffered.sound
          (c.outlook t.setup written)
        rw [List.nil_append, List.append_nil, t.agree.crc, ← hload'.buffered.buf] at hentity
        exact hentity
      rw [hflow]
      have hgrows := deliverAll_grows t.setup.ops
        ((c.outlook t.setup written).takeAll t.setup.ops t.setup.rp bs') ws'
      rcases hrel with hlost | ⟨habreast, -⟩
      · exact hlost.2.2.of_grows hgrows
      · exact habreast.within.of_grows hgrows
    · refine h.within.of_grows (flow_deaf _ hdeaf ?_).1
      simpa using hlegible
  · simp only [if_neg hcount]
    exact ⟨by simp, h.within⟩

lemma Guarded.senderCancels (h : t.Guarded total base H c written)
    (hstep : c.senderCancels t.setup = some d) :
    t.Guarded total base H d written := by
  obtain ⟨s, htodo, hphase, rfl⟩ := senderCancels_cases hstep
  obtain ⟨hnext, tail, htail, heffects⟩ := cancel_effects t.setup.sp s
  obtain ⟨hlegible, hwithin⟩ := h.flushed hphase
  have hidt : idtEntity t.setup.sp = Frame.image t.setup.rp.crc
      (Builder.idt t.setup.sp.peerId .voluntaryStop (cancelCode t.setup.sp)) := by
    rw [idtEntity, t.agree.crc]
  have hsound : Frame.Sound (Builder.idt t.setup.sp.peerId .voluntaryStop (cancelCode t.setup.sp)) :=
    Builder.idt_sound _ (cancelCode_cases _)
  have hsends : sends (cancel t.setup.sp s).effects =
      (if 0 < s.entity.count then [s.entity.buf] else []) ++ sends tail := by
    rw [heffects, sends_append]
    split <;> rfl
  have hrecords : records (cancel t.setup.sp s).effects = [] := by
    rw [heffects, records_append]
    rcases htail with rfl | rfl <;> split <;> rfl
  refine h.stops htodo hnext hrecords ?_ ?_
  · rw [hsends, List.forall_mem_append]
    refine ⟨hlegible, ?_⟩
    rcases htail with rfl | rfl
    · simp [SendData.sends]
    · simp only [SendData.sends, List.filterMap_cons, List.filterMap_nil,
        List.mem_singleton, forall_eq, hidt]
      exact legible_image hsound (.inr (.inl rfl)) _
  · rw [hsends, flow_append]
    rcases htail with rfl | rfl
    · exact hwithin
    · show t.Within total base (marks c) (flow t.setup.ops t.setup.rp [idtEntity t.setup.sp] [] _)
      rw [hidt, flow_image hsound]
      exact hwithin.of_grows (take_quiet _ (flow_calm h.tame.outlook_calm hlegible) (.inl rfl))

lemma Guarded.receiverCancels (h : t.Guarded total base H c written)
    (hstep : c.receiverCancels t.setup = some d) :
    t.Guarded total base H d written := by
  obtain ⟨s, htodo, hphase, rfl⟩ := receiverCancels_cases hstep
  obtain ⟨hdeaf, heffects⟩ := receiver_cancel_effects t.setup.rp s
  have hplain := h.tame.pending.resolve_left (by rintro ⟨e, he⟩; rw [hphase] at he; cases he)
  have hreplies : ∀ e ∈ c.sender.link.incoming ++ sends (ReceiveData.cancel t.setup.rp s).effects,
      Reply t.setup.rp e := by
    rw [List.forall_mem_append]
    refine ⟨fun e he => h.tame.replies e (List.mem_append_left _ he), ?_⟩
    rcases heffects with heffects | heffects
    · simp [heffects, SendData.sends]
    · simp only [heffects, SendData.sends, List.filterMap_cons, List.filterMap_nil,
        List.mem_singleton, forall_eq]
      exact ⟨_, .inr (.inr rfl), rfl⟩
  have hkeeps : ∀ pos, Effect.truncate pos ∉ (ReceiveData.cancel t.setup.rp s).effects := by
    rcases heffects with heffects | heffects <;> simp [heffects]
  have htame :
      ({ c with receiver := c.receiver.become (ReceiveData.cancel t.setup.rp s) } : Session σ
      τ).Tame t.setup :=
    ⟨hdeaf.2, .inr hplain, h.tame.legible, hkeeps, h.tame.receiverCrc, h.tame.senderCrc,
      h.tame.senderPending, hreplies⟩
  -- the receiver keeps what it has, and gets nothing else
  have hsettled : Deaf (({ c with receiver := c.receiver.become (ReceiveData.cancel t.setup.rp s) } :
      Session σ τ).settled t.setup written).phase := by
    rw [settled_phase]
    exact hdeaf
  obtain ⟨hgrows₁, hdeaf₁⟩ := takeAll_deaf t.setup.ops (p := t.setup.rp) hsettled hplain
  obtain ⟨hgrows₂, hdeaf₂⟩ := flow_deaf t.setup.ops hdeaf₁ h.tame.legible
  have hbefore : (({ c with receiver := c.receiver.become (ReceiveData.cancel t.setup.rp s) } :
      Session σ τ).settled t.setup written).Grows (c.settled t.setup written) := by
    have hc : c.settled t.setup written =
        ⟨c.receiver.phase, c.receiver.store, c.receiver.recorded, c.receiver.sink,
        written, c.sender.link.incoming⟩ := by
      simp only [settled, htodo]
      rfl
    rw [hc]
    simp only [settled, Receiver.become]
    rcases heffects with heffects | heffects
    · rw [heffects]
      exact .refl _
    · rw [heffects]
      exact .refl _
  refine ⟨htame, h.sink, h.sent, h.numbered, ?_, ?_⟩
  · exact h.within.of_grows
      (((hgrows₂.trans hgrows₁).trans hbefore).trans (h.tame.settled_grows written))
  · intro s' hs'
    exact .inr ⟨h.loaded hs', hdeaf₂⟩

end Transfer

end PesitWizard.Io
