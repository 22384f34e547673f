import PesitWizard.Io.Flow

/-! How a receiver takes what the sender of a data phase sends: articles, synchronisation points, the end
of the data, and entities that it has to refuse. -/

namespace PesitWizard.Io

open PesitWizard.Core Library

namespace Reception

variable {τ : Type} {ops : ArticleSink τ} {p : DataParams} {x : Reception τ}

section Complete

lemma deliverAll_idle (h : x.Idle p) (as : List Bytes) :
    (x.deliverAll ops as).Idle p ∨ (x.deliverAll ops as).Failed := by
  obtain ⟨s, hx, hr, hm⟩ := h
  rcases deliverAll_receiving ops hx as with hf | ⟨s', hs', hr', hm'⟩
  · exact .inr hf
  · exact .inl ⟨s', hs', hr'.trans hr, hm' ▸ hm⟩

lemma takeAll_complete (h : x.Idle p ∨ x.Failed) {fs : List Fpdu} (hf : ∀ f ∈ fs, f.kind.isData = true)
    {out : List Bytes}
    (hfeed : (Reassembler.new p.maxArticle).feedAll fs = .ok (out, .new p.maxArticle)) :
    x.takeAll ops p fs = x.deliverAll ops out := by
  rcases h with ⟨s, hx, hr, hm⟩ | h
  · rw [(takeAll_data hx hm hf).1 out _ (hr ▸ hfeed)]
    rcases deliverAll_receiving ops hx out with hfailed | ⟨s', hs', hr', -⟩
    · exact withReassembler_failed hfailed _
    · rw [← hr', withReassembler_self hs']
  · rw [takeAll_failed h, deliverAll_failed h]

variable (ops) in
lemma takeAll_refused (h : x.Idle p ∨ x.Failed) {fs : List Fpdu} (hf : ∀ f ∈ fs, f.kind.isData = true)
    {e : ReassemblyError} (hfeed : (Reassembler.new p.maxArticle).feedAll fs = .error e) :
    (x.takeAll ops p fs).Failed := by
  rcases h with ⟨s, hx, hr, hm⟩ | h
  · exact (takeAll_data hx hm hf).2 e (hr ▸ hfeed)
  · rwa [takeAll_failed h]

end Complete

section Control

def ackEntity (p : DataParams) (n : ℕ) : Bytes := Frame.image p.crc (Builder.ackSyn p.peerId n)

lemma ackEntity_inj {p : DataParams} {m n : ℕ} (hm : m < 2 ^ 24) (hn : n < 2 ^ 24)
    (h : ackEntity p m = ackEntity p n) : m = n := by
  have hack := image_injective (Builder.ackSyn_sound _ hm) (Builder.ackSyn_sound _ hn) h
  have hnum : some m = some n := by
    rw [← Builder.ackSyn_syncNumber p.peerId (n := m) (by omega), hack,
      Builder.ackSyn_syncNumber p.peerId (by omega)]
  exact Option.some.inj hnum

def answers (p : DataParams) (n : ℕ) : List Bytes :=
  if p.sync.window ≠ 0 ∨ p.sync.enabled = false then [ackEntity p n] else []

def synced (ops : ArticleSink τ) (p : DataParams) (x : Reception τ) (s : RecvState)
    (n : ℕ) : Reception τ :=
  let cp : Checkpoint := ⟨n, (ops.position x.sink).fileOffset, s.dataBytes, s.articles⟩
  { x with
    phase := .receiving { s with lastSync := n }
    store := x.store.record cp
    recorded := x.recorded ++ [cp]
    acks := x.acks ++ answers p n }

lemma applyReceived_syn {m : Machine} (hm : m.state = .tde02B ∨ m.state = .tdl02A) (d : UInt8) (n : ℕ) :
    applyReceived m (Builder.syn d n) = .ok m := by
  obtain ⟨role, state⟩ := m
  rcases hm with rfl | rfl <;> rfl

lemma applyLocal_accept {m : Machine} (hm : m.state = .tde02B ∨ m.state = .tdl02A) :
    applyLocal m .accept = .ok m := by
  obtain ⟨role, state⟩ := m
  rcases hm with rfl | rfl <;> rfl

lemma sendFpdu_ackSyn {n : ℕ} (hn : n < 2 ^ 24) :
    sendFpdu p.crc (Builder.ackSyn p.peerId n) = ⟨[.send (ackEntity p n)], .ok ()⟩ := by
  simp only [sendFpdu, Frame.singleEntity_ok (Builder.ackSyn_sound p.peerId hn), Except.mapError,
    Act.lift_ok_bind]
  rfl

lemma take_syn {s : RecvState} (hx : x.phase = .receiving s)
    (hm : s.machine.state = .tde02B ∨ s.machine.state = .tdl02A) (d : UInt8) {n : ℕ} (hn : n < 2 ^ 24) :
    x.take ops p (.ok (Builder.syn d n)) = x.synced ops p s n := by
  have hnum : (Builder.syn d n).syncNumber.getD (s.lastSync + 1) = n := by
    rw [Builder.syn_syncNumber d (by omega)]
    rfl
  have hsend := sendFpdu_ackSyn (p := p) hn
  have hkind : (Builder.syn d n).kind = .syn := rfl
  simp only [take, hx, ReceiveData.react, ReceiveData.handle, applyReceived_syn hm,
    Act.lift_ok_bind, hkind, show FpduKind.isData .syn = false from rfl, Bool.false_eq_true, if_false,
    hnum, synced, answers]
  by_cases hack : p.sync.window ≠ 0 ∨ p.sync.enabled = false
  · simp only [if_pos hack, hsend, applyLocal_accept hm]
    rfl
  · simp only [if_neg hack, List.append_nil]
    rfl

variable (ops) in
lemma take_dtfEnd {s : RecvState} (hx : x.phase = .receiving s)
    (hm : s.machine.state = .tde02B ∨ s.machine.state = .tdl02A) (d : UInt8) :
    ∃ m, x.take ops p (.ok (Builder.dtfEnd d .ok)) =
      { x with phase := .ended m (ReceiveData.result s .completed) } := by
  obtain ⟨m, hm'⟩ : ∃ m, applyReceived s.machine (Builder.dtfEnd d .ok) = .ok m := by
    obtain ⟨⟨role, state⟩, r, dec, b, a, l⟩ := s
    rcases hm with rfl | rfl <;> exact ⟨_, rfl⟩
  refine ⟨m, ?_⟩
  simp only [take, hx, ReceiveData.react, ReceiveData.handle, hm', Act.lift_ok_bind]
  rfl

end Control

section Steady

/-- The FPDUs of a data phase without interruption and resynchronisation. -/
def Plain (f : Fpdu) : Prop :=
  f.kind.isData = true ∨ (∃ d n, n < 2 ^ 24 ∧ f = Builder.syn d n) ∨ ∃ d, f = Builder.dtfEnd d .ok

/-- No interruption and no resynchronisation is under way. -/
def Steady (x : Reception τ) : Prop :=
  (∃ s, x.phase = .receiving s ∧ (s.machine.state = .tde02B ∨ s.machine.state = .tdl02A)) ∨
    (∃ m res, x.phase = .ended m res) ∨ x.Failed

def Live (x : Reception τ) : Prop :=
  (∃ s, x.phase = .receiving s ∧ (s.machine.state = .tde02B ∨ s.machine.state = .tdl02A)) ∨ x.Failed

lemma live_of_idle (h : x.Idle p ∨ x.Failed) : x.Live := by
  rcases h with ⟨s, hx, -, hm⟩ | h
  · exact .inl ⟨s, hx, hm⟩
  · exact .inr h

lemma Live.steady (h : x.Live) : x.Steady := by
  rcases h with h | h
  · exact .inl h
  · exact .inr (.inr h)

lemma take_ended {m : Machine} {res : DataResult} (hx : x.phase = .ended m res)
    (r : Except SessionError Fpdu) :
    x.take ops p r = x := by
  simp only [take, hx, ReceiveData.react]

variable (ops) in
lemma take_steady (h : x.Steady) {f : Fpdu} (hf : Plain f) : (x.take ops p (.ok f)).Steady := by
  rcases h with ⟨s, hx, hm⟩ | ⟨m, res, hx⟩ | h
  · rcases hf with hf | ⟨d, n, hn, rfl⟩ | ⟨d, rfl⟩
    · obtain ⟨hok, herr⟩ := take_data ops (p := p) hx hm hf
      cases hfeed : s.reassembler.feed f with
      | error e => exact .inr (.inr (herr e hfeed))
      | ok y =>
        rw [hok y.1 y.2 hfeed]
        rcases deliverAll_receiving ops hx y.1 with hfailed | ⟨s', hs', -, hm'⟩
        · rw [withReassembler_failed hfailed]
          exact .inr (.inr hfailed)
        · rw [withReassembler_receiving hs']
          exact .inl ⟨_, rfl, by rw [hm']; exact hm⟩
    · rw [take_syn hx hm d hn]
      exact .inl ⟨_, rfl, hm⟩
    · obtain ⟨m, hend⟩ := take_dtfEnd ops (p := p) hx hm d
      rw [hend]
      exact .inr (.inl ⟨m, _, rfl⟩)
  · rw [take_ended hx]
    exact .inr (.inl ⟨m, res, hx⟩)
  · rw [take_failed h]
    exact .inr (.inr h)

lemma takeAll_steady (h : x.Steady) {fs : List Fpdu} (hf : ∀ f ∈ fs, Plain f) :
    (x.takeAll ops p fs).Steady := by
  induction fs generalizing x with
  | nil => exact h
  | cons f fs ih =>
    rw [List.forall_mem_cons] at hf
    exact ih (take_steady _ h hf.1) hf.2

lemma takeAll_ended {m : Machine} {res : DataResult} (hx : x.phase = .ended m res) (fs : List Fpdu) :
    x.takeAll ops p fs = x := by
  induction fs with
  | nil => rfl
  | cons f fs ih => rw [takeAll_cons, take_ended hx, ih]

lemma flow_ended {m : Machine} {res : DataResult} (hx : x.phase = .ended m res) (es : List Bytes)
    (fs : List Fpdu) :
    flow ops p es fs x = x := by
  have hentity : ∀ e, x.takeEntity ops p e = x := by
    intro e
    simp only [takeEntity]
    split
    · exact take_ended hx _
    · exact takeAll_ended hx _
  have hes : es.foldl (takeEntity ops p) x = x := by
    induction es with
    | nil => rfl
    | cons e es ih =>
      rw [List.foldl_cons, hentity]
      exact ih
  rw [flow, hes]
  exact takeAll_ended hx fs

lemma Steady.live (h : x.Steady) {fs : List Fpdu}
    (hfs : (x.takeAll ops p fs).Idle p ∨ (x.takeAll ops p fs).Failed) :
    x.Live := by
  rcases h with h | ⟨m, res, hx⟩ | h
  · exact .inl h
  · rw [takeAll_ended hx] at hfs
    rcases hfs with ⟨s, hs, -⟩ | ⟨e, he⟩
    · rw [hx] at hs
      cases hs
    · rw [hx] at he
      cases he
  · exact .inr h

end Steady

section Refusals

/-- An entity that ends the reception with an error. -/
def Refused (crc : Bool) (entity : Bytes) : Prop :=
  ∃ err, opened crc entity = .error err ∧ ∀ e, err = .decode e → e.diag ≠ .transmissionError

lemma take_refused {s : RecvState} (hx : x.phase = .receiving s) {err : SessionError}
    (h : ∀ e, err = .decode e → e.diag ≠ .transmissionError) : (x.take ops p (.error err)).Failed := by
  refine ⟨err, ?_⟩
  simp only [take, hx, ReceiveData.react, ReceiveData.handleError]
  cases err with
  | decode e =>
    simp only [h e rfl, false_and, if_false]
    rfl
  | _ => rfl

lemma takeEntity_refused {s : RecvState} (hx : x.phase = .receiving s) {entity : Bytes}
    (h : Refused p.crc entity) :
    (x.takeEntity ops p entity).Failed := by
  obtain ⟨err, hopen, hdiag⟩ := h
  simp only [takeEntity, hopen]
  exact take_refused hx hdiag

lemma takeEntity_fails (hx : x.Live) {entity : Bytes} (h : Refused p.crc entity) :
    (x.takeEntity ops p entity).Failed := by
  rcases hx with ⟨s, hs, -⟩ | hx
  · exact takeEntity_refused hs h
  · rwa [takeEntity_failed hx]

lemma refused_nil (crc : Bool) : Refused crc [] := by
  have hsplit : Frame.splitEntity [] crc = .ok [] := by rfl
  refine ⟨.transport (.invalid 0), ?_, ?_⟩
  · simp only [opened, hsplit, Link.decodeParts, List.length_nil]
  · intro e he
    cases he

lemma decodeParts_append {gs : List Fpdu} (h : ∀ f ∈ gs, Frame.Sound f) {bad : Bytes} {e : DecodeError}
    (hbad : Fpdu.decode bad = .error e) :
    Link.decodeParts (gs.map (fun f => f.header ++ f.body) ++ [bad]) = (gs, some e) := by
  induction gs with
  | nil => simp only [List.map_nil, List.nil_append, Link.decodeParts, hbad]
  | cons f gs ih =>
    rw [List.forall_mem_cons] at h
    simp only [List.map_cons, List.cons_append, Link.decodeParts,
      Fpdu.decode_encoded h.1.1 h.1.2, ih h.2]

lemma refused_syn (crc : Bool) (gs : List Fpdu) (h : ∀ f ∈ gs, Frame.Sound f) (d : UInt8) {n : ℕ}
    (hn : 2 ^ 24 ≤ n) (hn' : n < 2 ^ 32) :
    Refused crc ((gs ++ [Builder.syn d n]).flatMap (Frame.image crc)) := by
  obtain ⟨e, hdec, hdiag⟩ := Builder.syn_undecodable d hn hn'
  have hlen : ∀ f ∈ gs ++ [Builder.syn d n], f.encodedLen ≤ 65535 := by
    intro f hf
    rcases List.mem_append.mp hf with hf | hf
    · exact (h f hf).2
    · obtain rfl := List.mem_singleton.mp hf
      exact (Builder.syn_encodedLen_le d hn').trans (by decide)
  refine ⟨.decode e, ?_, ?_⟩
  · simp only [opened, Frame.splitEntity_images crc hlen, List.map_append, List.map_cons, List.map_nil,
      decodeParts_append h hdec]
  · rintro e' he
    obtain rfl := SessionError.decode.inj he
    exact hdiag

/-- An entity of FPDUs of some kind, or one that is refused. -/
def LegibleAs (Q : Fpdu → Prop) (crc : Bool) (entity : Bytes) : Prop :=
  (∃ g, g ≠ [] ∧ (∀ f ∈ g, Frame.Sound f ∧ Q f) ∧ entity = g.flatMap (Frame.image crc)) ∨
    Refused crc entity

/-- The entities of a data phase without interruption and resynchronisation. -/
def Legible (crc : Bool) (entity : Bytes) : Prop := LegibleAs Plain crc entity

lemma LegibleAs.imp {Q R : Fpdu → Prop} (h : ∀ f, Q f → R f) {crc : Bool} {entity : Bytes}
    (he : LegibleAs Q crc entity) : LegibleAs R crc entity := by
  rcases he with ⟨g, hne, hg, hentity⟩ | he
  · exact .inl ⟨g, hne, fun f hf => ⟨(hg f hf).1, h f (hg f hf).2⟩, hentity⟩
  · exact .inr he

variable (ops) in
lemma takeEntity_steady (h : x.Steady) {entity : Bytes} (he : Legible p.crc entity) :
    (x.takeEntity ops p entity).Steady := by
  rcases he with ⟨g, hne, hg, rfl⟩ | he
  · simp only [takeEntity, opened_images hne (fun f hf => (hg f hf).1)]
    exact takeAll_steady h (fun f hf => (hg f hf).2)
  · rcases h with ⟨s, hx, -⟩ | ⟨m, res, hx⟩ | h
    · exact .inr (.inr (takeEntity_refused hx he))
    · obtain ⟨err, hopen, -⟩ := he
      simp only [takeEntity, hopen, take_ended hx]
      exact .inr (.inl ⟨m, res, hx⟩)
    · rw [takeEntity_failed h]
      exact .inr (.inr h)

lemma flow_steady (h : x.Steady) {es : List Bytes} (he : ∀ e ∈ es, Legible p.crc e) {fs : List Fpdu}
    (hf : ∀ f ∈ fs, Plain f) : (flow ops p es fs x).Steady := by
  refine takeAll_steady ?_ hf
  induction es generalizing x with
  | nil => exact h
  | cons e es ih =>
    rw [List.forall_mem_cons] at he
    exact ih (takeEntity_steady _ h he.1) he.2

end Refusals

section Effects

lemma takeArticle_effects (s : RecvState) (a : Bytes) :
    (∀ w ∈ (ReceiveData.takeArticle s a).effects, ∃ a, w = .write a) ∧
      ∀ s', (ReceiveData.takeArticle s a).result = .ok s' →
        s'.articles = s.articles + (ReceiveData.takeArticle s a).effects.length := by
  cases hd : s.decompressor with
  | none =>
    simp only [ReceiveData.takeArticle, hd]
    refine ⟨?_, ?_⟩
    · intro w hw
      exact ⟨a, List.mem_singleton.mp hw⟩
    · intro s' hs'
      obtain rfl := Except.ok.inj hs'
      rfl
  | some d =>
    cases hdec : d.decompress a with
    | error e =>
      simp only [ReceiveData.takeArticle, hd, hdec, Except.mapError, Act.lift_error_bind]
      refine ⟨?_, ?_⟩
      · intro w hw
        cases hw
      · intro s' hs'
        cases hs'
    | ok y =>
      simp only [ReceiveData.takeArticle, hd, hdec, Except.mapError, Act.lift_ok_bind]
      refine ⟨?_, ?_⟩
      · intro w hw
        exact ⟨y.1, List.mem_singleton.mp hw⟩
      · intro s' hs'
        obtain rfl := Except.ok.inj hs'
        rfl

lemma takeArticles_effects (s : RecvState) (as : List Bytes) :
    (∀ w ∈ (ReceiveData.takeArticles s as).effects, ∃ a, w = .write a) ∧
      ∀ s', (ReceiveData.takeArticles s as).result = .ok s' →
        s'.articles = s.articles + (ReceiveData.takeArticles s as).effects.length := by
  induction as generalizing s with
  | nil =>
    refine ⟨?_, ?_⟩
    · intro w hw
      cases hw
    · intro s' hs'
      obtain rfl := Except.ok.inj hs'
      rfl
  | cons a as ih =>
    obtain ⟨hone, hcount⟩ := takeArticle_effects s a
    simp only [ReceiveData.takeArticles]
    cases hact : ReceiveData.takeArticle s a with
    | mk ws r =>
      rw [hact] at hone hcount
      cases r with
      | error e =>
        rw [Act.error_bind]
        refine ⟨hone, ?_⟩
        intro s' hs'
        cases hs'
      | ok s₁ =>
        obtain ⟨hmore, hcount'⟩ := ih s₁
        rw [Act.ok_bind]
        refine ⟨?_, ?_⟩
        · rw [List.forall_mem_append]
          exact ⟨hone, hmore⟩
        · intro s' hs'
          rw [hcount' s' hs', hcount s₁ rfl, List.length_append, Nat.add_assoc]

lemma handleError_effects {s : RecvState} {err : SessionError}
    (h : ∀ e, err = .decode e → e.diag ≠ .transmissionError) :
    (ReceiveData.handleError p s err).effects = [] := by
  simp only [ReceiveData.handleError]
  cases err with
  | decode d =>
    simp only [h d rfl, false_and, if_false]
    rfl
  | _ => rfl

def Mild (f : Fpdu) : Prop := Plain f ∨ f.kind = .idt ∨ f.kind = .ackIdt

def Tolerable : Except SessionError Fpdu → Prop
  | .ok f => Mild f
  | .error err => ∀ e, err = .decode e → e.diag ≠ .transmissionError

def ackIdtEntity (p : DataParams) : Bytes := Frame.image p.crc (Builder.ackIdt p.peerId)

/-- All that a receiver can do at a reception: hand articles to the sink, record a point and then answer
it, or acknowledge an interruption. -/
inductive Reaction (p : DataParams) (pos : Position) (phase : RecvPhase) : List Effect → RecvPhase → Prop
  | articles {ws : List Effect} {next : RecvPhase} (writes : ∀ w ∈ ws, ∃ a, w = .write a)
      (heard : ws = [] ∨ ∃ r, phase = .receiving r)
      (level : ∀ r', next = .receiving r' → ∃ r, phase = .receiving r ∧
        r'.articles = r.articles + ws.length)
      (calm : ∀ s, next ≠ .awaitingAckResyn s) : Reaction p pos phase ws next
  | point {r : RecvState} {n : ℕ} {next : RecvPhase} (receiving : phase = .receiving r)
    (small : n < 2 ^ 24)
      (level : ∀ r', next = .receiving r' → r'.articles = r.articles)
      (calm : ∀ s, next ≠ .awaitingAckResyn s) :
      Reaction p pos phase
        (.record ⟨n, pos.fileOffset, r.dataBytes, r.articles⟩ :: (answers p n).map .send) next
  | interruption {next : RecvPhase} (ended : ∀ r', next ≠ .receiving r')
    (calm : ∀ s, next ≠ .awaitingAckResyn s) :
      Reaction p pos phase [.send (ackIdtEntity p)] next

lemma Reaction.failed {pos : Position} {phase : RecvPhase} (e : SessionError) :
    Reaction p pos phase [] (.failed e) := .articles (by simp) (.inl rfl) (by simp) (by simp)

lemma Reaction.stays {pos : Position} {s s' : RecvState} (h : s'.articles = s.articles) :
    Reaction p pos (.receiving s) [] (.receiving s') := by
  refine .articles (by simp) (.inl rfl) ?_ (by simp)
  intro r' hr'
  obtain rfl := RecvPhase.receiving.inj hr'
  exact ⟨s, rfl, h⟩

lemma sendFpdu_ackIdt :
    sendFpdu p.crc (Builder.ackIdt p.peerId) = ⟨[.send (ackIdtEntity p)], .ok ()⟩ := by
  simp only [sendFpdu, Frame.singleEntity_ok (Builder.ackIdt_sound p.peerId), Except.mapError,
    Act.lift_ok_bind]
  rfl

lemma handle_data_reaction {store : MemoryCheckpoints} {pos : Position} {s : RecvState} {f : Fpdu}
    (hf : f.kind.isData = true) :
    Reaction p pos (.receiving s) (ReceiveData.handle p store pos s f).effects
      (.ofRun (ReceiveData.handle p store pos s f)) := by
  simp only [ReceiveData.handle, hf, if_true]
  cases happly : applyReceived s.machine f with
  | error e => exact .failed e
  | ok machine =>
    simp only [Act.lift_ok_bind]
    cases hfeed : s.reassembler.feed f with
    | error e => exact .failed _
    | ok y =>
      simp only [Except.mapError, Act.lift_ok_bind]
      obtain ⟨hwrites, hcount⟩ :=
        takeArticles_effects { s with machine := machine, reassembler := y.2 } y.1
      cases hact : ReceiveData.takeArticles { s with machine := machine, reassembler := y.2 } y.1 with
      | mk ws r =>
        rw [hact] at hwrites hcount
        cases r with
        | error e =>
          rw [Act.error_bind]
          exact .articles hwrites (.inr ⟨s, rfl⟩) (by simp [RecvPhase.ofRun]) (by simp [RecvPhase.ofRun])
        | ok s' =>
          have hbind : ((⟨ws, .ok s'⟩ : Run RecvState) >>= fun s => pure (RecvPhase.receiving s)) =
              ⟨ws, .ok (.receiving s')⟩ := by
            rw [Act.ok_bind]
            simp [pure]
          rw [hbind]
          refine .articles hwrites (.inr ⟨s, rfl⟩) ?_ (by simp [RecvPhase.ofRun])
          intro r' hr'
          obtain rfl := RecvPhase.receiving.inj hr'
          exact ⟨s, rfl, hcount s' rfl⟩

lemma handle_syn_reaction {store : MemoryCheckpoints} {pos : Position} {s : RecvState}
    (d : UInt8) {n : ℕ} (hn : n < 2 ^ 24) :
    Reaction p pos (.receiving s) (ReceiveData.handle p store pos s (Builder.syn d n)).effects
      (.ofRun (ReceiveData.handle p store pos s (Builder.syn d n))) := by
  have hnum : (Builder.syn d n).syncNumber.getD (s.lastSync + 1) = n := by
    rw [Builder.syn_syncNumber d (by omega)]
    rfl
  have hkind : (Builder.syn d n).kind = .syn := rfl
  simp only [ReceiveData.handle]
  cases happly : applyReceived s.machine (Builder.syn d n) with
  | error e => exact .failed e
  | ok machine =>
    have hpoint : ∀ next : RecvPhase, (∀ r', next = .receiving r' → r'.articles = s.articles) →
        (∀ r', next ≠ .awaitingAckResyn r') → Reaction p pos (.receiving s)
          (.record ⟨n, pos.fileOffset, s.dataBytes, s.articles⟩ :: (answers p n).map .send) next :=
      fun next => Reaction.point rfl hn
    simp only [Act.lift_ok_bind, hkind, show FpduKind.isData .syn = false from rfl,
      Bool.false_eq_true, if_false, hnum]
    by_cases hack : p.sync.window ≠ 0 ∨ p.sync.enabled = false
    · simp only [if_pos hack, sendFpdu_ackSyn hn]
      rw [answers, if_pos hack] at hpoint
      cases haccept : applyLocal machine .accept with
      | error e => exact hpoint (.failed e) (by simp) (by simp)
      | ok m =>
        refine hpoint (.receiving _) ?_ (by simp)
        intro r' hr'
        obtain rfl := RecvPhase.receiving.inj hr'
        rfl
    · simp only [if_neg hack]
      rw [answers, if_neg hack] at hpoint
      refine hpoint (.receiving _) ?_ (by simp)
      intro r' hr'
      obtain rfl := RecvPhase.receiving.inj hr'
      rfl

lemma handle_reaction (store : MemoryCheckpoints) (pos : Position) (s : RecvState)
    {f : Fpdu} (hf : Mild f) :
    Reaction p pos (.receiving s) (ReceiveData.handle p store pos s f).effects
      (.ofRun (ReceiveData.handle p store pos s f)) := by
  rcases hf with (hf | ⟨d, n, hn, rfl⟩ | ⟨d, rfl⟩) | hf | hf
  · exact handle_data_reaction hf
  · exact handle_syn_reaction d hn
  · simp only [ReceiveData.handle]
    cases happly : applyReceived s.machine (Builder.dtfEnd d .ok) with
    | error e => exact .failed e
    | ok machine => exact .articles (by rintro w ⟨⟩) (.inl rfl) (by rintro r' ⟨⟩) (by rintro r' ⟨⟩)
  · simp only [ReceiveData.handle]
    cases happly : applyReceived s.machine f with
    | error e => exact .failed e
    | ok machine =>
      simp only [Act.lift_ok_bind, hf, show FpduKind.isData .idt = false from rfl,
        Bool.false_eq_true, if_false, sendFpdu_ackIdt]
      cases haccept : applyLocal machine .accept with
      | error e => exact .interruption (by rintro r' ⟨⟩) (by rintro r' ⟨⟩)
      | ok m => exact .interruption (by rintro r' ⟨⟩) (by rintro r' ⟨⟩)
  · simp only [ReceiveData.handle]
    cases happly : applyReceived s.machine f with
    | error e => exact .failed e
    | ok machine =>
      simp only [Act.lift_ok_bind, hf, show FpduKind.isData .ackIdt = false from rfl,
        Bool.false_eq_true, if_false]
      exact .stays rfl

lemma interrupted_reaction (pos : Position) (s : RecvState) (f : Fpdu) :
    Reaction p pos (.interrupting s) (ReceiveData.interrupted p s f).effects
      (.ofRun (ReceiveData.interrupted p s f)) := by
  simp only [ReceiveData.interrupted, interruptRecv]
  cases happly : applyReceived s.machine f with
  | error e => exact .failed e
  | ok machine =>
    simp only [Act.lift_ok_bind]
    split
    · exact .articles (by rintro w ⟨⟩) (.inl rfl) (by rintro r' ⟨⟩) (by rintro r' ⟨⟩)
    · rw [sendFpdu_ackIdt]
      cases haccept : applyLocal machine .accept with
      | error e => exact .interruption (by rintro r' ⟨⟩) (by rintro r' ⟨⟩)
      | ok m => exact .interruption (by rintro r' ⟨⟩) (by rintro r' ⟨⟩)
    · exact .articles (by rintro w ⟨⟩) (.inl rfl) (by rintro r' ⟨⟩) (by rintro r' ⟨⟩)

def Calm (phase : RecvPhase) : Prop := ∀ s, phase ≠ .awaitingAckResyn s

lemma react_reaction {store : MemoryCheckpoints} {pos : Position} {phase : RecvPhase}
    (hphase : Calm phase) {r : Except SessionError Fpdu} (hr : Tolerable r) {act : Run RecvPhase}
    (hact : ReceiveData.react p store pos phase r = some act) :
    Reaction p pos phase act.effects (.ofRun act) := by
  cases phase with
  | receiving s =>
    cases r with
    | ok f =>
      obtain rfl := Option.some.inj hact
      exact handle_reaction store pos s hr
    | error err =>
      obtain rfl := Option.some.inj hact
      rw [handleError_effects hr]
      cases err with
      | decode e =>
        simp only [ReceiveData.handleError, hr e rfl, false_and, if_false]
        exact .failed _
      | _ => exact .failed _
  | awaitingAckResyn s => exact absurd rfl (hphase s)
  | interrupting s =>
    cases r with
    | ok f =>
      obtain rfl := Option.some.inj hact
      exact interrupted_reaction pos s f
    | error err =>
      obtain rfl := Option.some.inj hact
      exact .failed _
  | ended m res => cases hact
  | failed e => cases hact

lemma Reaction.keeps {pos : Position} {phase next : RecvPhase} {ws : List Effect}
    (h : Reaction p pos phase ws next) :
    ∀ pos', Effect.truncate pos' ∉ ws := by
  intro pos' hmem
  cases h with
  | articles hwrites _ _ _ =>
    obtain ⟨a, ha⟩ := hwrites _ hmem
    cases ha
  | point hr hn _ _ => simp at hmem
  | interruption _ _ => simp at hmem

lemma Reaction.calm {pos : Position} {phase next : RecvPhase} {ws : List Effect}
    (h : Reaction p pos phase ws next) :
    Calm next := by
  cases h with
  | articles _ _ _ hcalm => exact hcalm
  | point _ _ _ hcalm => exact hcalm
  | interruption _ hcalm => exact hcalm

end Effects

section Growth

def Grows (x y : Reception τ) : Prop := x.recorded <+: y.recorded ∧ x.written <+: y.written

lemma Grows.refl (x : Reception τ) : x.Grows x := ⟨List.prefix_rfl, List.prefix_rfl⟩

lemma Grows.trans {y z : Reception τ} (h : x.Grows y) (h' : y.Grows z) : x.Grows z :=
  ⟨h.1.trans h'.1, h.2.trans h'.2⟩

lemma performAll_grows {ws : List Effect} (h : ∀ pos, Effect.truncate pos ∉ ws) (x : Reception τ) :
    x.Grows (x.performAll ops ws) := by
  induction ws generalizing x with
  | nil => exact .refl x
  | cons w ws ih =>
    have hfirst : x.Grows (x.perform ops w) := by
      cases w with
      | truncate pos => exact absurd List.mem_cons_self (h pos)
      | record cp => exact ⟨List.prefix_append _ _, List.prefix_rfl⟩
      | write a => exact ⟨List.prefix_rfl, List.prefix_append _ _⟩
      | _ => exact .refl x
    exact hfirst.trans (ih (fun pos hmem => h pos (List.mem_cons_of_mem _ hmem)) _)

lemma follow_grows {act : Run RecvPhase} (h : ∀ pos, Effect.truncate pos ∉ act.effects)
    (x : Reception τ) :
    x.Grows (x.follow ops act) := performAll_grows h x

lemma deliver_grows (x : Reception τ) (a : Bytes) : x.Grows (x.deliver ops a) := by
  cases hx : x.phase with
  | receiving s =>
    simp only [deliver, hx]
    refine follow_grows ?_ x
    intro pos hmem
    have hwrites := (takeArticle_effects s a).1
    cases hact : ReceiveData.takeArticle s a with
    | mk ws r =>
      rw [hact] at hwrites hmem
      have hws : Effect.truncate pos ∈ ws := by
        cases r with
        | error e => exact hmem
        | ok s' =>
          rw [Act.ok_bind] at hmem
          rcases List.mem_append.mp hmem with h | h
          · exact h
          · cases h
      obtain ⟨b, hb⟩ := hwrites _ hws
      cases hb
  | _ =>
    simp only [deliver, hx]
    exact .refl x

variable (ops) in
lemma deliverAll_grows (x : Reception τ) (as : List Bytes) : x.Grows (x.deliverAll ops as) := by
  induction as generalizing x with
  | nil => exact .refl x
  | cons a as ih => exact (deliver_grows x a).trans (ih _)

lemma withReassembler_fields (r : Reassembler) (x : Reception τ) :
    (x.withReassembler r).recorded = x.recorded ∧ (x.withReassembler r).written = x.written := by
  cases hx : x.phase <;> simp only [withReassembler, hx, and_self]

lemma Steady.calm (h : x.Steady) : Calm x.phase := by
  intro s hs
  rcases h with ⟨r, hx, -⟩ | ⟨m, res, hx⟩ | ⟨e, hx⟩ <;> rw [hx] at hs <;> cases hs

variable (ops) in
lemma take_cases (hx : Calm x.phase) {r : Except SessionError Fpdu} (hr : Tolerable r) :
    x.take ops p r = x ∨ ∃ ws next, Reaction p (ops.position x.sink) x.phase ws next ∧
      x.take ops p r = { x.performAll ops ws with phase := next } := by
  simp only [take]
  cases hact : ReceiveData.react p x.store (ops.position x.sink) x.phase r with
  | none => exact .inl rfl
  | some act => exact .inr ⟨_, _, react_reaction hx hr hact, rfl⟩

variable (ops) in
lemma take_calm (hx : Calm x.phase) {r : Except SessionError Fpdu} (hr : Tolerable r) :
    Calm (x.take ops p r).phase := by
  rcases take_cases ops (p := p) hx hr with h | ⟨ws, next, hreact, h⟩
  · rwa [h]
  · rw [h]
    exact hreact.calm

lemma take_grows (hx : Calm x.phase) {r : Except SessionError Fpdu} (hr : Tolerable r) :
    x.Grows (x.take ops p r) := by
  rcases take_cases ops (p := p) hx hr with h | ⟨ws, next, hreact, h⟩
  · rw [h]
    exact .refl x
  · rw [h]
    exact performAll_grows hreact.keeps x

variable (ops) in
lemma takeAll_grows (hx : Calm x.phase) {fs : List Fpdu} (hf : ∀ f ∈ fs, Mild f) :
    x.Grows (x.takeAll ops p fs) ∧ Calm (x.takeAll ops p fs).phase := by
  induction fs generalizing x with
  | nil => exact ⟨.refl x, hx⟩
  | cons f fs ih =>
    rw [List.forall_mem_cons] at hf
    obtain ⟨hgrows, hcalm⟩ := ih (take_calm ops (p := p) (r := .ok f) hx hf.1) hf.2
    exact ⟨(take_grows (r := .ok f) hx hf.1).trans hgrows, hcalm⟩

lemma takeEntity_refused_grows (h : x.Steady) {entity : Bytes} (he : Refused p.crc entity) :
    (x.takeEntity ops p entity).Grows x := by
  obtain ⟨err, hopen, hdiag⟩ := he
  simp only [takeEntity, hopen]
  rcases h with ⟨s, hx, -⟩ | ⟨m, res, hx⟩ | h
  · simp only [take, hx, ReceiveData.react, follow, handleError_effects hdiag]
    exact .refl x
  · rw [take_ended hx]
    exact .refl x
  · rw [take_failed h]
    exact .refl x

variable (ops) in
lemma takeEntity_grows (hx : Calm x.phase) {e : Bytes} (he : LegibleAs Mild p.crc e) :
    x.Grows (x.takeEntity ops p e) ∧ Calm (x.takeEntity ops p e).phase := by
  rcases he with ⟨g, hne, hg, rfl⟩ | ⟨err, hopen, hdiag⟩
  · simp only [takeEntity, opened_images hne (fun f hf => (hg f hf).1)]
    exact takeAll_grows _ hx (fun f hf => (hg f hf).2)
  · simp only [takeEntity, hopen]
    exact ⟨take_grows (r := .error err) hx hdiag, take_calm _ (r := .error err) hx hdiag⟩

lemma flow_calm (hx : Calm x.phase) {es : List Bytes} (he : ∀ e ∈ es, LegibleAs Mild p.crc e) :
    Calm (flow ops p es [] x).phase := by
  induction es generalizing x with
  | nil => exact hx
  | cons e es ih =>
    rw [List.forall_mem_cons] at he
    exact ih (takeEntity_grows _ hx he.1).2 he.2

lemma flow_grows (hx : Calm x.phase) {es : List Bytes} (he : ∀ e ∈ es, LegibleAs Mild p.crc e) :
    x.Grows (flow ops p es [] x) := by
  induction es generalizing x with
  | nil => exact .refl x
  | cons e es ih =>
    rw [List.forall_mem_cons] at he
    obtain ⟨hgrows, hcalm⟩ := takeEntity_grows ops hx he.1
    exact hgrows.trans (ih hcalm he.2)

lemma takeAll_bounded {s : RecvState} (hx : x.phase = .receiving s)
    (hm : s.machine.state = .tde02B ∨ s.machine.state = .tdl02A) {fs : List Fpdu}
    (hf : ∀ f ∈ fs, f.kind.isData = true) {out : List Bytes} {r : Reassembler}
    (hfeed : (⟨s.reassembler.part, 0⟩ : Reassembler).feedAll fs = .ok (out, r)) :
    (x.takeAll ops p fs).Grows (x.deliverAll ops out) := by
  induction fs generalizing x s out with
  | nil => exact deliverAll_grows _ x out
  | cons f fs ih =>
    rw [List.forall_mem_cons] at hf
    rw [takeAll_cons]
    cases hreal : s.reassembler.feed f with
    | error e =>
      have hsame : x.take ops p (.ok f) = { x with phase := .failed (.reassembly e) } := by
        simp only [take, hx, ReceiveData.react, ReceiveData.handle, applyReceived_data hm hf.1,
          Act.lift_ok_bind, hf.1, if_true, hreal, Except.mapError, Act.lift_error_bind]
        rfl
      rw [hsame, takeAll_failed ⟨_, rfl⟩]
      exact deliverAll_grows _ x out
    | ok y =>
      obtain ⟨out₁, r₁⟩ := y
      have hideal := Reassembler.feed_unlimited hreal
      rw [Reassembler.feedAll_cons hideal] at hfeed
      cases hmore : (⟨r₁.part, 0⟩ : Reassembler).feedAll fs with
      | error e =>
        rw [hmore] at hfeed
        cases hfeed
      | ok z =>
        rw [hmore] at hfeed
        obtain ⟨rfl, rfl⟩ := Prod.mk.inj (Except.ok.inj hfeed)
        rw [(take_data _ hx hm hf.1).1 out₁ r₁ hreal, deliverAll_append]
        rcases deliverAll_receiving ops hx out₁ with hfailed | ⟨s', hs', -, hm'⟩
        · rw [withReassembler_failed hfailed, takeAll_failed hfailed]
          exact deliverAll_grows _ _ _
        · have hgrow :=
            ih (x := (x.deliverAll ops out₁).withReassembler r₁) (s := { s' with reassembler := r₁ })
            (by rw [withReassembler_receiving hs']) (by rw [hm']; exact hm) hf.2 hmore
          rw [deliverAll_withReassembler] at hgrow
          obtain ⟨hrec, hwritten⟩ :=
            withReassembler_fields r₁ ((x.deliverAll ops out₁).deliverAll ops z.1)
          rw [Grows, hrec, hwritten] at hgrow
          exact hgrow

end Growth

section Acknowledgements

lemma deliver_acks (x : Reception τ) (a : Bytes) : (x.deliver ops a).acks = x.acks := by
  cases hx : x.phase with
  | receiving s =>
    simp only [deliver, hx]
    cases hd : s.decompressor with
    | none =>
      simp only [ReceiveData.takeArticle, hd]
      rfl
    | some d =>
      cases hdec : d.decompress a with
      | error e =>
        simp only [ReceiveData.takeArticle, hd, hdec, Except.mapError, Act.lift_error_bind]
        rfl
      | ok y =>
        simp only [ReceiveData.takeArticle, hd, hdec, Except.mapError, Act.lift_ok_bind]
        rfl
  | _ => simp only [deliver, hx]

lemma deliverAll_acks (x : Reception τ) (as : List Bytes) : (x.deliverAll ops as).acks = x.acks := by
  induction as generalizing x with
  | nil => rfl
  | cons a as ih => rw [deliverAll_cons, ih, deliver_acks]

lemma withReassembler_acks (r : Reassembler) (x : Reception τ) :
    (x.withReassembler r).acks = x.acks := by
  cases hx : x.phase <;> simp only [withReassembler, hx]

lemma take_data_acks {s : RecvState} (hx : x.phase = .receiving s)
    (hm : s.machine.state = .tde02B ∨ s.machine.state = .tdl02A) {f : Fpdu} (hf : f.kind.isData = true) :
    (x.take ops p (.ok f)).acks = x.acks := by
  cases hfeed : s.reassembler.feed f with
  | ok y => rw [(take_data _ hx hm hf).1 y.1 y.2 hfeed, withReassembler_acks, deliverAll_acks]
  | error e =>
    simp only [take, hx, ReceiveData.react, ReceiveData.handle, applyReceived_data hm hf,
      Act.lift_ok_bind, hf, if_true, hfeed, Except.mapError, Act.lift_error_bind]
    rfl

variable (ops) in
lemma take_acks (h : x.Steady) {f : Fpdu} (hf : Plain f) :
    ∃ ns : List ℕ, (∀ n ∈ ns, n < 2 ^ 24) ∧ (f.kind.isData = true → ns = []) ∧
      (x.take ops p (.ok f)).acks = x.acks ++ ns.map (ackEntity p) := by
  rcases h with ⟨s, hx, hm⟩ | ⟨m, res, hx⟩ | h
  · rcases hf with hf | ⟨d, n, hn, rfl⟩ | ⟨d, rfl⟩
    · exact ⟨[], by simp, fun _ => rfl, by rw [take_data_acks hx hm hf]; simp⟩
    · by_cases hack : p.sync.window ≠ 0 ∨ p.sync.enabled = false
      · refine ⟨[n], by simpa using hn, ?_, ?_⟩
        · intro hd
          cases hd
        · rw [take_syn hx hm d hn, synced, answers, if_pos hack]
          rfl
      · refine ⟨[], by simp, fun _ => rfl, ?_⟩
        rw [take_syn hx hm d hn, synced, answers, if_neg hack]
        rfl
    · obtain ⟨m, hend⟩ := take_dtfEnd ops (p := p) hx hm d
      exact ⟨[], by simp, fun _ => rfl, by rw [hend]; simp⟩
  · exact ⟨[], by simp, fun _ => rfl, by rw [take_ended hx]; simp⟩
  · exact ⟨[], by simp, fun _ => rfl, by rw [take_failed h]; simp⟩

variable (ops) in
lemma takeAll_acks (h : x.Steady) {fs : List Fpdu} (hf : ∀ f ∈ fs, Plain f) :
    ∃ ns : List ℕ, (∀ n ∈ ns, n < 2 ^ 24) ∧ ((∀ f ∈ fs, f.kind.isData = true) → ns = []) ∧
      (x.takeAll ops p fs).acks = x.acks ++ ns.map (ackEntity p) := by
  induction fs generalizing x with
  | nil => exact ⟨[], by simp, fun _ => rfl, by simp [takeAll]⟩
  | cons f fs ih =>
    rw [List.forall_mem_cons] at hf
    obtain ⟨ns, hns, hdata, hacks⟩ := take_acks ops (p := p) h hf.1
    obtain ⟨ns', hns', hdata', hacks'⟩ := ih (take_steady ops (p := p) h hf.1) hf.2
    refine ⟨ns ++ ns', ?_, ?_, ?_⟩
    · rw [List.forall_mem_append]
      exact ⟨hns, hns'⟩
    · intro hall
      rw [List.forall_mem_cons] at hall
      rw [hdata hall.1, hdata' hall.2, List.append_nil]
    · rw [takeAll_cons, hacks', hacks]
      simp

variable (ops) in
lemma takeEntity_acks (h : x.Steady) {entity : Bytes} (he : Legible p.crc entity) :
    ∃ ns : List ℕ, (∀ n ∈ ns, n < 2 ^ 24) ∧ (x.takeEntity ops p entity).acks = x.acks ++
    ns.map (ackEntity p) := by
  rcases he with ⟨g, hne, hg, rfl⟩ | ⟨err, hopen, hdiag⟩
  · simp only [takeEntity, opened_images hne (fun f hf => (hg f hf).1)]
    obtain ⟨ns, hns, -, hacks⟩ := takeAll_acks ops (p := p) h (fun f hf => (hg f hf).2)
    exact ⟨ns, hns, hacks⟩
  · refine ⟨[], by simp, ?_⟩
    simp only [takeEntity, hopen, List.map_nil, List.append_nil]
    rcases h with ⟨s, hx, -⟩ | ⟨m, res, hx⟩ | h
    · simp only [take, hx, ReceiveData.react, ReceiveData.handleError]
      cases err with
      | decode e =>
        simp only [hdiag e rfl, false_and, if_false]
        rfl
      | _ => rfl
    · rw [take_ended hx]
    · rw [take_failed h]

variable (ops) in
lemma flow_acks (h : x.Steady) {es : List Bytes} (he : ∀ e ∈ es, Legible p.crc e) :
    ∃ ns : List ℕ, (∀ n ∈ ns, n < 2 ^ 24) ∧ (flow ops p es [] x).acks = x.acks ++
    ns.map (ackEntity p) := by
  induction es generalizing x with
  | nil => exact ⟨[], by simp, by simp [flow, takeAll]⟩
  | cons e es ih =>
    rw [List.forall_mem_cons] at he
    obtain ⟨ns, hns, hacks⟩ := takeEntity_acks ops h he.1
    obtain ⟨ns', hns', hacks'⟩ := ih (takeEntity_steady ops h he.1) he.2
    refine ⟨ns ++ ns', ?_, ?_⟩
    · rw [List.forall_mem_append]
      exact ⟨hns, hns'⟩
    · have hcons : flow ops p (e :: es) [] x = flow ops p es [] (x.takeEntity ops p e) := rfl
      rw [hcons, hacks', hacks]
      simp

end Acknowledgements

section Owing

def owing (e : Bytes) (x : Reception τ) : Reception τ := { x with acks := e :: x.acks }

lemma performAll_owing (e : Bytes) (x : Reception τ) (ws : List Effect) :
    (x.owing e).performAll ops ws = (x.performAll ops ws).owing e := by
  induction ws generalizing x with
  | nil => rfl
  | cons w ws ih =>
    have hperform : (x.owing e).perform ops w = (x.perform ops w).owing e := by
      cases w <;> rfl
    simp only [performAll, List.foldl_cons, hperform] at ih ⊢
    exact ih _

lemma follow_owing (e : Bytes) (x : Reception τ) (act : Run RecvPhase) :
    (x.owing e).follow ops act = (x.follow ops act).owing e := by
  simp only [follow, performAll_owing]
  rfl

lemma take_owing (e : Bytes) (x : Reception τ) (r : Except SessionError Fpdu) :
    (x.owing e).take ops p r = (x.take ops p r).owing e := by
  simp only [take, follow_owing]
  simp only [owing]
  split <;> rfl

lemma takeAll_owing (e : Bytes) (x : Reception τ) (fs : List Fpdu) :
    (x.owing e).takeAll ops p fs = (x.takeAll ops p fs).owing e := by
  induction fs generalizing x with
  | nil => rfl
  | cons f fs ih => rw [takeAll_cons, takeAll_cons, take_owing, ih]

lemma flow_owing (e : Bytes) (x : Reception τ) (es : List Bytes) (fs : List Fpdu) :
    flow ops p es fs (x.owing e) = (flow ops p es fs x).owing e := by
  have hentity :
      ∀ (y : Reception τ) (d : Bytes), (y.owing e).takeEntity ops p d =
      (y.takeEntity ops p d).owing e := by
    intro y d
    simp only [takeEntity]
    split
    · exact take_owing e y _
    · exact takeAll_owing e y _
  induction es generalizing x with
  | nil => exact takeAll_owing e x fs
  | cons d es ih =>
    have hcons :
        ∀ y : Reception τ, flow ops p (d :: es) fs y = flow ops p es fs (y.takeEntity ops p d) :=
        fun _ => rfl
    rw [hcons, hcons, hentity, ih]

lemma deliverAll_owing (e : Bytes) (x : Reception τ) (as : List Bytes) :
    (x.owing e).deliverAll ops as = (x.deliverAll ops as).owing e := by
  induction as generalizing x with
  | nil => rfl
  | cons a as ih =>
    have hdeliver : (x.owing e).deliver ops a = (x.deliver ops a).owing e := by
      simp only [deliver, follow_owing]
      simp only [owing]
      split <;> rfl
    rw [deliverAll_cons, deliverAll_cons, hdeliver, ih]

end Owing

end Reception

end PesitWizard.Io
