import PesitWizard.Core.Packing
import PesitWizard.Io.Session

/-! What a receiver makes of everything that is on its way to it. Its effects are performed at once here,
so that the outcome does not depend on how the moves of a session are interleaved. -/

namespace PesitWizard.Io

open PesitWizard.Core Library

structure Reception (τ : Type) where
  phase : RecvPhase
  store : MemoryCheckpoints
  recorded : List Checkpoint
  sink : τ
  written : List Bytes
  acks : List Bytes

namespace Reception

variable {τ : Type} (ops : ArticleSink τ) (p : DataParams)

def perform (x : Reception τ) : Effect → Reception τ
  | .send e => { x with acks := x.acks ++ [e] }
  | .record cp => { x with store := x.store.record cp, recorded := x.recorded ++ [cp] }
  | .write article =>
    { x with sink := ops.writeArticle x.sink article, written := x.written ++ [article] }
  | .truncate pos => { x with sink := ops.truncate x.sink pos, written := x.written.take pos.articles }
  | .acknowledge _ => x

def performAll (x : Reception τ) (ws : List Effect) : Reception τ := ws.foldl (perform ops) x

def follow (x : Reception τ) (act : Run RecvPhase) : Reception τ :=
  { x.performAll ops act.effects with phase := .ofRun act }

def take (x : Reception τ) (r : Except SessionError Fpdu) : Reception τ :=
  match ReceiveData.react p x.store (ops.position x.sink) x.phase r with
  | some act => x.follow ops act
  | none => x

def takeAll (x : Reception τ) (fs : List Fpdu) : Reception τ :=
  fs.foldl (fun x f => x.take ops p (.ok f)) x

def opened (crc : Bool) (entity : Bytes) : Except SessionError (List Fpdu) :=
  match Frame.splitEntity entity crc with
  | .error e => .error (.decode e)
  | .ok parts =>
    match Link.decodeParts parts with
    | (_, some e) => .error (.decode e)
    | ([], none) => .error (.transport (.invalid entity.length))
    | (f :: fs, none) => .ok (f :: fs)

def takeEntity (x : Reception τ) (entity : Bytes) : Reception τ :=
  match opened p.crc entity with
  | .error e => x.take ops p (.error e)
  | .ok fs => x.takeAll ops p fs

def flow (es : List Bytes) (fs : List Fpdu) (x : Reception τ) : Reception τ :=
  (es.foldl (takeEntity ops p) x).takeAll ops p fs

def deliver (x : Reception τ) (article : Bytes) : Reception τ :=
  match x.phase with
  | .receiving s => x.follow ops (do
      let s ← ReceiveData.takeArticle s article
      pure (.receiving s))
  | _ => x

def deliverAll (x : Reception τ) (articles : List Bytes) : Reception τ := articles.foldl (deliver ops) x

def withReassembler (r : Reassembler) (x : Reception τ) : Reception τ :=
  match x.phase with
  | .receiving s => { x with phase := .receiving { s with reassembler := r } }
  | _ => x

def Failed (x : Reception τ) : Prop := ∃ e, x.phase = .failed e

/-- A receiver between two articles, in a state that accepts data. -/
def Idle (x : Reception τ) : Prop :=
  ∃ s, x.phase = .receiving s ∧ s.reassembler = .new p.maxArticle ∧
    (s.machine.state = .tde02B ∨ s.machine.state = .tdl02A)

variable {ops p} {x : Reception τ}

lemma take_failed (h : x.Failed) (r : Except SessionError Fpdu) : x.take ops p r = x := by
  obtain ⟨e, he⟩ := h
  simp only [take, he, ReceiveData.react]

lemma takeAll_failed (h : x.Failed) (fs : List Fpdu) : x.takeAll ops p fs = x := by
  induction fs with
  | nil => rfl
  | cons f fs ih =>
    simp only [takeAll, List.foldl_cons, take_failed h]
    exact ih

lemma takeEntity_failed (h : x.Failed) (e : Bytes) : x.takeEntity ops p e = x := by
  simp only [takeEntity]
  split
  · exact take_failed h _
  · exact takeAll_failed h _

lemma flow_failed (h : x.Failed) (es : List Bytes) (fs : List Fpdu) : flow ops p es fs x = x := by
  have hes : es.foldl (takeEntity ops p) x = x := by
    induction es with
    | nil => rfl
    | cons e es ih =>
      rw [List.foldl_cons, takeEntity_failed h]
      exact ih
  rw [flow, hes]
  exact takeAll_failed h fs

lemma deliver_failed (h : x.Failed) (a : Bytes) : x.deliver ops a = x := by
  obtain ⟨e, he⟩ := h
  simp only [deliver, he]

lemma deliverAll_failed (h : x.Failed) (as : List Bytes) : x.deliverAll ops as = x := by
  induction as with
  | nil => rfl
  | cons a as ih =>
    simp only [deliverAll, List.foldl_cons, deliver_failed h]
    exact ih

lemma deliverAll_cons (a : Bytes) (as : List Bytes) (x : Reception τ) :
    x.deliverAll ops (a :: as) = (x.deliver ops a).deliverAll ops as := rfl

lemma takeAll_cons (f : Fpdu) (fs : List Fpdu) (x : Reception τ) :
    x.takeAll ops p (f :: fs) = (x.take ops p (.ok f)).takeAll ops p fs := rfl

lemma takeAll_append (fs gs : List Fpdu) (x : Reception τ) :
    x.takeAll ops p (fs ++ gs) = (x.takeAll ops p fs).takeAll ops p gs := by
  simp [takeAll]

lemma deliverAll_append (as bs : List Bytes) (x : Reception τ) :
    x.deliverAll ops (as ++ bs) = (x.deliverAll ops as).deliverAll ops bs := by
  simp [deliverAll]

lemma flow_append (es es' : List Bytes) (fs : List Fpdu) (x : Reception τ) :
    flow ops p (es ++ es') fs x = flow ops p es' fs (flow ops p es [] x) := by
  simp [flow, takeAll]

section Articles

lemma performAll_append (ws vs : List Effect) (x : Reception τ) :
    x.performAll ops (ws ++ vs) = (x.performAll ops ws).performAll ops vs := by
  simp [performAll]

lemma follow_ok {α : Type} (ws : List Effect) (a : α) (k : α → Run RecvPhase) (x : Reception τ) :
    x.follow ops ((⟨ws, .ok a⟩ : Run α) >>= k) = (x.performAll ops ws).follow ops (k a) := by
  rw [Act.ok_bind, follow, follow, performAll_append]
  rfl

lemma follow_error {α : Type} (ws : List Effect) (e : SessionError) (k : α → Run RecvPhase)
    (x : Reception τ) :
    x.follow ops ((⟨ws, .error e⟩ : Run α) >>= k) = { x.performAll ops ws with phase := .failed e } :=
    rfl

lemma perform_phase (x : Reception τ) (w : Effect) (phase : RecvPhase) :
    ({ x with phase := phase } : Reception τ).perform ops w =
    { x.perform ops w with phase := phase } := by
  cases w <;> rfl

variable (ops) in
lemma performAll_phase (x : Reception τ) (ws : List Effect) (phase : RecvPhase) :
    ({ x with phase := phase } : Reception τ).performAll ops ws =
    { x.performAll ops ws with phase := phase } := by
  induction ws generalizing x with
  | nil => rfl
  | cons w ws ih =>
    simp only [performAll, List.foldl_cons, perform_phase] at ih ⊢
    exact ih _

lemma follow_phase (x : Reception τ) (act : Run RecvPhase) (phase : RecvPhase) :
    ({ x with phase := phase } : Reception τ).follow ops act = x.follow ops act := by
  simp only [follow, performAll_phase]

lemma follow_takeArticles (s : RecvState) (as : List Bytes) (x : Reception τ) :
    x.follow ops (do
      let s ← ReceiveData.takeArticles s as
      pure (.receiving s)) = ({ x with phase := .receiving s } : Reception τ).deliverAll ops as := by
  induction as generalizing s x with
  | nil => rfl
  | cons a as ih =>
    have hdeliver : ({ x with phase := .receiving s } : Reception τ).deliver ops a = x.follow ops (do
        let s ← ReceiveData.takeArticle s a
        pure (.receiving s)) := follow_phase x _ _
    rw [deliverAll_cons, hdeliver, ReceiveData.takeArticles, Act.bind_assoc]
    cases ReceiveData.takeArticle s a with
    | mk ws r =>
      cases r with
      | error e =>
        rw [follow_error, follow_error]
        exact (deliverAll_failed ⟨e, rfl⟩ as).symm
      | ok s' =>
        rw [follow_ok, follow_ok, ih]
        rfl

lemma applyReceived_data {m : Machine} (hm : m.state = .tde02B ∨ m.state = .tdl02A) {f : Fpdu}
    (hf : f.kind.isData = true) : applyReceived m f = .ok m := by
  obtain ⟨role, state⟩ := m
  obtain ⟨kind, d, s, params, data⟩ := f
  rcases hm with rfl | rfl <;> cases kind <;> first | rfl | cases hf

lemma withReassembler_failed (h : x.Failed) (r : Reassembler) : x.withReassembler r = x := by
  obtain ⟨e, he⟩ := h
  simp only [withReassembler, he]

lemma withReassembler_receiving {s : RecvState} (hx : x.phase = .receiving s) (r : Reassembler) :
    x.withReassembler r = { x with phase := .receiving { s with reassembler := r } } := by
  simp only [withReassembler, hx]

lemma withReassembler_self {s : RecvState} (hx : x.phase = .receiving s) :
    x.withReassembler s.reassembler = x := by
  rw [withReassembler_receiving hx, ← hx]

lemma withReassembler_twice (r r' : Reassembler) :
    (x.withReassembler r).withReassembler r' = x.withReassembler r' := by
  cases hx : x.phase <;> simp only [withReassembler, hx]

variable (ops) in
lemma deliver_receiving {s : RecvState} (hx : x.phase = .receiving s) (a : Bytes) :
    (x.deliver ops a).Failed ∨ ∃ s', (x.deliver ops a).phase = .receiving s' ∧
    s'.reassembler = s.reassembler ∧
      s'.machine = s.machine := by
  simp only [deliver, hx]
  cases hd : s.decompressor with
  | none =>
    right
    refine ⟨{ s with
      decompressor := none, dataBytes := s.dataBytes + a.length, articles :=
        s.articles + 1 }, ?_, rfl, rfl⟩
    simp only [ReceiveData.takeArticle, hd]
    rfl
  | some d =>
    cases hdec : d.decompress a with
    | error e =>
      left
      refine ⟨.decompress e, ?_⟩
      simp only [ReceiveData.takeArticle, hd, hdec, Except.mapError, Act.lift_error_bind]
      rfl
    | ok y =>
      right
      refine ⟨{ s with
        decompressor := some y.2
        dataBytes := s.dataBytes + a.length
        articles := s.articles + 1 }, ?_, rfl, rfl⟩
      simp only [ReceiveData.takeArticle, hd, hdec, Except.mapError, Act.lift_ok_bind]
      rfl

variable (ops) in
lemma deliverAll_receiving {s : RecvState} (hx : x.phase = .receiving s) (as : List Bytes) :
    (x.deliverAll ops as).Failed ∨ ∃ s', (x.deliverAll ops as).phase = .receiving s' ∧
      s'.reassembler = s.reassembler ∧ s'.machine = s.machine := by
  induction as generalizing x s with
  | nil => exact .inr ⟨s, hx, rfl, rfl⟩
  | cons a as ih =>
    rw [deliverAll_cons]
    rcases deliver_receiving ops hx a with hf | ⟨s', hs', hr, hm⟩
    · rw [deliverAll_failed hf]
      exact .inl hf
    · rcases ih hs' with hf | ⟨s'', hs'', hr', hm'⟩
      · exact .inl hf
      · exact .inr ⟨s'', hs'', hr'.trans hr, hm'.trans hm⟩

lemma deliver_withReassembler (r : Reassembler) (a : Bytes) (x : Reception τ) :
    (x.withReassembler r).deliver ops a = (x.deliver ops a).withReassembler r := by
  cases hx : x.phase with
  | receiving s =>
    rw [withReassembler_receiving hx]
    simp only [deliver, hx]
    cases hd : s.decompressor with
    | none =>
      simp only [ReceiveData.takeArticle, hd]
      rfl
    | some d =>
      cases hdec : d.decompress a with
      | error e =>
        simp only [ReceiveData.takeArticle, hd, hdec, Except.mapError, Act.lift_error_bind]
        rfl
      | ok y =>
        simp only [ReceiveData.takeArticle, hd, hdec, Except.mapError, Act.lift_ok_bind]
        rfl
  | awaitingAckResyn s => simp only [withReassembler, deliver, hx]
  | interrupting s => simp only [withReassembler, deliver, hx]
  | ended m res => simp only [withReassembler, deliver, hx]
  | failed e => simp only [withReassembler, deliver, hx]

lemma deliverAll_withReassembler (r : Reassembler) (as : List Bytes) (x : Reception τ) :
    (x.withReassembler r).deliverAll ops as = (x.deliverAll ops as).withReassembler r := by
  induction as generalizing x with
  | nil => rfl
  | cons a as ih => rw [deliverAll_cons, deliverAll_cons, deliver_withReassembler, ih]

variable (ops) in
lemma take_data {s : RecvState} (hx : x.phase = .receiving s)
    (hm : s.machine.state = .tde02B ∨ s.machine.state = .tdl02A)
    {f : Fpdu} (hf : f.kind.isData = true) :
    (∀ out r, s.reassembler.feed f = .ok (out, r) →
      x.take ops p (.ok f) = (x.deliverAll ops out).withReassembler r) ∧
    (∀ e, s.reassembler.feed f = .error e → (x.take ops p (.ok f)).Failed) := by
  simp only [take, hx, ReceiveData.react, ReceiveData.handle, applyReceived_data hm hf,
    Act.lift_ok_bind, hf, if_true]
  constructor
  · intro out r hfeed
    simp only [hfeed, Except.mapError, Act.lift_ok_bind]
    rw [follow_takeArticles, ← deliverAll_withReassembler, withReassembler_receiving hx]
  · intro e hfeed
    simp only [hfeed, Except.mapError, Act.lift_error_bind]
    exact ⟨_, rfl⟩

lemma takeAll_data {s : RecvState} (hx : x.phase = .receiving s)
    (hm : s.machine.state = .tde02B ∨ s.machine.state = .tdl02A) {fs : List Fpdu}
    (hf : ∀ f ∈ fs, f.kind.isData = true) :
    (∀ out r, s.reassembler.feedAll fs = .ok (out, r) →
      x.takeAll ops p fs = (x.deliverAll ops out).withReassembler r) ∧
    (∀ e, s.reassembler.feedAll fs = .error e → (x.takeAll ops p fs).Failed) := by
  induction fs generalizing x s with
  | nil =>
    refine ⟨?_, ?_⟩
    · intro out r h
      obtain ⟨rfl, rfl⟩ := Prod.mk.inj (Except.ok.inj h)
      exact (withReassembler_self hx).symm
    · intro e h
      cases h
  | cons f fs ih =>
    rw [List.forall_mem_cons] at hf
    obtain ⟨hok, herr⟩ := take_data ops (p := p) hx hm hf.1
    rw [takeAll_cons]
    cases hfeed : s.reassembler.feed f with
    | error e =>
      have hfailed := herr e hfeed
      rw [takeAll_failed hfailed, Reassembler.feedAll_cons_error hfeed]
      refine ⟨?_, fun _ _ => hfailed⟩
      intro out r h
      cases h
    | ok y =>
      obtain ⟨out, r⟩ := y
      rw [hok out r hfeed, Reassembler.feedAll_cons hfeed]
      -- the articles of `f` may be refused, and then nothing else is taken
      rcases deliverAll_receiving ops hx out with hfailed | ⟨s', hs', -, hm'⟩
      · rw [withReassembler_failed hfailed, takeAll_failed hfailed]
        refine ⟨?_, fun _ _ => hfailed⟩
        intro out' r' h
        cases hmore : r.feedAll fs with
        | error e =>
          rw [hmore] at h
          cases h
        | ok y =>
          rw [hmore] at h
          obtain ⟨rfl, rfl⟩ := Prod.mk.inj (Except.ok.inj h)
          rw [deliverAll_append, deliverAll_failed hfailed, withReassembler_failed hfailed]
      · have hwr := withReassembler_receiving hs' r
        obtain ⟨hok', herr'⟩ := ih (x := (x.deliverAll ops out).withReassembler r)
          (s := { s' with reassembler := r }) (by rw [hwr]) (by rw [hm']; exact hm) hf.2
        cases hmore : r.feedAll fs with
        | error e =>
          refine ⟨?_, fun _ _ => herr' e hmore⟩
          intro out' r' h
          cases h
        | ok y =>
          refine ⟨?_, ?_⟩
          · intro out' r' h
            obtain ⟨rfl, rfl⟩ := Prod.mk.inj (Except.ok.inj h)
            rw [hok' _ _ hmore, deliverAll_withReassembler, withReassembler_twice, deliverAll_append]
          · intro e h
            cases h

end Articles

section Entities

lemma decodeParts_images {fs : List Fpdu} (h : ∀ f ∈ fs, Frame.Sound f) :
    Link.decodeParts (fs.map (fun f => f.header ++ f.body)) = (fs, none) := by
  induction fs with
  | nil => rfl
  | cons f fs ih =>
    rw [List.forall_mem_cons] at h
    simp only [List.map_cons, Link.decodeParts, Fpdu.decode_encoded h.1.1 h.1.2, ih h.2]

lemma opened_images {crc : Bool} {fs : List Fpdu} (hne : fs ≠ []) (h : ∀ f ∈ fs, Frame.Sound f) :
    opened crc (fs.flatMap (Frame.image crc)) = .ok fs := by
  simp only [opened, Frame.splitEntity_images crc (fun f hf => (h f hf).2), decodeParts_images h]
  cases fs with
  | nil => exact absurd rfl hne
  | cons f fs => rfl

lemma opened_image {f : Fpdu} (hf : Frame.Sound f) (crc : Bool) :
    opened crc (Frame.image crc f) = .ok [f] := by
  have hopen : opened crc ([f].flatMap (Frame.image crc)) = .ok [f] :=
    opened_images (by simp) (by simpa using hf)
  rwa [List.flatMap_singleton] at hopen

lemma image_injective {crc : Bool} {f g : Fpdu} (hf : Frame.Sound f) (hg : Frame.Sound g)
    (h : Frame.image crc f = Frame.image crc g) : f = g := by
  have hf' := opened_image hf crc
  rw [h, opened_image hg crc] at hf'
  exact (List.cons.inj (Except.ok.inj hf')).1.symm

variable (ops) in
lemma flow_entity (es : List Bytes) {fs : List Fpdu} (gs : List Fpdu) (hne : fs ≠ [])
    (h : ∀ f ∈ fs, Frame.Sound f) (x : Reception τ) :
    flow ops p (es ++ [fs.flatMap (Frame.image p.crc)]) gs x = flow ops p es (fs ++ gs) x := by
  simp only [flow, List.foldl_append, List.foldl_cons, List.foldl_nil, takeEntity, opened_images hne h]
  rw [takeAll_append]

end Entities

end Reception

end PesitWizard.Io
