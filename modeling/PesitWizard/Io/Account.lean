import PesitWizard.Core.Reassembly
import PesitWizard.Io.Flow
import PesitWizard.Library.Moves

/-! What a receiver has been given since the start of its data phase or the last resynchronisation, and
what it has handed to its sink. -/

namespace PesitWizard.Io

open PesitWizard.Core Library Reception

inductive Input
  | reception (r : Except SessionError Fpdu)
  | cancellation

structure Account (τ : Type) where
  reception : Reception τ
  carried : Bytes
  handed : List Bytes
  segmented : Bool

namespace Account

variable {τ : Type} (ops : ArticleSink τ) (p : DataParams)

def fed (s : RecvState) (f : Fpdu) : List Bytes := ((s.reassembler.feed f).toOption.map Prod.fst).getD []

def resynchronised (y : Reception τ) : Account τ := ⟨y, [], [], false⟩

def take (x : Account τ) : Input → Account τ
  | .reception r =>
    let y := x.reception.take ops p r
    match x.reception.phase, r with
    | .receiving s, .ok f =>
      if f.kind.isData then
        { reception := y
          carried := x.carried ++ f.octets
          handed := x.handed ++ (fed s f).take (y.written.length - x.reception.written.length)
          segmented := f.kind == .dtfDa || f.kind == .dtfMa }
      else if f.kind = .resyn then resynchronised y
      else { x with reception := y }
    | .awaitingAckResyn _, .ok f =>
      if f.kind = .ackResyn then resynchronised y else { x with reception := y }
    | _, _ => { x with reception := y }
  | .cancellation =>
    match x.reception.phase with
    | .receiving s => { x with reception := x.reception.follow ops (ReceiveData.cancel p s) }
    | _ => x

/-- The receiver completes only with every octet handed over, and records a point only
between two articles. -/
def Lossless (x : Account τ) (i : Input) : Prop :=
  (∀ s m res, x.reception.phase = .receiving s → (x.take ops p i).reception.phase = .ended m res →
    res.ending = .completed → (x.take ops p i).carried = (x.take ops p i).handed.flatten) ∧
  ((x.take ops p i).reception.recorded ≠ x.reception.recorded → x.segmented = false)

/-- A SYN, or a DTF.END without an error, does not arrive while an article is being put together. -/
def AtBoundary (x : Account τ) (i : Input) : Prop :=
  ∀ s f, x.reception.phase = .receiving s → i = .reception (.ok f) →
    (f.kind = .syn → s.reassembler.inProgress = false) ∧
    (f.kind = .dtfEnd → f.diagOrOk.isOk = true → s.reassembler.part.getD [] = [])

def Balanced (x : Account τ) : Prop :=
  ∀ s, x.reception.phase = .receiving s →
    x.carried = x.handed.flatten ++ s.reassembler.part.getD [] ∧ x.segmented = s.reassembler.inProgress

variable {ops p} {x : Account τ} {y : Reception τ}

section Deliveries

variable (ops) in
lemma deliver_written {s : RecvState} (hy : y.phase = .receiving s) (a : Bytes) :
    (y.deliver ops a).Failed ∨
    ((y.deliver ops a).written.length = y.written.length + 1 ∧
      (y.deliver ops a).recorded = y.recorded) := by
  simp only [deliver, hy]
  cases hd : s.decompressor with
  | none =>
    right
    simp only [ReceiveData.takeArticle, hd]
    exact ⟨List.length_append, rfl⟩
  | some d =>
    cases hdec : d.decompress a with
    | error e =>
      left
      refine ⟨.decompress e, ?_⟩
      simp only [ReceiveData.takeArticle, hd, hdec, Except.mapError, Act.lift_error_bind]
      rfl
    | ok z =>
      right
      simp only [ReceiveData.takeArticle, hd, hdec, Except.mapError, Act.lift_ok_bind]
      exact ⟨List.length_append, rfl⟩

variable (ops) in
lemma deliverAll_written {s : RecvState} (hy : y.phase = .receiving s) (as : List Bytes) :
    (y.deliverAll ops as).Failed ∨
    ((y.deliverAll ops as).written.length = y.written.length + as.length ∧
      (y.deliverAll ops as).recorded = y.recorded) := by
  induction as generalizing y s with
  | nil => exact .inr ⟨rfl, rfl⟩
  | cons a as ih =>
    rw [deliverAll_cons]
    rcases deliver_receiving ops hy a with hfail | ⟨s', hs', -, -⟩
    · rw [deliverAll_failed hfail]
      exact .inl hfail
    · rcases deliver_written ops hy a with hfail | ⟨hlen, hrec⟩
      · rw [deliverAll_failed hfail]
        exact .inl hfail
      · apply (ih hs').imp_right
        rintro ⟨hlen', hrec'⟩
        refine ⟨?_, hrec'.trans hrec⟩
        rw [hlen', hlen, List.length_cons]
        omega

lemma take_fed {s : RecvState} (hy : y.phase = .receiving s) {f : Fpdu} (hf : f.kind.isData = true)
    (hok : ¬ (y.take ops p (.ok f)).Failed) :
    ∃ articles r s', s.reassembler.feed f = .ok (articles, r) ∧
    (y.take ops p (.ok f)).phase = .receiving s' ∧
      s'.reassembler = r ∧ (y.take ops p (.ok f)).written.length = y.written.length + articles.length ∧
      (y.take ops p (.ok f)).recorded = y.recorded := by
  simp only [Reception.take, hy, ReceiveData.react, ReceiveData.handle] at hok ⊢
  cases happ : applyReceived s.machine f with
  | error e =>
    rw [happ] at hok
    exact absurd ⟨e, rfl⟩ hok
  | ok m =>
    simp only [happ, Act.lift_ok_bind, hf, if_true] at hok ⊢
    cases hfeed : s.reassembler.feed f with
    | error e =>
      rw [hfeed] at hok
      exact absurd ⟨.reassembly e, rfl⟩ hok
    | ok out =>
      obtain ⟨articles, r⟩ := out
      simp only [hfeed, Except.mapError, Act.lift_ok_bind, follow_takeArticles] at hok ⊢
      have hstart :
          ({ y with phase := .receiving { s with machine := m, reassembler := r } } :
          Reception τ).phase = .receiving { s with machine := m, reassembler := r } := rfl
      obtain ⟨s', hs', hr, -⟩ := (deliverAll_receiving ops hstart articles).resolve_left hok
      obtain ⟨hlen, hrec⟩ := (deliverAll_written ops hstart articles).resolve_left hok
      exact ⟨articles, r, s', rfl, hs', hr, hlen, hrec⟩

end Deliveries

section Others

lemma follow_emit (w : Effect) (k : Run RecvPhase) (y : Reception τ) :
    y.follow ops (Act.emit w >>= fun _ => k) = (y.perform ops w).follow ops k := follow_ok [w] () _ y

lemma follow_answer (crc : Bool) (f : Fpdu) (m : Machine) (e : LocalEvent) (phase : Machine → RecvPhase)
    (y : Reception τ) :
    let z := y.follow ops (do
      sendFpdu crc f
      let m ← Act.lift (applyLocal m e)
      pure (phase m))
    z.Failed ∨ ∃ m' acks, z = { y with acks := acks, phase := phase m' } := by
  rw [sendFpdu]
  cases (Frame.singleEntity f crc).mapError (fun e => SessionError.negotiation (.encode e)) with
  | error e => exact .inl ⟨e, rfl⟩
  | ok entity =>
    cases applyLocal m e with
    | error e => exact .inl ⟨e, rfl⟩
    | ok m' => exact .inr ⟨m', y.acks ++ [entity], rfl⟩

variable {s : RecvState} {f : Fpdu}

lemma take_syn (hy : y.phase = .receiving s) (hf : f.kind = .syn)
    (hok : ¬ (y.take ops p (.ok f)).Failed) :
    ∃ s' cp, (y.take ops p (.ok f)).phase = .receiving s' ∧ s'.reassembler = s.reassembler ∧
      (y.take ops p (.ok f)).recorded = y.recorded ++ [cp] := by
  simp only [Reception.take, hy, ReceiveData.react, ReceiveData.handle, hf] at hok ⊢
  cases happ : applyReceived s.machine f with
  | error e =>
    rw [happ] at hok
    exact absurd ⟨e, rfl⟩ hok
  | ok m =>
    have hdata : FpduKind.isData .syn = false := rfl
    simp only [happ, Act.lift_ok_bind, hdata, Bool.false_eq_true, if_false, follow_emit] at hok ⊢
    split
    · rename_i hw
      rw [if_pos hw] at hok
      obtain ⟨m', acks, heq⟩ := (follow_answer ..).resolve_left hok
      rw [heq]
      exact ⟨_, _, rfl, rfl, rfl⟩
    · exact ⟨_, _, rfl, rfl, rfl⟩

lemma take_dtfEnd (hy : y.phase = .receiving s) (hf : f.kind = .dtfEnd)
    (hok : ¬ (y.take ops p (.ok f)).Failed) :
    ∃ m res, (y.take ops p (.ok f)).phase = .ended m res ∧
    (res.ending = .completed ↔ f.diagOrOk.isOk = true) ∧
      (y.take ops p (.ok f)).recorded = y.recorded := by
  simp only [Reception.take, hy, ReceiveData.react, ReceiveData.handle, hf] at hok ⊢
  cases happ : applyReceived s.machine f with
  | error e =>
    rw [happ] at hok
    exact absurd ⟨e, rfl⟩ hok
  | ok m =>
    refine ⟨m, _, rfl, ?_, rfl⟩
    cases f.diagOrOk.isOk <;> simp [ReceiveData.result]

lemma take_resyn (hy : y.phase = .receiving s) (hf : f.kind = .resyn)
    (hok : ¬ (y.take ops p (.ok f)).Failed) :
    ∃ s', (y.take ops p (.ok f)).phase = .receiving s' ∧ s'.reassembler = .new p.maxArticle ∧
      (y.take ops p (.ok f)).recorded = y.recorded := by
  simp only [Reception.take, hy, ReceiveData.react, ReceiveData.handle, hf] at hok ⊢
  cases happ : applyReceived s.machine f with
  | error e =>
    rw [happ] at hok
    exact absurd ⟨e, rfl⟩ hok
  | ok m =>
    have hdata : FpduKind.isData .resyn = false := rfl
    simp only [happ, Act.lift_ok_bind, hdata, Bool.false_eq_true, if_false, follow_emit] at hok ⊢
    obtain ⟨m', acks, heq⟩ := (follow_answer ..).resolve_left hok
    rw [heq]
    exact ⟨_, rfl, rfl, rfl⟩

lemma take_other (hy : y.phase = .receiving s) (hdata : f.kind.isData = false) (hsyn : f.kind ≠ .syn)
    (hend : f.kind ≠ .dtfEnd) (hresyn : f.kind ≠ .resyn) (hok : ¬ (y.take ops p (.ok f)).Failed) :
    (y.take ops p (.ok f)).recorded = y.recorded ∧
      ((∃ m res, (y.take ops p (.ok f)).phase = .ended m res ∧ res.ending ≠ .completed) ∨
        ∃ s', (y.take ops p (.ok f)).phase = .receiving s' ∧ s'.reassembler = s.reassembler) := by
  simp only [Reception.take, hy, ReceiveData.react, ReceiveData.handle] at hok ⊢
  cases happ : applyReceived s.machine f with
  | error e =>
    rw [happ] at hok
    exact absurd ⟨e, rfl⟩ hok
  | ok m =>
    simp only [happ, Act.lift_ok_bind, hdata, Bool.false_eq_true, if_false] at hok ⊢
    split
    · exact absurd ‹_› hsyn
    · exact absurd ‹_› hend
    · exact absurd ‹_› hresyn
    · rename_i hidt
      simp only [hidt] at hok
      obtain ⟨m', acks, heq⟩ := (follow_answer ..).resolve_left hok
      rw [heq]
      exact ⟨rfl, .inl ⟨_, _, rfl, by simp [ReceiveData.result]⟩⟩
    · exact ⟨rfl, .inr ⟨_, rfl, rfl⟩⟩

lemma follow_request (crc : Bool) (f : Fpdu) (m : Machine) (e : LocalEvent) (phase : Machine → RecvPhase)
    (y : Reception τ) :
    let z := y.follow ops (do
      let m ← Act.lift (applyLocal m e)
      sendFpdu crc f
      pure (phase m))
    z.Failed ∨ ∃ m' acks, z = { y with acks := acks, phase := phase m' } := by
  cases applyLocal m e with
  | error e => exact .inl ⟨e, rfl⟩
  | ok m' =>
    rw [Act.lift_ok_bind, sendFpdu]
    cases (Frame.singleEntity f crc).mapError (fun e => SessionError.negotiation (.encode e)) with
    | error e => exact .inl ⟨e, rfl⟩
    | ok entity => exact .inr ⟨m', y.acks ++ [entity], rfl⟩

lemma take_error (hy : y.phase = .receiving s) (e : SessionError)
    (hok : ¬ (y.take ops p (.error e)).Failed) :
    (y.take ops p (.error e)).recorded = y.recorded ∧
    ∃ s', (y.take ops p (.error e)).phase = .awaitingAckResyn s' := by
  simp only [Reception.take, hy, ReceiveData.react] at hok ⊢
  cases e with
  | decode err =>
    simp only [ReceiveData.handleError] at hok ⊢
    split
    · rename_i hcrc
      rw [if_pos hcrc] at hok
      obtain ⟨m', acks, heq⟩ := (follow_request ..).resolve_left hok
      rw [heq]
      exact ⟨rfl, _, rfl⟩
    · rename_i hcrc
      rw [if_neg hcrc] at hok
      exact absurd ⟨_, rfl⟩ hok
  | _ => exact absurd ⟨_, rfl⟩ hok

lemma take_cancel (hok : ¬ (y.follow ops (ReceiveData.cancel p s)).Failed) :
    (y.follow ops (ReceiveData.cancel p s)).recorded = y.recorded ∧
      ∃ s', (y.follow ops (ReceiveData.cancel p s)).phase = .interrupting s' := by
  simp only [ReceiveData.cancel, interrupt, Act.bind_assoc, Act.pure_bind] at hok ⊢
  obtain ⟨m', acks, heq⟩ := (follow_request ..).resolve_left hok
  rw [heq]
  exact ⟨rfl, _, rfl⟩

lemma take_awaiting (hy : y.phase = .awaitingAckResyn s) (r : Except SessionError Fpdu)
    (hok : ¬ (y.take ops p r).Failed) : (y.take ops p r).recorded = y.recorded ∧
      ((∃ s', (y.take ops p r).phase = .awaitingAckResyn s') ∨
        ∃ f s', r = .ok f ∧ f.kind = .ackResyn ∧ (y.take ops p r).phase = .receiving s' ∧
          s'.reassembler = .new p.maxArticle) := by
  simp only [Reception.take, hy, ReceiveData.react] at hok ⊢
  cases r with
  | error e => exact absurd ⟨e, rfl⟩ hok
  | ok f =>
    simp only [ReceiveData.awaitAckResyn] at hok ⊢
    by_cases hack : f.kind = .ackResyn
    · simp only [if_pos hack] at hok ⊢
      cases happ : applyReceived s.machine f with
      | error e =>
        rw [happ] at hok
        exact absurd ⟨e, rfl⟩ hok
      | ok m =>
        simp only [happ, Act.lift_ok_bind] at hok ⊢
        split
        · exact ⟨rfl, .inr ⟨f, _, rfl, hack, rfl, rfl⟩⟩
        · rename_i hpoint
          simp only [if_neg hpoint] at hok
          cases hget : y.store.get (f.restartPoint.getD 0) with
          | none =>
            rw [hget] at hok
            exact absurd ⟨_, rfl⟩ hok
          | some cp => exact ⟨rfl, .inr ⟨f, _, rfl, hack, rfl, rfl⟩⟩
    · simp only [if_neg hack] at hok ⊢
      by_cases habort : f.kind = .abort
      · simp only [if_pos habort] at hok ⊢
        cases happ : applyReceived s.machine f with
        | error e =>
          rw [happ] at hok
          exact absurd ⟨e, rfl⟩ hok
        | ok m => exact ⟨rfl, .inl ⟨_, rfl⟩⟩
      · simp only [if_neg habort] at hok ⊢
        exact ⟨rfl, .inl ⟨_, rfl⟩⟩

lemma take_interrupting (hy : y.phase = .interrupting s) (r : Except SessionError Fpdu)
    (hok : ¬ (y.take ops p r).Failed) : (y.take ops p r).recorded = y.recorded ∧
      ∀ s', (y.take ops p r).phase ≠ .receiving s' := by
  simp only [Reception.take, hy, ReceiveData.react] at hok ⊢
  cases r with
  | error e => exact absurd ⟨e, rfl⟩ hok
  | ok f =>
    simp only [ReceiveData.interrupted, interruptRecv] at hok ⊢
    cases happ : applyReceived s.machine f with
    | error e =>
      rw [happ] at hok
      exact absurd ⟨e, rfl⟩ hok
    | ok m =>
      simp only [happ, Act.lift_ok_bind] at hok ⊢
      revert hok
      split
      · exact fun _ => ⟨rfl, fun s' h => by cases h⟩
      · intro hok
        simp only [sendFpdu] at hok ⊢
        cases hent : Frame.singleEntity (Builder.ackIdt p.peerId) p.crc with
        | error e =>
          rw [hent] at hok
          exact absurd ⟨_, rfl⟩ hok
        | ok entity => cases happl : applyLocal m .accept <;> exact ⟨rfl, fun s' h => by cases h⟩
      · exact fun _ => ⟨rfl, fun s' h => by cases h⟩

end Others

section Steps

variable {i : Input}

lemma take_reception (x : Account τ) (r : Except SessionError Fpdu) :
    (x.take ops p (.reception r)).reception = x.reception.take ops p r := by
  simp only [take]
  split
  · split
    · rfl
    · split <;> rfl
  · split <;> rfl
  · rfl

lemma take_failed (hx : x.reception.Failed) (i : Input) : (x.take ops p i).reception.Failed := by
  cases i with
  | reception r =>
    rw [take_reception, Reception.take_failed hx]
    exact hx
  | cancellation =>
    obtain ⟨e, he⟩ := hx
    simp only [take, he]
    exact ⟨e, he⟩

lemma lossless_of_idle (hrec : (x.take ops p i).reception.recorded = x.reception.recorded)
    (hend : ∀ m res, (x.take ops p i).reception.phase = .ended m res → res.ending ≠ .completed) :
    x.Lossless ops p i :=
  ⟨fun _ m res _ h hres => absurd hres (hend m res h), fun h => absurd hrec h⟩

lemma atBoundary_of_kind {f : Fpdu} (hsyn : f.kind ≠ .syn) (hend : f.kind ≠ .dtfEnd) :
    x.AtBoundary (.reception (.ok f)) := by
  rintro s f' - hi
  obtain rfl := Except.ok.inj (Input.reception.inj hi)
  exact ⟨fun h => absurd h hsyn, fun h => absurd h hend⟩

lemma atBoundary_of_phase (hx : ∀ s, x.reception.phase ≠ .receiving s) : x.AtBoundary i :=
  fun s _ h _ => absurd h (hx s)

lemma lossless_of_phase (hx : ∀ s, x.reception.phase ≠ .receiving s)
    (hrec : (x.take ops p i).reception.recorded = x.reception.recorded) : x.Lossless ops p i :=
  ⟨fun s _ _ h _ _ => absurd h (hx s), fun h => absurd hrec h⟩

lemma balanced_of_phase (hx : ∀ s, x.reception.phase ≠ .receiving s) : x.Balanced :=
  fun s h => absurd h (hx s)

lemma take_of_cancellation (hx : ∀ s, x.reception.phase ≠ .receiving s) :
    x.take ops p .cancellation = x := by
  rw [take]
  split
  · rename_i s hphase
    exact absurd hphase (hx s)
  · rfl

/-- While the peer's answer to a RESYN or an IDT is awaited, nothing is recorded. -/
lemma step_waiting (hx : ∀ s, x.reception.phase ≠ .receiving s)
    (hrec : (x.take ops p i).reception.recorded = x.reception.recorded)
    (hbalanced : (x.take ops p i).Balanced) :
    (x.Lossless ops p i ↔ x.AtBoundary i) ∧ (x.take ops p i).Balanced :=
  ⟨iff_of_true (lossless_of_phase hx hrec) (atBoundary_of_phase hx), hbalanced⟩

/-- An error of the link and a cancellation leave the reception without an end of its own. -/
lemma step_stops (hi : ∀ f, i ≠ .reception (.ok f))
    (hrec : (x.take ops p i).reception.recorded = x.reception.recorded)
    (hphase : ∀ s, (x.take ops p i).reception.phase ≠ .receiving s)
    (hend : ∀ m res, (x.take ops p i).reception.phase ≠ .ended m res) :
    (x.Lossless ops p i ↔ x.AtBoundary i) ∧ (x.take ops p i).Balanced :=
  ⟨iff_of_true (lossless_of_idle hrec fun m res h => absurd h (hend m res))
    (fun _ f _ h => absurd h (hi f)), balanced_of_phase hphase⟩

section Kinds

variable {s : RecvState} {f : Fpdu}

lemma take_plain (hphase : x.reception.phase = .receiving s) (hdata : f.kind.isData = false)
    (hresyn : f.kind ≠ .resyn) :
    x.take ops p (.reception (.ok f)) = { x with reception := x.reception.take ops p (.ok f) } := by
  simp only [take, hphase, hdata, Bool.false_eq_true, if_false, hresyn]

lemma step_data (hphase : x.reception.phase = .receiving s) (hx : x.Balanced)
    (hok : ¬ (x.reception.take ops p (.ok f)).Failed) (hdata : f.kind.isData = true) :
    (x.Lossless ops p (.reception (.ok f)) ↔ x.AtBoundary (.reception (.ok f))) ∧
      (x.take ops p (.reception (.ok f))).Balanced := by
  obtain ⟨articles, r, s', hfeed, hs', rfl, hlen, hrec⟩ := take_fed hphase hdata hok
  obtain ⟨hoctets, hprogress⟩ := Reassembler.feed_octets hdata hfeed
  have htake : x.take ops p (.reception (.ok f)) =
      ⟨x.reception.take ops p (.ok f), x.carried ++ f.octets, x.handed ++ articles,
        f.kind == .dtfDa || f.kind == .dtfMa⟩ := by
    simp only [take, hphase, hdata, if_true, fed, hfeed, hlen, Nat.add_sub_cancel_left,
      Except.toOption, Option.map_some, Option.getD_some, List.take_length]
  refine ⟨iff_of_true ?_ ?_, ?_⟩
  · apply lossless_of_idle
    · rw [take_reception, hrec]
    · intro m res h
      rw [take_reception, hs'] at h
      cases h
  · apply atBoundary_of_kind
    · rintro hk
      rw [hk] at hdata
      cases hdata
    · rintro hk
      rw [hk] at hdata
      cases hdata
  · intro s'' hs''
    rw [htake] at hs'' ⊢
    obtain rfl := RecvPhase.receiving.inj (hs'.symm.trans hs'')
    refine ⟨?_, hprogress.symm⟩
    rw [(hx s hphase).1, List.append_assoc, hoctets, List.flatten_append, List.append_assoc]

lemma step_resyn (hphase : x.reception.phase = .receiving s)
    (hok : ¬ (x.reception.take ops p (.ok f)).Failed) (hresyn : f.kind = .resyn) :
    (x.Lossless ops p (.reception (.ok f)) ↔ x.AtBoundary (.reception (.ok f))) ∧
      (x.take ops p (.reception (.ok f))).Balanced := by
  obtain ⟨s', hs', hr, hrec⟩ := take_resyn hphase hresyn hok
  have htake :
      x.take ops p (.reception (.ok f)) = resynchronised (x.reception.take ops p (.ok f)) := by
    simp only [take, hphase, hresyn]
    rfl
  refine ⟨iff_of_true ?_ ?_, ?_⟩
  · apply lossless_of_idle
    · rw [take_reception, hrec]
    · intro m res h
      rw [take_reception, hs'] at h
      cases h
  · exact atBoundary_of_kind (by rw [hresyn]; decide) (by rw [hresyn]; decide)
  · intro s'' hs''
    rw [htake] at hs'' ⊢
    obtain rfl := RecvPhase.receiving.inj (hs'.symm.trans hs'')
    rw [hr]
    exact ⟨rfl, rfl⟩

/-- A point is recorded between two articles exactly if no article is being put together when its SYN
arrives. -/
lemma step_syn (hphase : x.reception.phase = .receiving s) (hx : x.Balanced)
    (hok : ¬ (x.reception.take ops p (.ok f)).Failed) (hsyn : f.kind = .syn) :
    (x.Lossless ops p (.reception (.ok f)) ↔ x.AtBoundary (.reception (.ok f))) ∧
      (x.take ops p (.reception (.ok f))).Balanced := by
  obtain ⟨s', cp, hs', hr, hrec⟩ := take_syn hphase hsyn hok
  obtain ⟨hcarried, hsegmented⟩ := hx s hphase
  refine ⟨⟨?_, ?_⟩, ?_⟩
  · rintro ⟨-, hseg⟩ s₁ f₁ hs₁ hf₁
    obtain rfl := RecvPhase.receiving.inj (hphase.symm.trans hs₁)
    obtain rfl := Except.ok.inj (Input.reception.inj hf₁)
    refine ⟨fun _ => ?_, fun h => absurd (hsyn.symm.trans h) (by decide)⟩
    rw [← hsegmented]
    apply hseg
    rw [take_reception, hrec]
    simp
  · intro hat
    refine ⟨?_, fun _ => ?_⟩
    · intro _ m res _ h
      rw [take_reception, hs'] at h
      cases h
    · rw [hsegmented]
      exact (hat s f hphase rfl).1 hsyn
  · intro s'' hs''
    rw [take_plain hphase (by rw [hsyn]; rfl) (by rw [hsyn]; decide)] at hs'' ⊢
    obtain rfl := RecvPhase.receiving.inj (hs'.symm.trans hs'')
    rw [hr]
    exact ⟨hcarried, hsegmented⟩

/-- All octets are handed over exactly if the DTF.END leaves no article behind. -/
lemma step_dtfEnd (hphase : x.reception.phase = .receiving s) (hx : x.Balanced)
    (hok : ¬ (x.reception.take ops p (.ok f)).Failed) (hend : f.kind = .dtfEnd) :
    (x.Lossless ops p (.reception (.ok f)) ↔ x.AtBoundary (.reception (.ok f))) ∧
      (x.take ops p (.reception (.ok f))).Balanced := by
  obtain ⟨m, res, hs', hres, hrec⟩ := take_dtfEnd hphase hend hok
  obtain ⟨hcarried, -⟩ := hx s hphase
  have htake : x.take ops p (.reception (.ok f)) = { x with reception := x.reception.take ops p (.ok f) } :=
    take_plain hphase (by rw [hend]; rfl) (by rw [hend]; decide)
  refine ⟨⟨?_, ?_⟩, ?_⟩
  · rintro ⟨hwhole, -⟩ s₁ f₁ hs₁ hf₁
    obtain rfl := RecvPhase.receiving.inj (hphase.symm.trans hs₁)
    obtain rfl := Except.ok.inj (Input.reception.inj hf₁)
    refine ⟨fun h => absurd (hend.symm.trans h) (by decide), fun _ hdiag => ?_⟩
    have hall := hwhole s m res hphase (by rw [take_reception, hs']) (hres.mpr hdiag)
    rw [htake] at hall
    exact List.append_cancel_left ((hcarried.symm.trans hall).trans (List.append_nil _).symm)
  · intro hat
    refine ⟨?_, fun h => absurd (by rw [take_reception, hrec]) h⟩
    intro s₁ m₁ res₁ hs₁ h hcompleted
    rw [take_reception, hs'] at h
    obtain ⟨rfl, rfl⟩ := RecvPhase.ended.inj h
    have hnone := (hat s f hphase rfl).2 hend (hres.mp hcompleted)
    rw [htake]
    show x.carried = x.handed.flatten
    rw [hcarried, hnone, List.append_nil]
  · intro s'' hs''
    rw [take_reception, hs'] at hs''
    cases hs''

lemma step_other (hphase : x.reception.phase = .receiving s) (hx : x.Balanced)
    (hok : ¬ (x.reception.take ops p (.ok f)).Failed) (hdata : f.kind.isData = false)
    (hsyn : f.kind ≠ .syn) (hend : f.kind ≠ .dtfEnd) (hresyn : f.kind ≠ .resyn) :
    (x.Lossless ops p (.reception (.ok f)) ↔ x.AtBoundary (.reception (.ok f))) ∧
      (x.take ops p (.reception (.ok f))).Balanced := by
  obtain ⟨hrec, hcases⟩ := take_other hphase hdata hsyn hend hresyn hok
  refine ⟨iff_of_true ?_ (atBoundary_of_kind hsyn hend), ?_⟩
  · apply lossless_of_idle
    · rw [take_reception, hrec]
    · intro m res h
      rw [take_reception] at h
      rcases hcases with ⟨m', res', h', hres'⟩ | ⟨s', h', -⟩
      · rw [h'] at h
        obtain ⟨rfl, rfl⟩ := RecvPhase.ended.inj h
        exact hres'
      · rw [h'] at h
        cases h
  · intro s'' hs''
    rw [take_plain hphase hdata hresyn] at hs'' ⊢
    rcases hcases with ⟨m', res', h', -⟩ | ⟨s', h', hr⟩
    · cases h'.symm.trans hs''
    · obtain rfl := RecvPhase.receiving.inj (h'.symm.trans hs'')
      rw [hr]
      exact hx s hphase

end Kinds

lemma step_receiving {s : RecvState} (hphase : x.reception.phase = .receiving s)
    (hx : x.Balanced) {f : Fpdu} (hok : ¬ (x.take ops p (.reception (.ok f))).reception.Failed) :
    (x.Lossless ops p (.reception (.ok f)) ↔ x.AtBoundary (.reception (.ok f))) ∧
      (x.take ops p (.reception (.ok f))).Balanced := by
  rw [take_reception] at hok
  by_cases hdata : f.kind.isData = true
  · exact step_data hphase hx hok hdata
  by_cases hresyn : f.kind = .resyn
  · exact step_resyn hphase hok hresyn
  by_cases hsyn : f.kind = .syn
  · exact step_syn hphase hx hok hsyn
  by_cases hend : f.kind = .dtfEnd
  · exact step_dtfEnd hphase hx hok hend
  · exact step_other hphase hx hok (by simpa using hdata) hsyn hend hresyn

lemma step (hx : x.Balanced) (hok : ¬ (x.take ops p i).reception.Failed) :
    (x.Lossless ops p i ↔ x.AtBoundary i) ∧ (x.take ops p i).Balanced := by
  cases hphase : x.reception.phase with
  | receiving s =>
    cases i with
    | reception r =>
      cases r with
      | ok f => exact step_receiving hphase hx hok
      | error e =>
        rw [take_reception] at hok
        obtain ⟨hrec, s', hs'⟩ := take_error hphase e hok
        refine step_stops (fun f h => by cases h) ?_ ?_ ?_
        · rw [take_reception, hrec]
        · simp [take_reception, hs']
        · simp [take_reception, hs']
    | cancellation =>
      have htake :
          x.take ops p .cancellation = { x with
          reception := x.reception.follow ops (ReceiveData.cancel p s) } := by
        simp only [take, hphase]
      rw [htake] at hok
      obtain ⟨hrec, s', hs'⟩ := take_cancel hok
      refine step_stops (fun f h => by cases h) ?_ ?_ ?_
      · rw [htake, hrec]
      · simp [htake, hs']
      · simp [htake, hs']
  | awaitingAckResyn s =>
    have hnot : ∀ s', x.reception.phase ≠ .receiving s' := by simp [hphase]
    cases i with
    | reception r =>
      rw [take_reception] at hok
      obtain ⟨hrec, hcases⟩ := take_awaiting hphase r hok
      refine step_waiting hnot (by rw [take_reception, hrec]) fun s'' hs'' => ?_
      rw [take_reception] at hs''
      rcases hcases with ⟨s', h'⟩ | ⟨f, s', rfl, hf, h', hr⟩
      · cases h'.symm.trans hs''
      · -- the phase starts again between two articles
        obtain rfl := RecvPhase.receiving.inj (h'.symm.trans hs'')
        have htake :
            x.take ops p (.reception (.ok f)) = resynchronised (x.reception.take ops p (.ok f)) := by
          simp only [take, hphase, hf, if_true]
        rw [htake, hr]
        exact ⟨rfl, rfl⟩
    | cancellation =>
      have htake : x.take ops p .cancellation = x := take_of_cancellation hnot
      exact step_waiting hnot (by rw [htake]) (by rwa [htake])
  | interrupting s =>
    have hnot : ∀ s', x.reception.phase ≠ .receiving s' := by simp [hphase]
    cases i with
    | reception r =>
      rw [take_reception] at hok
      obtain ⟨hrec, hphase'⟩ := take_interrupting hphase r hok
      refine step_waiting hnot (by rw [take_reception, hrec]) (balanced_of_phase fun s'' => ?_)
      rw [take_reception]
      exact hphase' s''
    | cancellation =>
      have htake : x.take ops p .cancellation = x := take_of_cancellation hnot
      exact step_waiting hnot (by rw [htake]) (by rwa [htake])
  | ended m res =>
    have hnot : ∀ s', x.reception.phase ≠ .receiving s' := by simp [hphase]
    have hsame : (x.take ops p i).reception = x.reception := by
      cases i with
      | reception r =>
        rw [take_reception]
        simp only [Reception.take, hphase, ReceiveData.react]
      | cancellation => rw [take_of_cancellation hnot]
    refine step_waiting hnot (by rw [hsame]) (balanced_of_phase fun s'' => ?_)
    rw [hsame]
    exact hnot s''
  | failed e => exact absurd (take_failed ⟨e, hphase⟩ i) hok

end Steps

def start (p : DataParams) (m : Machine) (store : MemoryCheckpoints) (sink : τ)
    (cp : Checkpoint) : Account τ :=
  resynchronised ⟨.receiving (ReceiveData.start p m cp), store, [], sink, [], []⟩

/-- A data phase loses nothing between articles exactly when no SYN, and no DTF.END without an error that
would leave octets behind, arrives while an article is being put together. -/
theorem lossless_iff (ops : ArticleSink τ) (p : DataParams) (m : Machine)
    (store : MemoryCheckpoints) (sink : τ) (cp : Checkpoint) (is : List Input)
    (h : ¬ (is.foldl (take ops p) (start p m store sink cp)).reception.Failed) :
    Each (take ops p) (Lossless ops p) (start p m store sink cp) is ↔
      Each (take ops p) AtBoundary (start p m store sink cp) is := by
  refine each_iff Balanced (fun x => x.reception.Failed) (fun x i hx => take_failed hx i)
    (fun x i hx hok => step hx hok) ?_ h
  intro s hs
  obtain rfl := RecvPhase.receiving.inj hs
  exact ⟨rfl, rfl⟩

def pieces : List Input :=
  [.reception (.ok (.ofData .dtfDa 1 0 [1])), .reception (.ok (.ofData .dtfFa 1 0 [2])),
    .reception (.ok (Builder.syn 1 1)), .reception (.ok (.ofData .dtf 1 0 [3])),
    .reception (.ok (Builder.dtfEnd 1 .ok))]

theorem lossless_iff_pieces :
    Each (take VecSink.ops plainParams) (Lossless VecSink.ops plainParams)
      (start plainParams ⟨.server, .tde02B⟩ .empty VecSink.new .default) pieces := by
  refine (lossless_iff VecSink.ops plainParams ⟨.server, .tde02B⟩ .empty VecSink.new .default
    pieces ?_).mpr ?_
  · rintro ⟨e, he⟩
    cases he
  · refine ⟨atBoundary_of_kind (by decide) (by decide), atBoundary_of_kind (by decide) (by decide), ?_,
      atBoundary_of_kind (by decide) (by decide), ?_, trivial⟩
    · intro s f hs hi
      cases hs
      exact ⟨fun _ => rfl, fun _ _ => rfl⟩
    · intro s f hs hi
      cases hs
      exact ⟨fun _ => rfl, fun _ _ => rfl⟩

/-- The end of the data comes after the first piece of an article. -/
theorem not_lossless :
    ¬ ∀ (p : DataParams) (m : Machine) (is : List Input),
      ¬ (is.foldl (take VecSink.ops p) (start p m .empty VecSink.new .default)).reception.Failed →
        Each (take VecSink.ops p) (Lossless VecSink.ops p)
        (start p m .empty VecSink.new .default) is := by
  intro h
  obtain ⟨-, ⟨hwhole, -⟩, -⟩ := h plainParams ⟨.server, .tde02B⟩
    [.reception (.ok (.ofData .dtfDa 1 0 [1])), .reception (.ok (Builder.dtfEnd 1 .ok))] (by
      rintro ⟨e, he⟩
      cases he)
  have hlost := hwhole _ _ _ rfl rfl rfl
  exact absurd hlost (by decide)

end Account

end PesitWizard.Io
