import PesitWizard.Core.Ebcdic
import PesitWizard.Core.Records
import PesitWizard.Io.FileSink
import PesitWizard.Io.Session
import PesitWizard.Library.Moves

/-! The attempts to receive a file: data phases one after the other, each of which may break off, with
the checkpoints and the temporary file that outlive them. -/

namespace PesitWizard.Io

open PesitWizard.Core Library

structure FileSink where
  format : RecordFormat
  ebcdic : Bool
  content : Bytes
  pos : Position
  full : content.length = pos.fileOffset

namespace FileSink

lemma setLen_length (content : Bytes) (n : ℕ) : (setLen content n).length = n := by
  rw [setLen, List.length_append, List.length_take, List.length_replicate]
  omega

lemma setLen_of_le {content : Bytes} {n : ℕ} (h : n ≤ content.length) :
    setLen content n = content.take n := by
  rw [setLen, Nat.sub_eq_zero_of_le h, List.replicate_zero, List.append_nil]

def new (format : RecordFormat) (ebcdic : Bool) : FileSink := ⟨format, ebcdic, [], .default, rfl⟩

def translated (s : FileSink) (article : Bytes) : Bytes :=
  if s.ebcdic then article.map Ebcdic.toLatin1 else article

def image (s : FileSink) (article : Bytes) : Bytes := articleToBytes s.format (s.translated article)

def writeArticle (s : FileSink) (article : Bytes) : FileSink :=
  { s with
    content := s.content ++ s.image article
    pos := ⟨s.pos.fileOffset + (s.image article).length, s.pos.dataBytes + (s.translated article).length,
      s.pos.articles + 1⟩
    full := by rw [List.length_append, s.full] }

def truncate (s : FileSink) (pos : Position) : FileSink :=
  { s with content := setLen s.content pos.fileOffset, pos := pos, full := setLen_length _ _ }

def reopen (s : FileSink) (format : RecordFormat) (ebcdic : Bool) (pos : Position) : FileSink :=
  { s.truncate pos with format := format, ebcdic := ebcdic }

end FileSink

structure Attempt where
  params : DataParams
  phase : RecvPhase
  todo : List Effect
  store : MemoryCheckpoints
  sink : FileSink
  written : List Bytes

inductive AttemptMove
  | performs
  | takes (r : Except SessionError Fpdu)
  | cancels
  | breaks (e : SessionError)
  | restarts (p : DataParams) (m : Machine) (format : RecordFormat) (ebcdic : Bool)

namespace Attempt

def new (p : DataParams) (m : Machine) (format : RecordFormat) (ebcdic : Bool) : Attempt :=
  ⟨p, .receiving (ReceiveData.start p m .default), [], .empty, .new format ebcdic, []⟩

def perform (x : Attempt) : Effect → Attempt
  | .record cp => { x with store := x.store.record cp }
  | .write a => { x with sink := x.sink.writeArticle a, written := x.written ++ [x.sink.image a] }
  | .truncate pos => { x with sink := x.sink.truncate pos, written := x.written.take pos.articles }
  | .send _ | .acknowledge _ => x

def become (x : Attempt) (act : Run RecvPhase) : Attempt :=
  { x with phase := .ofRun act, todo := act.effects }

def offer (x : Attempt) : Checkpoint × MemoryCheckpoints :=
  let start := x.store.last.getD .default
  (start, if start.sync = 0 then x.store.clear else x.store)

def restart (x : Attempt) (p : DataParams) (m : Machine) (format : RecordFormat)
    (ebcdic : Bool) : Attempt :=
  let (start, store) := x.offer
  { params := p
    phase := .receiving (ReceiveData.start p m start)
    todo := []
    store := store
    sink := x.sink.reopen format ebcdic (positionOf start)
    written := x.written.take start.articles }

def step (x : Attempt) : AttemptMove → Option Attempt
  | .performs =>
    match x.todo with
    | [] => none
    | w :: todo => some (({ x with todo := todo } : Attempt).perform w)
  | .takes r =>
    match x.todo with
    | [] => (ReceiveData.react x.params x.store x.sink.pos x.phase r).map x.become
    | _ :: _ => none
  | .cancels =>
    match x.todo, x.phase with
    | [], .receiving s => some (x.become (ReceiveData.cancel x.params s))
    | _, _ => none
  | .breaks e => some { x with phase := .failed e, todo := [] }
  | .restarts p m format ebcdic => some (x.restart p m format ebcdic)

/-- Every checkpoint is a point of the file, behind which nothing but the first articles stands. -/
def Sound (x : Attempt) : Prop :=
  ∀ c ∈ x.store.points, c.fileOffset ≤ x.sink.content.length ∧ c.articles ≤ x.written.length ∧
    x.sink.content.take c.fileOffset = (x.written.take c.articles).flatten

/-- No checkpoint lies beyond a position. -/
def Before (store : MemoryCheckpoints) (pos : Position) : Prop :=
  ∀ c ∈ store.points, c.fileOffset ≤ pos.fileOffset ∧ c.articles ≤ pos.articles

/-- The file is not cut behind a checkpoint that is kept. -/
def Forward (x : Attempt) : AttemptMove → Prop
  | .performs => ∀ pos todo, x.todo = .truncate pos :: todo → Before x.store pos
  | .restarts _ _ _ _ => Before x.offer.2 (positionOf x.offer.1)
  | _ => True

section Invariant

/-- What a pending effect relies on. -/
def Fits (x : Attempt) : Effect → Prop
  | .record cp => cp.fileOffset = x.sink.content.length ∧ cp.articles = x.written.length
  | .truncate pos => pos = .default ∨ ∃ c ∈ x.store.points, pos = positionOf c
  | _ => True

/-- A receiver that may go on counts the articles of the file. -/
def Counted (phase : RecvPhase) (x : Attempt) : Prop :=
  ∀ s, phase = .receiving s ∨ phase = .awaitingAckResyn s → s.articles = x.written.length

def Ready (phase : RecvPhase) : List Effect → Attempt → Prop
  | [], x => x.Counted phase
  | w :: ws, x => x.Fits w ∧ Ready phase ws (x.perform w)

structure Inv (x : Attempt) : Prop where
  sound : x.Sound
  content : x.sink.content = x.written.flatten
  ready : Ready x.phase x.todo x

variable {x y : Attempt} {phase : RecvPhase} {w : Effect} {ws : List Effect}

def Same (x y : Attempt) : Prop := y.store = x.store ∧ y.sink = x.sink ∧ y.written = x.written

lemma Same.perform (h : Same x y) (w : Effect) : Same (x.perform w) (y.perform w) := by
  obtain ⟨hstore, hsink, hwritten⟩ := h
  cases w <;> simp [Same, Attempt.perform, hstore, hsink, hwritten]

lemma Ready.congr (h : Ready phase ws x) (hsame : Same x y) : Ready phase ws y := by
  induction ws generalizing x y with
  | nil =>
    intro s hs
    rw [h s hs, hsame.2.2]
  | cons w ws ih =>
    obtain ⟨hstore, hsink, hwritten⟩ := id hsame
    refine ⟨?_, ih h.2 (hsame.perform w)⟩
    have hfits := h.1
    cases w <;> simp_all [Fits]

lemma counted_failed (e : SessionError) : x.Counted (.failed e) := by
  rintro s (h | h) <;> cases h

def Promises (act : Run RecvPhase) (x : Attempt) : Prop := Ready (.ofRun act) act.effects x

lemma promises_pure (h : x.Counted phase) : x.Promises (pure phase) := h

lemma promises_lift_error (e : SessionError) : x.Promises (Act.lift (.error e)) := counted_failed e

lemma promises_lift {α : Type} {r : Except SessionError α} {k : α → Run RecvPhase}
    (h : ∀ a, r = .ok a → x.Promises (k a)) :
    x.Promises (Act.lift r >>= k) := by
  cases r with
  | error e => exact counted_failed e
  | ok a => exact h a rfl

lemma promises_emit {k : Run RecvPhase} (hw : x.Fits w) (h : (x.perform w).Promises k) :
    x.Promises (Act.emit w >>= fun _ => k) := ⟨hw, h⟩

lemma promises_sendFpdu {crc : Bool} {f : Fpdu} {k : Run RecvPhase} (h : x.Promises k) :
    x.Promises (sendFpdu crc f >>= fun _ => k) := by
  rw [sendFpdu, Act.bind_assoc]
  exact promises_lift fun e _ => promises_emit trivial h

lemma takeArticle_cases (s : RecvState) (a : Bytes) :
    (∃ e, ReceiveData.takeArticle s a = ⟨[], .error e⟩) ∨
      ∃ plain s', ReceiveData.takeArticle s a = ⟨[.write plain], .ok s'⟩ ∧
      s'.articles = s.articles + 1 := by
  rw [ReceiveData.takeArticle]
  cases hd : s.decompressor with
  | none => exact .inr ⟨a, _, rfl, rfl⟩
  | some d =>
    simp only
    cases d.decompress a with
    | error e => exact .inl ⟨_, rfl⟩
    | ok y => exact .inr ⟨y.1, _, rfl, rfl⟩

lemma promises_takeArticles {s : RecvState} {as : List Bytes} {k : RecvState → Run RecvPhase}
    (hs : s.articles = x.written.length)
    (h : ∀ s' y, s'.articles = y.written.length → Promises (k s') y) :
    x.Promises (ReceiveData.takeArticles s as >>= k) := by
  induction as generalizing s x with
  | nil => exact h s x hs
  | cons a as ih =>
    rw [ReceiveData.takeArticles, Act.bind_assoc]
    rcases takeArticle_cases s a with ⟨e, he⟩ | ⟨plain, s', hs', harticles⟩
    · rw [he, Act.error_bind]
      exact counted_failed e
    · rw [hs', Act.ok_bind]
      refine ⟨trivial, ?_⟩
      apply ih
      rw [harticles, hs, perform, List.length_append, List.length_singleton]

lemma Sound.articles_le (h : x.Sound) {cp : Checkpoint} (hcp : cp = .default ∨ cp ∈ x.store.points) :
    cp.articles ≤ x.written.length := by
  rcases hcp with rfl | hcp
  · exact Nat.zero_le _
  · exact (h cp hcp).2.1

lemma promises_truncate (h : x.Sound) {cp : Checkpoint} (hcp : cp = .default ∨ cp ∈ x.store.points)
    {k : Run RecvPhase} (hk : ∀ y : Attempt, y.written.length = cp.articles → y.Promises k) :
    x.Promises (Act.emit (.truncate (positionOf cp)) >>= fun _ => k) := by
  apply promises_emit
  · rcases hcp with rfl | hcp
    · exact .inl rfl
    · exact .inr ⟨cp, hcp, rfl⟩
  · apply hk
    show (x.written.take cp.articles).length = cp.articles
    rw [List.length_take, Nat.min_eq_left (h.articles_le hcp)]

lemma counted_receiving {s : RecvState} (h : s.articles = x.written.length) :
    x.Counted (.receiving s) := by
  rintro s' (hs | hs)
  · obtain rfl := RecvPhase.receiving.inj hs
    exact h
  · cases hs

lemma counted_awaiting {s : RecvState} (h : s.articles = x.written.length) :
    x.Counted (.awaitingAckResyn s) := by
  rintro s' (hs | hs)
  · cases hs
  · obtain rfl := RecvPhase.awaitingAckResyn.inj hs
    exact h

lemma get_cases {store : MemoryCheckpoints} {n : ℕ} {cp : Checkpoint} (h : store.get n = some cp) :
    cp = .default ∨ cp ∈ store.points := by
  by_cases hn : n = 0
  · subst hn
    exact .inl (Option.some.inj h).symm
  · exact .inr (MemoryCheckpoints.get_mem hn h).1

lemma counted_ended (m : Machine) (res : DataResult) : x.Counted (.ended m res) := by
  rintro s (h | h) <;> cases h

lemma counted_interrupting (s : RecvState) : x.Counted (.interrupting s) := by
  rintro s' (h | h) <;> cases h

lemma promises_handle (hx : x.Sound) {s : RecvState} (hs : s.articles = x.written.length)
    (p : DataParams) (f : Fpdu) :
    x.Promises (ReceiveData.handle p x.store x.sink.pos s f) := by
  rw [ReceiveData.handle]
  apply promises_lift
  intro m _
  split
  · apply promises_lift
    rintro ⟨articles, r⟩ -
    exact promises_takeArticles hs fun s' y hs' => promises_pure (counted_receiving hs')
  · split
    · refine promises_emit (w := .record _) ⟨x.sink.full.symm, hs⟩ ?_
      split
      · apply promises_sendFpdu
        apply promises_lift
        intro m' _
        exact promises_pure (counted_receiving hs)
      · exact promises_pure (counted_receiving hs)
    · exact promises_pure (counted_ended m _)
    · apply promises_truncate hx
      · split
        · exact .inl rfl
        · cases hget : x.store.get (f.restartPoint.getD 0) with
          | none => exact .inl rfl
          | some cp => exact get_cases hget
      · intro y hy
        apply promises_sendFpdu
        apply promises_lift
        intro m' _
        exact promises_pure (counted_receiving hy.symm)
    · apply promises_sendFpdu
      apply promises_lift
      intro m' _
      exact promises_pure (counted_ended m' _)
    · exact promises_pure (counted_receiving hs)

lemma promises_handleError {s : RecvState} (hs : s.articles = x.written.length) (p : DataParams)
    (e : SessionError) :
    x.Promises (ReceiveData.handleError p s e) := by
  cases e with
  | decode err =>
    simp only [ReceiveData.handleError]
    split
    · apply promises_lift
      intro m _
      apply promises_sendFpdu
      exact promises_pure (counted_awaiting hs)
    · exact promises_lift_error _
  | _ => exact promises_lift_error _

lemma promises_awaitAckResyn (hx : x.Sound) {s : RecvState}
    (hs : s.articles = x.written.length) (p : DataParams) (f : Fpdu) :
    x.Promises (ReceiveData.awaitAckResyn p x.store s f) := by
  rw [ReceiveData.awaitAckResyn]
  split
  · apply promises_lift
    intro m _
    dsimp only
    split
    · exact promises_truncate hx (.inl rfl) fun y hy => promises_pure (counted_receiving hy.symm)
    · split
      · rename_i cp hget
        exact promises_truncate hx (get_cases hget) fun y hy => promises_pure (counted_receiving hy.symm)
      · exact counted_failed _
  · split
    · apply promises_lift
      intro m _
      exact promises_pure (counted_awaiting hs)
    · exact promises_pure (counted_awaiting hs)

lemma promises_interrupted (s : RecvState) (p : DataParams) (f : Fpdu) :
    x.Promises (ReceiveData.interrupted p s f) := by
  rw [ReceiveData.interrupted, interruptRecv, Act.bind_assoc]
  apply promises_lift
  intro m _
  split
  · exact promises_pure (counted_ended m _)
  · rw [Act.bind_assoc]
    apply promises_sendFpdu
    split
    · exact promises_pure (counted_ended _ _)
    · exact promises_pure (counted_ended _ _)
  · exact promises_pure (counted_interrupting _)

lemma promises_cancel (s : RecvState) (p : DataParams) : x.Promises (ReceiveData.cancel p s) := by
  rw [ReceiveData.cancel, interrupt, Act.bind_assoc]
  apply promises_lift
  intro m _
  rw [Act.bind_assoc]
  apply promises_sendFpdu
  exact promises_pure (counted_interrupting _)

lemma promises_react (hx : x.Sound) (hcount : x.Counted x.phase) {r : Except SessionError Fpdu}
    {act : Run RecvPhase} (h : ReceiveData.react x.params x.store x.sink.pos x.phase r = some act) :
    x.Promises act := by
  cases hphase : x.phase with
  | receiving s =>
    have hs := hcount s (.inl hphase)
    rw [hphase] at h
    cases r with
    | ok f =>
      obtain rfl := Option.some.inj h
      exact promises_handle hx hs x.params f
    | error e =>
      obtain rfl := Option.some.inj h
      exact promises_handleError hs x.params e
  | awaitingAckResyn s =>
    have hs := hcount s (.inr hphase)
    rw [hphase] at h
    cases r with
    | ok f =>
      obtain rfl := Option.some.inj h
      exact promises_awaitAckResyn hx hs x.params f
    | error e =>
      obtain rfl := Option.some.inj h
      exact promises_lift_error e
  | interrupting s =>
    rw [hphase] at h
    cases r with
    | ok f =>
      obtain rfl := Option.some.inj h
      exact promises_interrupted s x.params f
    | error e =>
      obtain rfl := Option.some.inj h
      exact promises_lift_error e
  | ended m res =>
    rw [hphase] at h
    cases h
  | failed e =>
    rw [hphase] at h
    cases h

lemma Sound.cut (h : x.Sound) {cp : Checkpoint} (hcp : cp = .default ∨ cp ∈ x.store.points) :
    FileSink.setLen x.sink.content cp.fileOffset = x.sink.content.take cp.fileOffset ∧
      x.sink.content.take cp.fileOffset = (x.written.take cp.articles).flatten := by
  rcases hcp with rfl | hcp
  · exact ⟨by simp [FileSink.setLen, Checkpoint.default], by simp [Checkpoint.default]⟩
  · obtain ⟨hlen, -, htake⟩ := h cp hcp
    exact ⟨FileSink.setLen_of_le hlen, htake⟩

lemma Sound.before (h : x.Sound) {cp c : Checkpoint} (hcp : cp = .default ∨ cp ∈ x.store.points)
    (hc : c ∈ x.store.points) (hbefore : c.fileOffset ≤ cp.fileOffset ∧ c.articles ≤ cp.articles) :
    c.fileOffset ≤ (FileSink.setLen x.sink.content cp.fileOffset).length ∧
      c.articles ≤ (x.written.take cp.articles).length ∧
      (FileSink.setLen x.sink.content cp.fileOffset).take c.fileOffset =
        ((x.written.take cp.articles).take c.articles).flatten := by
  obtain ⟨hlen, harticles, htake⟩ := h c hc
  refine ⟨?_, ?_, ?_⟩
  · rw [FileSink.setLen_length]
    exact hbefore.1
  · rw [List.length_take]
    exact le_min hbefore.2 harticles
  · rw [(h.cut hcp).1, List.take_take, Nat.min_eq_left hbefore.1, htake, List.take_take,
      Nat.min_eq_left hbefore.2]

lemma Inv.performs (h : x.Inv) (htodo : x.todo = w :: ws) (hforward : x.Forward .performs) :
    (({ x with todo := ws } : Attempt).perform w).Inv := by
  have hready := h.ready
  rw [htodo] at hready
  obtain ⟨hfits, hrest⟩ := hready
  have hsame := Same.perform (x := x) (y := { x with todo := ws }) ⟨rfl, rfl, rfl⟩ w
  cases w with
  | send e => exact ⟨h.sound, h.content, hrest.congr hsame⟩
  | acknowledge n => exact ⟨h.sound, h.content, hrest.congr hsame⟩
  | record cp =>
    obtain ⟨hoffset, harticles⟩ := hfits
    refine ⟨?_, h.content, hrest.congr hsame⟩
    intro c hc
    rcases MemoryCheckpoints.mem_insert hc with rfl | hc
    · refine ⟨hoffset.le, harticles.le, ?_⟩
      simp only [perform, hoffset, harticles, List.take_length]
      exact h.content
    · exact h.sound c hc
  | write a =>
    refine ⟨?_, ?_, hrest.congr hsame⟩
    · intro c hc
      obtain ⟨hlen, harticles, htake⟩ := h.sound c hc
      refine ⟨?_, ?_, ?_⟩
      · exact hlen.trans (by simp [perform, FileSink.writeArticle])
      · exact harticles.trans (by simp [perform])
      · simp only [perform, FileSink.writeArticle]
        rw [List.take_append_of_le_length hlen, List.take_append_of_le_length harticles, htake]
    · simp only [perform, FileSink.writeArticle, List.flatten_append, List.flatten_singleton, h.content]
  | truncate pos =>
    have hbefore := hforward pos ws htodo
    have hcp : ∃ cp, (cp = .default ∨ cp ∈ x.store.points) ∧ pos = positionOf cp := by
      rcases hfits with rfl | ⟨cp, hcp, rfl⟩
      · exact ⟨.default, .inl rfl, rfl⟩
      · exact ⟨cp, .inr hcp, rfl⟩
    obtain ⟨cp, hcp, rfl⟩ := hcp
    refine ⟨?_, (h.sound.cut hcp).1.trans (h.sound.cut hcp).2, hrest.congr hsame⟩
    intro c hc
    exact h.sound.before hcp hc (hbefore c hc)

lemma offer_mem (x : Attempt) : x.offer.1 = .default ∨ x.offer.1 ∈ x.store.points := by
  cases hlast : x.store.last with
  | none => exact .inl (by simp [offer, hlast])
  | some cp =>
    right
    simp only [offer, hlast, Option.getD_some]
    exact List.mem_of_getLast? hlast

lemma offer_kept {c : Checkpoint} (hc : c ∈ x.offer.2.points) : c ∈ x.store.points := by
  simp only [offer] at hc
  split at hc
  · cases hc
  · exact hc

lemma Inv.restarts (h : x.Inv) {p : DataParams} {m : Machine} {format : RecordFormat} {ebcdic : Bool}
    (hforward : x.Forward (.restarts p m format ebcdic)) : (x.restart p m format ebcdic).Inv := by
  have hmem := x.offer_mem
  refine ⟨?_, (h.sound.cut hmem).1.trans (h.sound.cut hmem).2, ?_⟩
  · intro c hc
    exact h.sound.before hmem (offer_kept hc) (hforward c hc)
  · apply counted_receiving
    show x.offer.1.articles = (x.written.take x.offer.1.articles).length
    rw [List.length_take, Nat.min_eq_left (h.sound.articles_le hmem)]

lemma Inv.step (h : x.Inv) {mv : AttemptMove} (hforward : x.Forward mv) (hstep : x.step mv = some y) :
    y.Inv := by
  cases mv with
  | performs =>
    simp only [Attempt.step] at hstep
    split at hstep
    · cases hstep
    · rename_i w ws htodo
      obtain rfl := Option.some.inj hstep
      exact h.performs htodo hforward
  | takes r =>
    simp only [Attempt.step] at hstep
    split at hstep
    · rename_i htodo
      obtain ⟨act, hact, rfl⟩ := Option.map_eq_some_iff.mp hstep
      have hready := h.ready
      rw [htodo] at hready
      exact ⟨h.sound, h.content, (promises_react h.sound hready hact).congr ⟨rfl, rfl, rfl⟩⟩
    · cases hstep
  | cancels =>
    simp only [Attempt.step] at hstep
    split at hstep
    · obtain rfl := Option.some.inj hstep
      exact ⟨h.sound, h.content, (promises_cancel _ x.params).congr ⟨rfl, rfl, rfl⟩⟩
    · cases hstep
  | breaks e =>
    obtain rfl := Option.some.inj hstep
    exact ⟨h.sound, h.content, counted_failed e⟩
  | restarts p m format ebcdic =>
    obtain rfl := Option.some.inj hstep
    exact h.restarts hforward

lemma inv_new (p : DataParams) (m : Machine) (format : RecordFormat) (ebcdic : Bool) :
    (new p m format ebcdic).Inv := by
  refine ⟨?_, rfl, counted_receiving rfl⟩
  intro c hc
  cases hc

end Invariant

section Exactness

variable {x y : Attempt}

lemma not_sound {c : Checkpoint} (hc : c ∈ x.store.points) {n k : ℕ} (hlen : x.sink.content.length = n)
    (hwritten : x.written.length ≤ k) (h : ¬ (c.fileOffset ≤ n ∧ c.articles ≤ k)) : ¬ x.Sound := by
  intro hsound
  obtain ⟨hoffset, harticles, -⟩ := hsound c hc
  exact h ⟨hlen ▸ hoffset, harticles.trans hwritten⟩

lemma not_sound_of_step {mv : AttemptMove} (hforward : ¬ x.Forward mv) (hstep : x.step mv = some y) :
    ¬ y.Sound := by
  cases mv with
  | performs =>
    simp only [Forward, Before, not_forall] at hforward
    obtain ⟨pos, ws, htodo, c, hc, hbeyond⟩ := hforward
    simp only [step, htodo, Option.some.injEq] at hstep
    subst hstep
    exact not_sound hc (FileSink.setLen_length _ _) (List.length_take_le _ _) hbeyond
  | restarts p m format ebcdic =>
    simp only [Forward, Before, not_forall] at hforward
    obtain ⟨c, hc, hbeyond⟩ := hforward
    obtain rfl := Option.some.inj hstep
    exact not_sound hc (FileSink.setLen_length _ _) (List.length_take_le _ _) hbeyond
  | _ => exact absurd trivial hforward

end Exactness

/-- As long as the file is not cut behind a checkpoint that is kept, every checkpoint is a point of the
file; with the first such cut one of them no longer is. -/
theorem sound_of_forward (p : DataParams) (m : Machine) (format : RecordFormat)
    (ebcdic : Bool) (x : Attempt) (h : Moves step Forward (new p m format ebcdic) x) :
    x.Sound ∧ ∀ mv y, step x mv = some y → ¬ x.Forward mv → ¬ y.Sound :=
  ⟨(h.invariant (fun _ _ _ hx hforward hstep => Inv.step hx hforward hstep)
    (inv_new p m format ebcdic)).sound, fun _ _ hstep hforward => not_sound_of_step hforward hstep⟩

def plainStart : Attempt := new plainParams ⟨.server, .tde02B⟩ .bu false

def markedMoves (article : Bytes) (n : ℕ) : List AttemptMove :=
  [.takes (.ok (.ofData .dtf 1 0 article)), .performs, .takes (.ok (Builder.syn 1 n)),
    .performs, .performs]

/-- The second article is lost to a resynchronisation, the third to a broken session. -/
def resumedMoves : List AttemptMove :=
  markedMoves [7] 1 ++
    [.takes (.ok (.ofData .dtf 1 0 [8])), .performs,
    .takes (.ok (Builder.resyn 1 .transmissionError 1)), .performs,
      .performs, .takes (.ok (.ofData .dtf 1 0 [9])), .performs, .breaks .timeout,
      .restarts plainParams ⟨.server, .tde02B⟩ .bu false, .takes (.ok (.ofData .dtf 1 0 [5])), .performs]

theorem sound_of_forward_resumed :
    ∃ x, x = resumedMoves.foldl (after step) plainStart ∧ x.sink.content = [7, 5] ∧
    x.store.points = [⟨1, 1, 1, 1⟩] ∧
      x.Sound := by
  have hmoves : Moves step Forward plainStart (resumedMoves.foldl (after step) plainStart) := by
    apply moves_foldl_of_each
    refine ⟨trivial, ?_, trivial, ?_, ?_, trivial, ?_, trivial, ?_, ?_, trivial, ?_, trivial, ?_,
      trivial, ?_, trivial⟩
    case refine_5 =>
      rintro pos todo ⟨⟩
      change ∀ c ∈ [_], _
      decide
    case refine_8 =>
      change ∀ c ∈ [_], _
      decide
    all_goals
      intro pos todo h
      cases h
  exact ⟨_, rfl, rfl, rfl, (sound_of_forward plainParams ⟨.server, .tde02B⟩ .bu false _ hmoves).1⟩
/-- After a resynchronisation from the first of two points, the second one lies behind
the end of the file. -/
theorem not_always_sound :
    ¬ ∀ (p : DataParams) (m : Machine) (format : RecordFormat) (ebcdic : Bool) (x : Attempt),
      Moves step (fun _ _ => True) (new p m format ebcdic) x → x.Sound := by
  intro h
  have hsound := h plainParams ⟨.server, .tde02B⟩ .bu false _
    (moves_foldl (markedMoves [7] 1 ++ markedMoves [8] 2 ++
      [.takes (.ok (Builder.resyn 1 .transmissionError 1)), .performs]) plainStart)
  have hbeyond := hsound ⟨2, 2, 2, 2⟩ (by decide)
  exact absurd hbeyond.1 (by decide)

end Attempt

end PesitWizard.Io
