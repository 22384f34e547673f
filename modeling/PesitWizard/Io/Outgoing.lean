import PesitWizard.Core.Contents
import PesitWizard.Io.Schedule

/-! A sender on its own, with everything that has passed its link, and which FPDUs the entities on the
link contain after each of the acts of the sender. -/

namespace PesitWizard.Io

open PesitWizard.Core Library SendData

inductive Traffic
  | sent (entity : Bytes)
  | received (f : Fpdu)
  deriving DecidableEq

structure Sending (σ : Type) where
  phase : SendPhase σ
  store : MemoryCheckpoints
  traffic : List Traffic

/-- What happens to a sender: something arrives or the wait for it fails, the transfer is cancelled, or
there is nothing to take from the link and the window lets it go on. -/
inductive Occasion
  | reception (r : Except SessionError Fpdu)
  | cancellation
  | turn

namespace Sending

variable {σ : Type} (src : ArticleSource σ) (p : DataParams)

def perform (x : Sending σ) : Effect → Sending σ
  | .send e => { x with traffic := x.traffic ++ [.sent e] }
  | .record cp => { x with store := x.store.record cp }
  | .acknowledge n => { x with store := x.store.acknowledge n }
  | .write _ | .truncate _ => x

def follow (x : Sending σ) (act : Run (SendPhase σ)) : Sending σ :=
  { act.effects.foldl perform x with phase := .ofRun act }

def hear (x : Sending σ) : Except SessionError Fpdu → Sending σ
  | .ok f => { x with traffic := x.traffic ++ [.received f] }
  | .error _ => x

def take (x : Sending σ) : Occasion → Sending σ
  | .reception r =>
    match react src p x.store x.phase r with
    | some act => (x.hear r).follow act
    | none => x
  | .cancellation =>
    match x.phase with
    | .looping s => x.follow (cancel p s)
    | _ => x
  | .turn =>
    match x.phase with
    | .looping s => if windowFull p s then x else x.follow (advance src p s)
    | _ => x

def start (m : Machine) (source : σ) (store : MemoryCheckpoints) (cp : Checkpoint) : Sending σ :=
  ⟨.looping (SendData.start src p m source cp), store, []⟩

def run (m : Machine) (source : σ) (store : MemoryCheckpoints) (cp : Checkpoint)
    (os : List Occasion) : Sending σ :=
  os.foldl (take src p) (start src p m source store cp)

end Sending

def passed (ws : List Effect) : List Traffic := (sends ws).map .sent

def fpdusSent (crc : Bool) (ts : List Traffic) : List Fpdu :=
  ts.flatMap fun
    | .sent e => Frame.fpdusIn crc e
    | .received _ => []

/-- What an observer of the link sees: the FPDUs, whatever the entities they come in. -/
inductive Notice
  | sent (f : Fpdu)
  | received (f : Fpdu)

def notices (crc : Bool) (ts : List Traffic) : List Notice :=
  ts.flatMap fun
    | .sent e => (Frame.fpdusIn crc e).map .sent
    | .received f => [.received f]

lemma passed_append (ws vs : List Effect) : passed (ws ++ vs) = passed ws ++ passed vs := by
  rw [passed, sends_append, List.map_append]
  rfl

lemma fpdusSent_append (crc : Bool) (ts us : List Traffic) :
    fpdusSent crc (ts ++ us) = fpdusSent crc ts ++ fpdusSent crc us := List.flatMap_append

namespace Sending

variable {σ : Type} {x : Sending σ}

lemma performAll_traffic (x : Sending σ) (ws : List Effect) :
    (ws.foldl perform x).traffic = x.traffic ++ passed ws := by
  induction ws generalizing x with
  | nil => simp [passed, sends]
  | cons w ws ih =>
    rw [List.foldl_cons, ih]
    cases w <;> simp [perform, passed, sends]

lemma follow_traffic (x : Sending σ) (act : Run (SendPhase σ)) :
    (x.follow act).traffic = x.traffic ++ passed act.effects := performAll_traffic x act.effects

end Sending

section Stock

variable {p : DataParams} {b : EntityBuilder} {bs fs gs : List Fpdu} {f : Fpdu}

/-- What the entities sent by an act contain. -/
def handed (crc : Bool) (ws : List Effect) : List Fpdu := fpdusSent crc (passed ws)

lemma handed_append (crc : Bool) (ws vs : List Effect) :
    handed crc (ws ++ vs) = handed crc ws ++ handed crc vs := by
  rw [handed, passed_append, fpdusSent_append]
  rfl

lemma handed_send (crc : Bool) (e : Bytes) : handed crc [.send e] = Frame.fpdusIn crc e :=
  List.append_nil _

structure Stocked (p : DataParams) (b : EntityBuilder) (bs : List Fpdu) : Prop where
  buf : b.buf = bs.flatMap (Frame.image p.crc)
  maxLen : b.maxLen = p.maxEntity
  crc : b.crc = p.crc
  count : b.count = bs.length
  readable : ∀ f ∈ bs, f.Composed ∧ f.Encodable

lemma Stocked.new (p : DataParams) : Stocked p (.new p.maxEntity p.crc) [] :=
  ⟨rfl, rfl, rfl, rfl, by simp⟩

lemma Stocked.take (h : Stocked p b bs) : Stocked p b.take [] := ⟨rfl, h.maxLen, h.crc, rfl, by simp⟩

lemma Stocked.handed (h : Stocked p b bs) : handed p.crc [.send b.buf] = bs := by
  rw [handed_send, h.buf, Frame.fpdusIn_images p.crc h.readable]

lemma Stocked.push (h : Stocked p b bs) (hf : f.Composed) {b' : EntityBuilder} (hb : b.push f = .ok b') :
    Stocked p b' (bs ++ [f]) := by
  obtain ⟨henc, rfl⟩ := EntityBuilder.push_inv hb
  refine ⟨?_, h.maxLen, h.crc, ?_, ?_⟩
  · simp [h.buf, h.crc]
  · simp [h.count]
  · intro g hg
    rcases List.mem_append.mp hg with hg | hg
    · exact h.readable g hg
    · exact List.mem_singleton.mp hg ▸ ⟨hf, henc⟩

variable {α β : Type} {x : Run α}

/-- With `bs` in the builder, an act puts `fs` behind them: what it sends and what is in the builder
after it are these FPDUs in order. An act that fails has sent the first of them. -/
def Puts (p : DataParams) (x : Run α) (bs fs : List Fpdu) (Q : α → List Fpdu → Prop) : Prop :=
  x.Meets (fun ws => handed p.crc ws <+: bs ++ fs) fun ws a => ∃ bs', Q a bs' ∧
    handed p.crc ws ++ bs' = bs ++ fs

variable {Q : α → List Fpdu → Prop} {R : β → List Fpdu → Prop}

lemma puts_pure {a : α} (h : Q a bs) : Puts p (pure a) bs [] Q := ⟨bs, h, (List.append_nil bs).symm⟩

lemma puts_lift {r : Except SessionError α} (h : ∀ a, r = .ok a → Q a bs) :
    Puts p (Act.lift r) bs [] Q := by
  apply Act.meets_lift
  · exact List.nil_prefix
  · exact fun a ha => ⟨bs, h a ha, (List.append_nil bs).symm⟩

lemma puts_emit {w : Effect} (hw : sends [w] = []) {Q : Unit → List Fpdu → Prop} (h : Q () bs) :
    Puts p (Act.emit w) bs [] Q := by
  have hnil : handed p.crc [w] = [] := by
    rw [handed, passed, hw]
    rfl
  refine ⟨bs, h, ?_⟩
  show handed p.crc [w] ++ bs = bs ++ []
  rw [hnil, List.nil_append, List.append_nil]

lemma puts_send (h : Stocked p b bs) {Q : Unit → List Fpdu → Prop} (hq : Q () []) :
    Puts p (Act.emit (.send b.buf)) bs [] Q := ⟨[], hq, congrArg (· ++ []) h.handed⟩

lemma Puts.bind {k : α → Run β} (hx : Puts p x bs fs Q) (hk : ∀ a bs', Q a bs' → Puts p (k a) bs' gs R) :
    Puts p (x >>= k) bs (fs ++ gs) R := by
  obtain ⟨ws, r⟩ := x
  cases r with
  | error e =>
    have hsent : handed p.crc ws <+: bs ++ fs := hx
    show handed p.crc ws <+: bs ++ (fs ++ gs)
    rw [← List.append_assoc]
    exact hsent.trans (List.prefix_append _ _)
  | ok a =>
    obtain ⟨bs', hq, hws⟩ := hx
    have hka := hk a bs' hq
    rw [Act.ok_bind]
    generalize k a = y at hka ⊢
    obtain ⟨vs, r⟩ := y
    cases r with
    | error e =>
      obtain ⟨rest, hrest⟩ := hka
      refine ⟨rest, ?_⟩
      show handed p.crc (ws ++ vs) ++ rest = bs ++ (fs ++ gs)
      rw [handed_append, List.append_assoc, hrest, ← List.append_assoc, hws, List.append_assoc]
    | ok c =>
      obtain ⟨bs'', hr, hvs⟩ := hka
      refine ⟨bs'', hr, ?_⟩
      show handed p.crc (ws ++ vs) ++ bs'' = bs ++ (fs ++ gs)
      rw [handed_append, List.append_assoc, hvs, ← List.append_assoc, hws, List.append_assoc]

/-- The act before, or the one after, puts nothing. -/
lemma Puts.before {k : α → Run β} (hx : Puts p x bs [] Q)
    (hk : ∀ a bs', Q a bs' → Puts p (k a) bs' fs R) :
    Puts p (x >>= k) bs fs R := Puts.bind hx hk

lemma Puts.behind {k : α → Run β} (hx : Puts p x bs fs Q)
    (hk : ∀ a bs', Q a bs' → Puts p (k a) bs' [] R) :
    Puts p (x >>= k) bs fs R := List.append_nil fs ▸ Puts.bind hx hk

lemma Puts.mono {Q' : α → List Fpdu → Prop} (hx : Puts p x bs fs Q) (h : ∀ a bs', Q a bs' → Q' a bs') :
    Puts p x bs fs Q' :=
  Act.Meets.mono hx fun _ a ⟨bs', hq, hws⟩ => ⟨bs', h a bs' hq, hws⟩

lemma Puts.tail (hx : Puts p x bs fs Q) : Puts p x bs fs fun a bs' => Q a bs' ∧ bs' <:+ bs ++ fs :=
  Act.Meets.mono hx fun _ _ ⟨bs', hq, hws⟩ => ⟨bs', ⟨hq, ⟨_, hws⟩⟩, hws⟩

lemma Puts.handed (hx : Puts p x bs fs Q) : handed p.crc x.effects <+: bs ++ fs :=
  Act.Meets.effects hx fun _ _ ⟨bs', _, hws⟩ => ⟨bs', hws⟩

lemma putFpdu_puts (h : Stocked p b bs) (hf : f.Composed) : Puts p (putFpdu b f) bs [f] (Stocked p) := by
  have hpush : ∀ {b : EntityBuilder} {bs : List Fpdu}, Stocked p b bs →
      Puts p (Act.lift ((b.push f).mapError fun e => .negotiation (.encode e))) bs [f] (Stocked p) := by
    intro b bs h
    apply Act.meets_lift
    · exact List.nil_prefix
    · intro b' hb'
      cases hb : b.push f with
      | error e =>
        rw [hb] at hb'
        cases hb'
      | ok b₁ =>
        rw [hb] at hb'
        obtain rfl := Except.ok.inj hb'
        exact ⟨bs ++ [f], h.push hf hb, rfl⟩
  by_cases hfits : b.fits f.encodedLen = true
  · simp only [putFpdu, hfits, if_true, Act.pure_bind]
    exact hpush h
  · simp only [putFpdu, hfits, Bool.false_eq_true, if_false, Act.pure_bind]
    refine (puts_send (Q := fun _ bs' => bs' = []) h rfl).before ?_
    rintro _ bs' rfl
    exact hpush h.take

lemma putFpdus_puts (h : Stocked p b bs) (hf : ∀ f ∈ fs, f.Composed) :
    Puts p (putFpdus b fs) bs fs (Stocked p) := by
  induction fs generalizing b bs with
  | nil => exact puts_pure h
  | cons f fs ih =>
    rw [List.forall_mem_cons] at hf
    have hfirst := putFpdu_puts h hf.1
    exact hfirst.bind fun b' bs' hb' => ih hb' hf.2

lemma sendFpdu_puts (hf : f.Composed) {Q : Unit → List Fpdu → Prop} (hq : Q () []) :
    Puts p (sendFpdu p.crc f) [] [f] Q := by
  refine Puts.before (Q := fun e bs' => bs' = [] ∧ Stocked p ⟨e, p.maxEntity, p.crc, 1⟩ [f]) ?_ ?_
  · apply puts_lift
    intro e he
    refine ⟨rfl, ?_⟩
    cases hs : Frame.singleEntity f p.crc with
    | error err =>
      rw [hs] at he
      cases he
    | ok e' =>
      rw [hs] at he
      obtain rfl := Except.ok.inj he
      obtain ⟨henc, rfl⟩ := Frame.singleEntity_iff.mp hs
      exact ⟨by simp, rfl, rfl, rfl, by simpa using ⟨hf, henc⟩⟩
  · rintro e bs' ⟨rfl, he⟩
    exact ⟨[], hq, congrArg (· ++ []) he.handed⟩

end Stock

namespace SendData

variable {σ : Type} {src : ArticleSource σ} {p : DataParams} {s : SendState σ} {bs : List Fpdu}

/-- Only data FPDUs come out of a packer. -/
def Packed (f : Fpdu) : Prop := f.kind.isData = true ∧ f.params = []

lemma Packed.composed {f : Fpdu} (h : Packed f) : f.Composed := by
  rw [Fpdu.Composed, if_pos h.1]
  exact h.2

lemma packed_ofData {k : FpduKind} (hk : k.isData = true) (d c : UInt8) (data : Bytes) :
    Packed (Fpdu.ofData k d c data) := ⟨hk, rfl⟩

lemma flushInto_packed (k : ArticlePacker) : ∀ f ∈ (k.flushInto []).1, Packed f := by
  intro f hf
  simp only [ArticlePacker.flushInto] at hf
  split at hf
  · cases hf
  · obtain rfl := List.mem_singleton.mp hf
    split
    · exact packed_ofData rfl _ _ _
    · exact packed_ofData rfl _ _ _

lemma flush_packed (k : ArticlePacker) : ∀ f ∈ k.flush.1.toList, Packed f := by
  intro f hf
  have hlast : (k.flushInto []).1.getLast? = some f := by simpa [ArticlePacker.flush] using hf
  exact flushInto_packed k f (List.mem_of_getLast? hlast)

lemma segments_packed (d : UInt8) (first : Bool) (cs : List Bytes) :
    ∀ f ∈ ArticlePacker.segments d first cs, Packed f := by
  induction cs generalizing first with
  | nil => simp [ArticlePacker.segments]
  | cons c cs ih =>
    cases cs with
    | nil =>
      simp only [ArticlePacker.segments, List.mem_singleton, forall_eq]
      cases first
      · exact packed_ofData rfl _ _ _
      · exact packed_ofData rfl _ _ _
    | cons c' cs =>
      simp only [ArticlePacker.segments, List.forall_mem_cons]
      refine ⟨?_, ih false⟩
      cases first
      · exact packed_ofData rfl _ _ _
      · exact packed_ofData rfl _ _ _

lemma push_packed (k : ArticlePacker) (wire : Bytes) : ∀ f ∈ (k.push wire).1, Packed f := by
  intro f hf
  simp only [ArticlePacker.push] at hf
  split at hf
  · rcases List.mem_append.mp hf with hf | hf
    · exact flushInto_packed k f hf
    · exact segments_packed _ _ _ f hf
  · split at hf
    · obtain rfl := List.mem_singleton.mp hf
      exact packed_ofData rfl _ _ _
    · split at hf
      · exact flushInto_packed k f hf
      · cases hf

def syncFpdus (p : DataParams) (s : SendState σ) : List Fpdu :=
  s.packer.flush.1.toList ++ [Builder.syn p.peerId (nextSync s)]

lemma syncPoint_puts (h : Stocked p s.entity bs) (article wire : Bytes) :
    Puts p (syncPoint p s article wire) bs (syncFpdus p s) fun y bs' => bs' = [] ∧
      ∃ m b, Stocked p b [] ∧
        y = ({ marked p s b with
          machine := m
          compressor := (match s.compressor with
            | none => (wire, none)
            | some c => compressArticle (some c.syncPoint) article).2 },
          (match s.compressor with
            | none => (wire, none)
            | some c => compressArticle (some c.syncPoint) article).1) := by
  refine (putFpdus_puts h fun f hf => (flush_packed _ f hf).composed).bind fun b₁ bs₁ hb₁ => ?_
  refine (putFpdu_puts hb₁ (Builder.syn_composed _ _)).behind fun b₂ bs₂ hb₂ => ?_
  refine (puts_send (Q := fun _ bs' => bs' = []) hb₂ rfl).before ?_
  rintro _ _ rfl
  refine (puts_lift (Q := fun _ bs' => bs' = []) fun _ _ => rfl).before ?_
  rintro m _ rfl
  refine (puts_emit (Q := fun _ bs' => bs' = []) rfl rfl).before ?_
  rintro _ _ rfl
  refine puts_pure ⟨rfl, m, b₂.take, hb₂.take, ?_⟩
  cases s.compressor <;> rfl

def turnPacker (p : DataParams) (s : SendState σ) (article : Bytes) : ArticlePacker :=
  if (onWire p s.compressor s.bytesSinceSync article).1 then s.packer.flush.2 else s.packer

structure Prepared (p : DataParams) (s : SendState σ) (article : Bytes) (rest : σ)
    (y : SendState σ × Bytes) : Prop where
  wire : y.2 = (onWire p s.compressor s.bytesSinceSync article).2.1
  packer : y.1.packer = turnPacker p s article
  compressor : y.1.compressor = (onWire p s.compressor s.bytesSinceSync article).2.2
  source : y.1.source = rest
  dataBytes : y.1.dataBytes = s.dataBytes
  articles : y.1.articles = s.articles
  syncNo : y.1.syncNo = if (onWire p s.compressor s.bytesSinceSync article).1 then
    nextSync s else s.syncNo
  bytesSinceSync : y.1.bytesSinceSync =
    if (onWire p s.compressor s.bytesSinceSync article).1 then 0 else s.bytesSinceSync
  unacked : y.1.unacked = if (onWire p s.compressor s.bytesSinceSync article).1 && 0 < p.window
    then s.unacked ++ [nextSync s] else s.unacked

lemma prepare_puts (h : Stocked p s.entity bs) (article : Bytes) (rest : σ) :
    Puts p (prepare p s article rest) bs
      (if (onWire p s.compressor s.bytesSinceSync article).1 then syncFpdus p s else [])
      fun y bs' => Stocked p y.1.entity bs' ∧ Prepared p s article rest y ∧
        bs' = if (onWire p s.compressor s.bytesSinceSync article).1 then [] else bs := by
  cases hsync : needsSync p s.bytesSinceSync (compressArticle s.compressor article).1.length with
  | false =>
    have hwire := onWire_plain hsync
    simp only [prepare, hsync, hwire, Bool.false_eq_true, if_false]
    refine puts_pure ⟨h, ?_, rfl⟩
    constructor <;> simp [turnPacker, hwire]
  | true =>
    have hwire : onWire p s.compressor s.bytesSinceSync article =
        match (compressArticle s.compressor article).2 with
        | none => (true, (compressArticle s.compressor article).1, none)
        | some c => (true, compressArticle (some c.syncPoint) article) := by
      cases hnext : (compressArticle s.compressor article).2 with
      | none => simp only [onWire, hsync, if_true, hnext]
      | some c => simp only [onWire, hsync, if_true, hnext]
    have hfst : (onWire p s.compressor s.bytesSinceSync article).1 = true := by
      rw [hwire]
      split <;> rfl
    simp only [prepare, hsync, hfst, if_true]
    refine (syncPoint_puts
      (s := { s with compressor := (compressArticle s.compressor article).2, source := rest }) h
      article (compressArticle s.compressor article).1).mono ?_
    rintro y bs' ⟨rfl, m, b, hb, rfl⟩
    refine ⟨hb, ?_, rfl⟩
    cases hc : (compressArticle s.compressor article).2 with
    | none =>
      rw [hc] at hwire
      constructor <;> simp [turnPacker, hwire, marked, nextSync]
    | some c =>
      rw [hc] at hwire
      constructor <;> simp [turnPacker, hwire, marked, nextSync]

def turnFpdus (p : DataParams) (s : SendState σ) (article : Bytes) : List Fpdu :=
  (if (onWire p s.compressor s.bytesSinceSync article).1 then syncFpdus p s else []) ++
    ((turnPacker p s article).push (onWire p s.compressor s.bytesSinceSync article).2.1).1

lemma sendFull_puts {b : EntityBuilder} (h : Stocked p b bs) :
    Puts p (sendFull b) bs [] (Stocked p) := by
  simp only [sendFull]
  split
  · refine (puts_send (Q := fun _ bs' => bs' = []) h rfl).before ?_
    rintro _ _ rfl
    exact puts_pure h.take
  · exact puts_pure h

lemma pack_puts (h : Stocked p s.entity bs) (wire : Bytes) :
    Puts p (pack s wire) bs (s.packer.push wire).1 (Stocked p) :=
  (putFpdus_puts h fun f hf => (push_packed _ _ f hf).composed).behind fun _ _ hb => sendFull_puts hb

lemma sendArticle_puts (h : Stocked p s.entity bs) (article : Bytes) (rest : σ) :
    Puts p (sendArticle src p s article rest) bs (turnFpdus p s article) fun s' bs' =>
      Stocked p s'.entity bs' ∧ Turned src p s article rest s' ∧
        s'.packer = ((turnPacker p s article).push
        (onWire p s.compressor s.bytesSinceSync article).2.1).2 ∧
        bs' <:+ (if (onWire p s.compressor s.bytesSinceSync article).1 then [] else bs) ++
          ((turnPacker p s article).push (onWire p s.compressor s.bytesSinceSync article).2.1).1 := by
  refine (prepare_puts h article rest).bind ?_
  rintro ⟨s₁, wire⟩ bs₁ ⟨hb₁, hp, rfl⟩
  obtain rfl : wire = _ := hp.wire
  rw [← hp.packer]
  refine (pack_puts hb₁ _).tail.behind fun b bs₂ ⟨hb₂, htail⟩ => ?_
  refine (puts_lift (Q := fun _ bs' => bs₂ = bs') fun _ _ => rfl).before ?_
  rintro m _ rfl
  refine puts_pure ⟨hb₂, ?_, rfl, htail⟩
  refine ⟨hp.compressor, hp.source, ?_, ?_, hp.syncNo, ?_, hp.unacked, rfl⟩
  · exact congrArg (· + _) hp.dataBytes
  · exact congrArg (· + 1) hp.articles
  · exact congrArg (· + _) hp.bytesSinceSync

def endFpdus (p : DataParams) (s : SendState σ) : List Fpdu :=
  s.packer.flush.1.toList ++ [Builder.dtfEnd p.peerId .ok]

lemma endData_puts (h : Stocked p s.entity bs) : Puts p (endData p s) bs (endFpdus p s) fun phase bs' =>
    bs' = [] ∧ ∃ m, phase = .ended m (result s .completed) := by
  refine (putFpdus_puts h fun f hf => (flush_packed _ f hf).composed).bind fun b₁ bs₁ hb₁ => ?_
  refine (putFpdu_puts hb₁ (Builder.dtfEnd_composed _ _)).behind fun b₂ bs₂ hb₂ => ?_
  refine (puts_send (Q := fun _ bs' => bs' = []) hb₂ rfl).before ?_
  rintro _ _ rfl
  refine (puts_lift (Q := fun _ bs' => bs' = []) fun _ _ => rfl).before ?_
  rintro m _ rfl
  exact puts_pure ⟨rfl, m, rfl⟩

def Advanced (src : ArticleSource σ) (p : DataParams) (s : SendState σ) (bs : List Fpdu)
    (article : Bytes) (rest : σ) (s' : SendState σ) (bs' : List Fpdu) : Prop :=
  Stocked p s'.entity bs' ∧ Turned src p s article rest s' ∧
    s'.packer = ((turnPacker p s article).push (onWire p s.compressor s.bytesSinceSync article).2.1).2 ∧
    bs' <:+ (if (onWire p s.compressor s.bytesSinceSync article).1 then [] else bs) ++
      ((turnPacker p s article).push (onWire p s.compressor s.bytesSinceSync article).2.1).1

lemma advance_puts (h : Stocked p s.entity bs) {article : Bytes} {rest : σ}
    (hnext : src.nextArticle s.source = some (article, rest)) :
    Puts p (advance src p s) bs (turnFpdus p s article) fun phase bs' =>
      ∃ s', phase = .looping s' ∧ Advanced src p s bs article rest s' bs' := by
  simp only [advance, hnext]
  refine (sendArticle_puts h article rest).behind ?_
  intro s' bs' hs'
  exact puts_pure ⟨s', rfl, hs'⟩

lemma advance_end (hnext : src.nextArticle s.source = none) : advance src p s = endData p s := by
  simp only [advance, hnext]

lemma interrupt_puts (m : Machine) : Puts p (interrupt p m) [] [idtFpdu p] fun _ bs' => bs' = [] := by
  refine (puts_lift (Q := fun _ bs' => bs' = []) fun _ _ => rfl).before ?_
  rintro m _ rfl
  refine (sendFpdu_puts (Q := fun _ bs' => bs' = []) (Builder.idt_composed _ _ _) rfl).behind ?_
  rintro _ _ rfl
  exact puts_pure rfl

lemma cancel_puts (h : Stocked p s.entity bs) :
    Puts p (cancel p s) bs [idtFpdu p] fun phase bs' =>
      bs' = [] ∧ ∃ m, phase = .interrupting { s with machine := m, entity := s.entity.take } := by
  have hidt : Puts p (do
      let m ← interrupt p s.machine
      pure (SendPhase.interrupting { s with machine := m, entity := s.entity.take })) []
        [idtFpdu p] fun phase bs' =>
        bs' = [] ∧ ∃ m, phase = .interrupting { s with machine := m, entity := s.entity.take } := by
    refine (interrupt_puts s.machine).behind ?_
    rintro m _ rfl
    exact puts_pure ⟨rfl, m, rfl⟩
  simp only [cancel]
  split
  · refine (puts_send (Q := fun _ bs' => bs' = []) h rfl).before ?_
    rintro _ _ rfl
    exact hidt
  · rename_i hcount
    obtain rfl : bs = [] := List.length_eq_zero_iff.mp (by rw [← h.count]; omega)
    exact hidt

/-- The checkpoint from which a sender resumes that is asked for one. -/
def resumed (store : MemoryCheckpoints) (f : Fpdu) : Checkpoint :=
  if f.restartPoint.getD 0 = 0 then .default else (store.get (f.restartPoint.getD 0)).getD .default

lemma resumed_sync (store : MemoryCheckpoints) (f : Fpdu) :
    (resumed store f).sync = 0 ∨ (resumed store f).sync = f.restartPoint.getD 0 := by
  rw [resumed]
  split
  · exact .inl rfl
  · rename_i hpos
    cases hget : store.get (f.restartPoint.getD 0) with
    | none => exact .inl rfl
    | some cp =>
      rw [MemoryCheckpoints.get, if_neg hpos] at hget
      have hsync := List.find?_some hget
      exact .inr (by simpa using hsync)

lemma restartPoint_lt (f : Fpdu) : f.restartPoint.getD 0 < 2 ^ 32 := by
  rw [Fpdu.restartPoint]
  cases f.get .restartPoint with
  | none => exact Nat.two_pow_pos 32
  | some v => exact Nat.mod_lt _ (Nat.two_pow_pos 32)

lemma resumed_lt (store : MemoryCheckpoints) (f : Fpdu) : (resumed store f).sync < 2 ^ 32 := by
  have hasked := restartPoint_lt f
  rcases resumed_sync store f with h | h <;> omega

section Receptions

variable {store : MemoryCheckpoints} {f : Fpdu}

lemma resyn_puts (hf : f.kind = .resyn) :
    Puts p (handleAsync src p store s f) []
    [Builder.ackResyn p.peerId (resumed store f).sync] fun phase bs' =>
      bs' = [] ∧ ∃ m, phase = .looping (rewindTo src s m (resumed store f)) := by
  simp only [handleAsync, hf]
  refine (puts_lift (Q := fun _ bs' => bs' = []) fun _ _ => rfl).before ?_
  rintro m _ rfl
  split
  · refine (sendFpdu_puts (Q := fun _ bs' => bs' = []) (Builder.ackResyn_composed _ _) rfl).behind ?_
    rintro _ _ rfl
    refine (puts_lift (Q := fun _ bs' => bs' = []) fun _ _ => rfl).before ?_
    rintro m _ rfl
    exact puts_pure ⟨rfl, m, rfl⟩
  · exact List.nil_prefix

lemma idt_puts (hf : f.kind = .idt) :
    Puts p (handleAsync src p store s f) [] [Builder.ackIdt p.peerId] fun phase bs' =>
      bs' = [] ∧ ∃ m res, phase = .ended m res := by
  simp only [handleAsync, hf]
  refine (puts_lift (Q := fun _ bs' => bs' = []) fun _ _ => rfl).before ?_
  rintro m _ rfl
  refine (sendFpdu_puts (Q := fun _ bs' => bs' = []) (Builder.ackIdt_composed _) rfl).behind ?_
  rintro _ _ rfl
  refine (puts_lift (Q := fun _ bs' => bs' = []) fun _ _ => rfl).before ?_
  rintro m _ rfl
  exact puts_pure ⟨rfl, m, _, rfl⟩

lemma ackSyn_puts (hf : f.kind = .ackSyn) :
    Puts p (handleAsync src p store s f) bs [] fun phase bs' => bs = bs' ∧
      ∃ m, phase = .looping { s with
        machine := m
        unacked := s.unacked.dropWhile (· ≤ f.syncNumber.getD 0) } := by
  simp only [handleAsync, hf]
  refine (puts_lift (Q := fun _ bs' => bs = bs') fun _ _ => rfl).before ?_
  rintro m _ rfl
  refine (puts_emit (Q := fun _ bs' => bs = bs') rfl rfl).before ?_
  rintro _ _ rfl
  exact puts_pure ⟨rfl, m, rfl⟩

lemma other_puts (hresyn : f.kind ≠ .resyn) (hidt : f.kind ≠ .idt) (hack : f.kind ≠ .ackSyn) :
    Puts p (handleAsync src p store s f) bs [] fun phase bs' => bs = bs' ∧
    ∃ m, phase = .looping { s with machine := m } := by
  simp only [handleAsync]
  refine (puts_lift (Q := fun _ bs' => bs = bs') fun _ _ => rfl).before ?_
  rintro m _ rfl
  exact puts_pure ⟨rfl, m, rfl⟩

lemma interrupted_puts (f : Fpdu) :
    Puts p (interrupted p s f) []
    (if f.kind = .idt then [Builder.ackIdt p.peerId] else []) fun phase bs' =>
      bs' = [] ∧ ((∃ m res, phase = .ended m res) ∨ ∃ m, phase = .interrupting { s with
        machine := m }) := by
  refine Puts.behind (Q := fun _ bs' => bs' = []) ?_ ?_
  · simp only [interruptRecv]
    refine (puts_lift (Q := fun _ bs' => bs' = []) fun _ _ => rfl).before ?_
    rintro m _ rfl
    split
    · rename_i hack
      rw [if_neg (by rw [hack]; decide)]
      exact puts_pure rfl
    · rename_i hidt
      rw [if_pos hidt]
      refine (sendFpdu_puts (Q := fun _ bs' => bs' = []) (Builder.ackIdt_composed _) rfl).behind ?_
      rintro _ _ rfl
      split
      · exact puts_pure rfl
      · exact puts_pure rfl
    · rename_i hack hidt
      rw [if_neg hidt]
      exact puts_pure rfl
  · rintro ⟨m, done⟩ _ rfl
    cases done
    · exact puts_pure ⟨rfl, .inr ⟨m, rfl⟩⟩
    · exact puts_pure ⟨rfl, .inl ⟨m, _, rfl⟩⟩

end Receptions

end SendData

namespace Sending

variable {σ : Type} {src : ArticleSource σ} {p : DataParams} {x : Sending σ} {act : Run (SendPhase σ)}
  {bs fs : List Fpdu} {Q : SendPhase σ → List Fpdu → Prop}

lemma notices_append (crc : Bool) (ts us : List Traffic) :
    notices crc (ts ++ us) = notices crc ts ++ notices crc us := List.flatMap_append

lemma notices_passed (crc : Bool) (ws : List Effect) :
    notices crc (passed ws) = (handed crc ws).map Notice.sent := by
  simp only [handed, passed, notices, fpdusSent, List.flatMap_map, List.map_flatMap]

lemma follow_notices (x : Sending σ) (act : Run (SendPhase σ)) :
    notices p.crc (x.follow act).traffic = notices p.crc x.traffic ++
    (handed p.crc act.effects).map Notice.sent := by
  rw [follow_traffic, notices_append, notices_passed]

lemma follow_puts (x : Sending σ) (h : Puts p act bs fs Q) :
    (∃ e zs, (x.follow act).phase = .failed e ∧ zs <+: bs ++ fs ∧ handed p.crc act.effects = zs) ∨
    ∃ zs bs', Q (x.follow act).phase bs' ∧ zs ++ bs' = bs ++ fs ∧ handed p.crc act.effects = zs := by
  obtain ⟨ws, r⟩ := act
  cases r with
  | error e => exact .inl ⟨e, _, rfl, h, rfl⟩
  | ok phase =>
    obtain ⟨bs', hq, hws⟩ := h
    exact .inr ⟨_, bs', hq, hws, rfl⟩

/-- A sender does nothing, or one of its acts, or fails. -/
lemma take_rule {P : Sending σ → Prop} {o : Occasion} (hidle : P x)
    (hturn : ∀ s, x.phase = .looping s → o = .turn → windowFull p s = false →
      P (x.follow (advance src p s)))
    (hasync : ∀ s f, x.phase = .looping s → o = .reception (.ok f) →
      P ((x.hear (.ok f)).follow (handleAsync src p x.store s f)))
    (hcancel : ∀ s, x.phase = .looping s → o = .cancellation → P (x.follow (cancel p s)))
    (hinterrupted : ∀ s f, x.phase = .interrupting s → o = .reception (.ok f) →
      P ((x.hear (.ok f)).follow (interrupted p s f)))
    (hfailed : ∀ e, P (x.follow (Act.lift (.error e)))) : P (x.take src p o) := by
  cases hphase : x.phase with
  | looping s =>
    cases o with
    | reception r =>
      simp only [take, hphase]
      cases r with
      | ok f => exact hasync s f hphase rfl
      | error e => exact hfailed e
    | cancellation =>
      simp only [take, hphase]
      exact hcancel s hphase rfl
    | turn =>
      simp only [take, hphase]
      cases hfull : windowFull p s with
      | true => exact hidle
      | false => exact hturn s hphase rfl hfull
  | interrupting s =>
    cases o with
    | reception r =>
      simp only [take, hphase]
      cases r with
      | ok f => exact hinterrupted s f hphase rfl
      | error e => exact hfailed e
    | cancellation =>
      simp only [take, hphase]
      exact hidle
    | turn =>
      simp only [take, hphase]
      exact hidle
  | ended m res =>
    cases o <;> simp only [take, hphase] <;> exact hidle
  | failed e =>
    cases o <;> simp only [take, hphase] <;> exact hidle

/-- What the sender starts with and keeps whatever happens holds in every run. -/
lemma run_rule {P : Sending σ → Prop} {m : Machine} {source : σ} {store : MemoryCheckpoints}
    {cp : Checkpoint} (hstart : P (start src p m source store cp))
    (htake : ∀ x o, P x → P (x.take src p o)) (os : List Occasion) :
    P (run src p m source store cp os) := by
  rw [run]
  induction os using List.reverseRecOn with
  | nil => exact hstart
  | append_singleton os o ih =>
    rw [List.foldl_append]
    exact htake _ o ih

/-- A synchronisation point every kilobyte and a window of one. -/
def kilobyteParams : DataParams := ⟨1, ⟨1, 1⟩, false, .none, false, 512, false, 0, .requester⟩

/-- Three articles that need a point each. -/
def kilobyteRun (os : List Occasion) : Sending VecSource :=
  run VecSource.ops kilobyteParams ⟨.requester, .tde02A⟩
    (.new (List.replicate 3 (List.replicate 1000 7))) .empty .default os

@[irreducible] def threeTurns : List Occasion := [.turn, .turn, .turn]

end Sending

end PesitWizard.Io
