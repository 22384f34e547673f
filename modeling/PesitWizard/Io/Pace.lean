import PesitWizard.Core.Reassembly
import PesitWizard.Io.Outgoing
import PesitWizard.Library.Moves

/-! Where a sender puts its synchronisation points, from what passes its link. -/

namespace PesitWizard.Io

open PesitWizard.Core Library SendData

/-- The articles of a stretch are no longer than the interval together, or at most one of them
has anything in it. -/
def Short (i : ℕ) (ws : List Bytes) : Prop := ws.flatten.length ≤ i ∨ (ws.filter (· ≠ [])).length ≤ 1

lemma short_nil (i : ℕ) : Short i [] := .inl (Nat.zero_le i)

lemma short_singleton (i : ℕ) (w : Bytes) : Short i [w] := .inr (List.length_filter_le _ _)

lemma short_snoc {i : ℕ} {ws : List Bytes} {w : Bytes}
    (h : ws.flatten.length = 0 ∨ ws.flatten.length + w.length ≤ i) : Short i (ws ++ [w]) := by
  rcases h with h | h
  · have hnil : ∀ v ∈ ws, v = [] := List.flatten_eq_nil_iff.mp (List.length_eq_zero_iff.mp h)
    have hnone : ws.filter (· ≠ []) = [] := by simpa using hnil
    refine .inr ?_
    rw [List.filter_append, hnone, List.nil_append]
    exact List.length_filter_le _ _
  · refine .inl ?_
    simpa using h

/-- The number of the last synchronisation point, the point the peer has asked for, the article that is
being put together and the articles since that synchronisation point. -/
structure Pace where
  number : ℕ
  asked : ℕ
  reassembler : Reassembler
  wires : List Bytes

namespace Pace

def fresh (n : ℕ) : Pace := ⟨n, 0, .new 0, []⟩

def restart (x : Pace) (n : ℕ) : Pace := { x with number := n, reassembler := .new 0, wires := [] }

def see (x : Pace) : Notice → Pace
  | .received f => if f.kind = .resyn then { x with asked := f.restartPoint.getD 0 } else x
  | .sent f =>
    match f.kind with
    | .syn => x.restart (f.syncNumber.getD 0)
    | .ackResyn => x.restart (f.restartPoint.getD 0)
    | _ =>
      match x.reassembler.feed f with
      | .ok (ws, r) => { x with reassembler := r, wires := x.wires ++ ws }
      | .error _ => x

def Closes (i : ℕ) (x : Pace) : Prop := x.reassembler.inProgress = false ∧ Short i x.wires

/-- A SYN and a DTF.END close a stretch, a SYN not an empty one, and the numbers count on from the last
SYN or from the point that an ACK(RESYN) grants, which is the one asked for or the beginning. -/
def Allows (i : ℕ) (x : Pace) : Notice → Prop
  | .received _ => True
  | .sent f =>
    match f.kind with
    | .syn => x.Closes i ∧ 0 < x.wires.flatten.length ∧ f.syncNumber = some ((x.number + 1) % 2 ^ 32)
    | .dtfEnd => x.Closes i
    | .ackResyn => f.restartPoint = some 0 ∨ f.restartPoint = some x.asked
    | _ => ∃ out, x.reassembler.feed f = .ok out

variable {i : ℕ} {x y z : Pace} {f : Fpdu} {fs gs : List Fpdu}

/-- These FPDUs may follow, and lead from the one to the other. -/
def Goes (i : ℕ) (x : Pace) (fs : List Fpdu) (y : Pace) : Prop :=
  Each see (Allows i) x (fs.map Notice.sent) ∧ (fs.map Notice.sent).foldl see x = y

lemma goes_nil (x : Pace) : Goes i x [] x := ⟨trivial, rfl⟩

lemma goes_one (h : Allows i x (.sent f)) : Goes i x [f] (x.see (.sent f)) := ⟨⟨h, trivial⟩, rfl⟩

lemma Goes.append (h : Goes i x fs y) (h' : Goes i y gs z) : Goes i x (fs ++ gs) z := by
  rw [Goes, List.map_append, each_append, List.foldl_append, h.2]
  exact ⟨⟨h.1, h'.1⟩, h'.2⟩

lemma Goes.split (h : Goes i x (fs ++ gs) y) :
    Each see (Allows i) x (fs.map Notice.sent) ∧ Goes i ((fs.map Notice.sent).foldl see x) gs y := by
  rw [Goes, List.map_append, each_append, List.foldl_append] at h
  exact ⟨h.1.1, h.1.2, h.2⟩

lemma see_feed (hf : f.kind.isData = true) {ws : List Bytes} {r : Reassembler}
    (h : x.reassembler.feed f = .ok (ws, r)) :
    Allows i x (.sent f) ∧ x.see (.sent f) = { x with reassembler := r, wires := x.wires ++ ws } := by
  cases hk : f.kind with
  | dtf | dtfDa | dtfMa | dtfFa =>
    simp only [Allows, see, hk, h]
    exact ⟨⟨_, rfl⟩, trivial⟩
  | _ =>
    rw [hk] at hf
    cases hf

lemma goes_data (hfs : ∀ f ∈ fs, f.kind.isData = true) {ws : List Bytes} {r : Reassembler}
    (h : x.reassembler.feedAll fs = .ok (ws, r)) :
    Goes i x fs { x with reassembler := r, wires := x.wires ++ ws } := by
  induction fs generalizing x ws with
  | nil =>
    obtain ⟨rfl, rfl⟩ := Prod.mk.inj (Except.ok.inj h)
    rw [List.append_nil]
    exact goes_nil x
  | cons f fs ih =>
    rw [List.forall_mem_cons] at hfs
    cases hfeed : x.reassembler.feed f with
    | error e =>
      rw [Reassembler.feedAll_cons_error hfeed] at h
      cases h
    | ok y =>
      obtain ⟨out, r'⟩ := y
      rw [Reassembler.feedAll_cons hfeed] at h
      cases hrest : r'.feedAll fs with
      | error e =>
        rw [hrest] at h
        cases h
      | ok z =>
        rw [hrest] at h
        obtain ⟨rfl, rfl⟩ := Prod.mk.inj (Except.ok.inj h)
        obtain ⟨hallows, hsee⟩ := see_feed (i := i) hfs.1 hfeed
        have hone := goes_one hallows
        rw [hsee] at hone
        have hall := hone.append (ih hfs.2 hrest)
        rwa [List.append_assoc] at hall

lemma goes_syn (h : x.Closes i) (hpos : 0 < x.wires.flatten.length) (d : UInt8) :
    Goes i x [Builder.syn d ((x.number + 1) % 2 ^ 32)] (x.restart ((x.number + 1) % 2 ^ 32)) := by
  have hnum := Builder.syn_syncNumber d (Nat.mod_lt (x.number + 1) (y := 2 ^ 32) (by decide))
  have hone := goes_one (i := i) (x := x) (f := Builder.syn d ((x.number + 1) % 2 ^ 32)) ⟨h, hpos, hnum⟩
  simp only [see, show (Builder.syn d ((x.number + 1) % 2 ^ 32)).kind = .syn from rfl, hnum,
    Option.getD_some] at hone
  exact hone

end Pace

namespace Sending

open Pace ArticlePacker

variable {σ : Type} {src : ArticleSource σ} {p : DataParams} {i : ℕ} {x : Sending σ} {s : SendState σ}
  {bs : List Fpdu} {ws : List Bytes} {a b : Pace}

/-- What a sender knows of the stretch, when all that is in its builder has been sent and `ws`
is in its packer. -/
structure Keeping (i : ℕ) (s : SendState σ) (ws : List Bytes) (a : Pace) : Prop where
  whole : a.reassembler = .new 0
  number : a.number = s.syncNo
  length : (a.wires ++ ws).flatten.length = s.bytesSinceSync
  short : Short i (a.wires ++ ws)

structure Packing (k : ArticlePacker) (ws : List Bytes) : Prop where
  holds : k.Holds ws
  mono : k.multiArticle = false → ws = []

lemma packing_flush {k : ArticlePacker} (h : Packing k ws) (ha : a.reassembler = .new 0) :
    Packing k.flush.2 [] ∧ Goes i a k.flush.1.toList { a with wires := a.wires ++ ws } := by
  obtain ⟨out, ws', hholds, -, hmono, hemit, hfeed, hout, hnil⟩ := perform_spec h.holds h.mono .flush
  obtain rfl := hnil rfl
  obtain rfl : out = ws := by simpa [Call.article] using hout
  refine ⟨⟨hholds, hmono⟩, ?_⟩
  rw [← ha] at hfeed
  exact goes_data (fun f hf => (hemit f hf).1.1) hfeed

lemma packing_push {k : ArticlePacker} (h : Packing k ws) (ha : a.reassembler = .new 0) (w : Bytes) :
    ∃ out ws', Packing (k.push w).2 ws' ∧ Goes i a (k.push w).1 { a with wires := a.wires ++ out } ∧
      out ++ ws' = ws ++ [w] := by
  obtain ⟨out, ws', hholds, -, hmono, hemit, hfeed, hout, -⟩ := perform_spec h.holds h.mono (.push w)
  rw [← ha] at hfeed
  exact ⟨out, ws', ⟨hholds, hmono⟩, goes_data (fun f hf => (hemit f hf).1.1) hfeed, hout⟩

lemma keeping_flush (h : Packing s.packer ws) (hk : Keeping i s ws a) :
    Packing s.packer.flush.2 [] ∧ ∃ b, Goes i a s.packer.flush.1.toList b ∧ b.Closes i ∧
    b.number = s.syncNo ∧
      b.wires.flatten.length = s.bytesSinceSync := by
  obtain ⟨hpack, hgoes⟩ := packing_flush h hk.whole
  refine ⟨hpack, _, hgoes, ⟨?_, hk.short⟩, hk.number, hk.length⟩
  rw [hk.whole]
  rfl

lemma keeping_turn (hiv : p.interval = some i) (h : Packing s.packer ws) (hk : Keeping i s ws a)
    (article : Bytes) (rest : σ) :
    ∃ ws' b, Packing
    ((turnPacker p s article).push (onWire p s.compressor s.bytesSinceSync article).2.1).2 ws' ∧
      Goes i a (turnFpdus p s article) b ∧ ∀ s', Turned src p s article rest s' →
      Keeping i s' ws' b := by
  cases hsync : (onWire p s.compressor s.bytesSinceSync article).1 with
  | false =>
    have hfits : s.bytesSinceSync = 0 ∨
        s.bytesSinceSync + (onWire p s.compressor s.bytesSinceSync article).2.1.length ≤ i := by
      rw [onWire_fst] at hsync
      rw [onWire_plain hsync]
      show _ ∨ s.bytesSinceSync + (compressArticle s.compressor article).1.length ≤ i
      simp only [needsSync, hiv, Bool.and_eq_false_iff, decide_eq_false_iff_not] at hsync
      omega
    simp only [turnPacker, turnFpdus, hsync, Bool.false_eq_true, if_false, List.nil_append]
    obtain ⟨out, ws', hpack, hgoes, hout⟩ := packing_push (i := i) h hk.whole _
    refine ⟨ws', _, hpack, hgoes, ?_⟩
    intro s' ht
    have hall : a.wires ++ out ++ ws' = a.wires ++ ws ++
        [(onWire p s.compressor s.bytesSinceSync article).2.1] := by
      rw [List.append_assoc, hout, List.append_assoc]
    refine ⟨hk.whole, ?_, ?_, ?_⟩
    · rw [ht.syncNo, hsync]
      exact hk.number
    · rw [hall, List.flatten_append, List.length_append, hk.length, ht.bytesSinceSync, hsync]
      simp
    · rw [hall]
      apply short_snoc
      rw [hk.length]
      exact hfits
  | true =>
    have hpos : 0 < s.bytesSinceSync := by
      rw [onWire_fst] at hsync
      simp only [needsSync, hiv, Bool.and_eq_true, decide_eq_true_eq] at hsync
      exact hsync.1
    obtain ⟨hpack, b, hgoes, hcloses, hnum, hlen⟩ := keeping_flush h hk
    have hsyn := goes_syn hcloses (by rwa [hlen]) p.peerId
    simp only [turnPacker, turnFpdus, syncFpdus, hsync, if_true]
    obtain ⟨out, ws', hpack', hgoes', hout⟩ :=
      packing_push (i := i) (a := b.restart (nextSync s)) hpack rfl
      (onWire p s.compressor s.bytesSinceSync article).2.1
    rw [hnum] at hsyn
    refine ⟨ws', _, hpack', (hgoes.append hsyn).append hgoes', ?_⟩
    intro s' ht
    have hall : [] ++ out ++ ws' = [(onWire p s.compressor s.bytesSinceSync article).2.1] := hout
    refine ⟨rfl, ?_, ?_, ?_⟩
    · rw [ht.syncNo, hsync]
      rfl
    · show ([] ++ out ++ ws').flatten.length = _
      rw [hall, ht.bytesSinceSync, hsync]
      simp
    · show Short i ([] ++ out ++ ws')
      rw [hall]
      exact short_singleton i _

structure Paced (p : DataParams) (i n : ℕ) (x : Sending σ) : Prop where
  allowed : Each see (Allows i) (fresh n) (notices p.crc x.traffic)
  looping : ∀ s, x.phase = .looping s → ∃ bs ws a, Stocked p s.entity bs ∧ Packing s.packer ws ∧
    Goes i ((notices p.crc x.traffic).foldl see (fresh n)) bs a ∧ Keeping i s ws a

variable {n : ℕ}

/-- What an act sends is allowed when all of what it puts is. -/
lemma paced_sends (h : Each see (Allows i) (fresh n) (notices p.crc x.traffic)) {act : Run (SendPhase σ)}
    {fs : List Fpdu} {Q : SendPhase σ → List Fpdu → Prop} (hputs : Puts p act bs fs Q)
    (hgoes : Goes i ((notices p.crc x.traffic).foldl see (fresh n)) (bs ++ fs) b) :
    Each see (Allows i) (fresh n) (notices p.crc (x.follow act).traffic) := by
  obtain ⟨rest, hrest⟩ := hputs.handed
  rw [← hrest] at hgoes
  rw [follow_notices, each_append]
  exact ⟨h, hgoes.split.1⟩

lemma paced_leave (h : Each see (Allows i) (fresh n) (notices p.crc x.traffic)) {act : Run (SendPhase σ)}
    {fs : List Fpdu} {Q : SendPhase σ → List Fpdu → Prop} (hputs : Puts p act bs fs Q)
    (hgoes : Goes i ((notices p.crc x.traffic).foldl see (fresh n)) (bs ++ fs) b)
    (hq : ∀ phase bs', Q phase bs' → ∀ s, phase ≠ .looping s) : Paced p i n (x.follow act) := by
  refine ⟨paced_sends h hputs hgoes, ?_⟩
  intro s hs
  rcases x.follow_puts hputs with ⟨e, _, he, -, -⟩ | ⟨_, bs', hphase, -, -⟩
  · rw [he] at hs
    cases hs
  · exact absurd hs (hq _ bs' hphase s)

lemma paced_stay (h : Each see (Allows i) (fresh n) (notices p.crc x.traffic)) {act : Run (SendPhase σ)}
    {fs : List Fpdu} {Q : SendPhase σ → List Fpdu → Prop} (hputs : Puts p act bs fs Q)
    (hgoes : Goes i ((notices p.crc x.traffic).foldl see (fresh n)) (bs ++ fs) b)
    (hq : ∀ phase bs', Q phase bs' → ∃ s' ws', phase = .looping s' ∧ Stocked p s'.entity bs' ∧
      Packing s'.packer ws' ∧
      Keeping i s' ws' b) : Paced p i n (x.follow act) := by
  refine ⟨paced_sends h hputs hgoes, ?_⟩
  intro s hs
  rcases x.follow_puts hputs with ⟨e, _, he, -, -⟩ | ⟨zs, bs', hphase, hzs, hhanded⟩
  · rw [he] at hs
    cases hs
  · obtain ⟨s', ws', hs', hstock, hpack, hkeep⟩ := hq _ bs' hphase
    obtain rfl := SendPhase.looping.inj (hs'.symm.trans hs)
    rw [← hzs] at hgoes
    refine ⟨bs', ws', b, hstock, hpack, ?_, hkeep⟩
    rw [follow_notices, hhanded, List.foldl_append]
    exact hgoes.split.2

lemma paced_failed (h : Each see (Allows i) (fresh n) (notices p.crc x.traffic)) (e : SessionError) :
    Paced p i n (x.follow (Act.lift (.error e))) := by
  have hputs : Puts p (Act.lift (.error e)) [] [] fun (_ : SendPhase σ) _ => False := puts_lift (by simp)
  exact paced_leave h hputs (goes_nil _) (by simp)

lemma hear_allowed (h : Each see (Allows i) (fresh n) (notices p.crc x.traffic)) (f : Fpdu) :
    Each see (Allows i) (fresh n) (notices p.crc (x.hear (.ok f)).traffic) := by
  rw [hear, notices_append, each_append]
  exact ⟨h, trivial, trivial⟩

lemma hear_fold (x : Sending σ) (f : Fpdu) :
    (notices p.crc (x.hear (.ok f)).traffic).foldl see (fresh n) =
      ((notices p.crc x.traffic).foldl see (fresh n)).see (.received f) := by
  rw [hear, notices_append, List.foldl_append]
  rfl

section Loop

lemma paced_turn (hiv : p.interval = some i) (hphase : x.phase = .looping s) (h : Paced p i n x) :
    Paced p i n (x.follow (advance src p s)) := by
  obtain ⟨bs, ws, a, hstock, hpack, hgoes, hkeep⟩ := h.looping s hphase
  cases hnext : src.nextArticle s.source with
  | none =>
    rw [advance_end hnext]
    obtain ⟨-, b, hflush, hcloses, -⟩ := keeping_flush hpack hkeep
    have hend := (hgoes.append hflush).append (goes_one (f := Builder.dtfEnd p.peerId .ok) hcloses)
    rw [List.append_assoc] at hend
    refine paced_leave h.allowed (endData_puts hstock) hend ?_
    rintro phase bs' ⟨-, m, rfl⟩ s'
    simp
  | some y =>
    obtain ⟨article, rest⟩ := y
    obtain ⟨ws', b, hpack', hturn, hkeep'⟩ := keeping_turn (p := p) hiv hpack hkeep article rest
    refine paced_stay h.allowed (advance_puts hstock hnext) (hgoes.append hturn) ?_
    rintro phase bs' ⟨s', rfl, hstock', hturned, hpacker, -⟩
    exact ⟨s', ws', rfl, hstock', hpacker ▸ hpack', hkeep' s' hturned⟩

lemma goes_resumed (store : MemoryCheckpoints) (hf : f.kind = .resyn) (a : Pace) (d : UInt8) :
    Goes i (a.see (.received f)) [Builder.ackResyn d (resumed store f).sync]
      ((a.see (.received f)).restart (resumed store f).sync) := by
  have hsync := resumed_sync store f
  have hpoint := Builder.ackResyn_restartPoint d (resumed_lt store f)
  have hone :=
    goes_one (i := i) (x := a.see (.received f)) (f := Builder.ackResyn d (resumed store f).sync) (by
    show _ ∨ _
    rw [hpoint]
    simpa [see, hf] using hsync)
  simp only [see, show (Builder.ackResyn d (resumed store f).sync).kind = .ackResyn from rfl,
    hpoint] at hone ⊢
  exact hone

lemma paced_async (hphase : x.phase = .looping s) (h : Paced p i n x) (f : Fpdu) :
    Paced p i n ((x.hear (.ok f)).follow (handleAsync src p x.store s f)) := by
  obtain ⟨bs, ws, a, hstock, hpack, hgoes, hkeep⟩ := h.looping s hphase
  have hallowed := hear_allowed h.allowed f
  have hfold := hear_fold (p := p) (n := n) x f
  have hquiet (hresyn : f.kind ≠ .resyn) :
      Goes i ((notices p.crc (x.hear (.ok f)).traffic).foldl see (fresh n)) (bs ++ []) a := by
    rw [hfold, List.append_nil]
    simpa only [see, hresyn, if_false] using hgoes
  by_cases hresyn : f.kind = .resyn
  · have hgo := goes_resumed (i := i) x.store hresyn
      ((notices p.crc x.traffic).foldl see (fresh n)) p.peerId
    rw [← hfold] at hgo
    refine paced_stay hallowed (resyn_puts hresyn) hgo ?_
    rintro phase bs' ⟨rfl, m, rfl⟩
    exact ⟨_, [], rfl, hstock.take, (packing_flush (i := i) hpack hkeep.whole).1, rfl, rfl,
      rfl, short_nil i⟩
  by_cases hidt : f.kind = .idt
  · refine paced_leave hallowed (idt_puts hidt) (goes_one ⟨_, rfl⟩) ?_
    rintro phase bs' ⟨-, m, res, rfl⟩ s'
    simp
  by_cases hack : f.kind = .ackSyn
  · refine paced_stay hallowed (ackSyn_puts hack) (hquiet hresyn) ?_
    rintro phase bs' ⟨rfl, m, rfl⟩
    exact ⟨_, ws, rfl, hstock, hpack, hkeep.whole, hkeep.number, hkeep.length, hkeep.short⟩
  · refine paced_stay hallowed (other_puts hresyn hidt hack) (hquiet hresyn) ?_
    rintro phase bs' ⟨rfl, m, rfl⟩
    exact ⟨_, ws, rfl, hstock, hpack, hkeep.whole, hkeep.number, hkeep.length, hkeep.short⟩

end Loop

lemma paced_take (hiv : p.interval = some i) (h : Paced p i n x) (o : Occasion) :
    Paced p i n (x.take src p o) := by
  apply take_rule h
  · intro s hphase _ _
    exact paced_turn hiv hphase h
  · intro s f hphase _
    exact paced_async hphase h f
  · intro s hphase _
    obtain ⟨bs, ws, a, hstock, -, hgoes, -⟩ := h.looping s hphase
    refine paced_leave h.allowed (cancel_puts hstock) (hgoes.append (goes_one ⟨_, rfl⟩)) ?_
    rintro phase bs' ⟨-, m, rfl⟩ s'
    simp
  · intro s f _ _
    have hgo : ∃ b, Goes i ((notices p.crc (x.hear (.ok f)).traffic).foldl see (fresh n))
        ([] ++ if f.kind = .idt then [Builder.ackIdt p.peerId] else []) b := by
      split
      · exact ⟨_, goes_one ⟨_, rfl⟩⟩
      · exact ⟨_, goes_nil _⟩
    obtain ⟨b, hgo⟩ := hgo
    refine paced_leave (hear_allowed h.allowed f) (interrupted_puts f) hgo ?_
    rintro phase bs' ⟨-, ⟨m, res, rfl⟩ | ⟨m, rfl⟩⟩ s'
    · simp
    · simp
  · exact paced_failed h.allowed

lemma start_packing (hmax : p.maxEntity ≤ 65535) (m : Machine) (source : σ) (cp : Checkpoint) :
    Packing (SendData.start src p m source cp).packer [] :=
  ⟨new_holds p.peerId ((Nat.sub_le _ _).trans hmax) p.multiArticle, fun _ => rfl⟩

/-- In every run the stretches between the synchronisation points are as long as the interval allows,
none is empty, and the numbers of the points count on from where the run starts and from where a
resynchronisation goes back to. -/
theorem run_paced (src : ArticleSource σ) (p : DataParams) (hmax : p.maxEntity ≤ 65535) (i : ℕ)
    (hiv : p.interval = some i) (m : Machine) (source : σ) (store : MemoryCheckpoints) (cp : Checkpoint)
    (os : List Occasion) :
    Each see (Allows i) (fresh cp.sync) (notices p.crc (run src p m source store cp os).traffic) := by
  have h : Paced p i cp.sync (run src p m source store cp os) := by
    apply run_rule
    · refine ⟨trivial, ?_⟩
      intro s hs
      obtain rfl := SendPhase.looping.inj hs
      exact ⟨[], [], fresh cp.sync, .new p, start_packing hmax m source cp, goes_nil _, rfl, rfl,
        rfl, short_nil i⟩
    · intro x o hx
      exact paced_take hiv hx o
  exact h.allowed

theorem run_paced_kilobyte :
    Each see (Allows 1024) (fresh Checkpoint.default.sync)
      (notices kilobyteParams.crc (kilobyteRun threeTurns).traffic) :=
  run_paced VecSource.ops kilobyteParams (by decide) 1024 (by decide) _ _ _ _ threeTurns

end Sending

end PesitWizard.Io
