import PesitWizard.Io.Lossless
import PesitWizard.Library.Inevitable

/-! A data phase over a reliable link comes to its end, whatever the order of the moves, and delivers the
articles exactly when they come through. -/

namespace PesitWizard.Io

open PesitWizard.Core Library

namespace Transfer

open Reception SendData Session

variable {σ τ : Type} {t : Transfer σ τ} {total base : ℕ} {H : Prop} {c d : Session σ τ}
    {written : List Bytes}

section Termination

def turnsLeft (t : Transfer σ τ) : SendPhase σ → ℕ
  | .looping s => t.articles.length - s.articles + 1
  | _ => 0

def rank (t : Transfer σ τ) (c : Session σ τ) : ℕ × ℕ × ℕ × ℕ × ℕ × ℕ :=
  (t.turnsLeft c.sender.phase, (SendData.sends c.sender.todo).length, c.receiver.link.incoming.length,
    c.receiver.link.pending.length, c.receiver.todo.length,
    2 * c.sender.link.incoming.length + c.sender.todo.length)

def Below : ℕ × ℕ × ℕ × ℕ × ℕ × ℕ → ℕ × ℕ × ℕ × ℕ × ℕ × ℕ → Prop :=
  Prod.Lex (· < ·) (Prod.Lex (· < ·) (Prod.Lex (· < ·) (Prod.Lex (· < ·) (Prod.Lex (· < ·) (· < ·)))))

lemma below_wf : WellFounded Below :=
  wellFounded_lt.prod_lex (wellFounded_lt.prod_lex (wellFounded_lt.prod_lex (wellFounded_lt.prod_lex
    (wellFounded_lt.prod_lex wellFounded_lt))))

lemma below_iff (a b c d e f a' b' c' d' e' f' : ℕ) :
    Below (a, b, c, d, e, f) (a', b', c', d', e', f') ↔ a < a' ∨ a = a' ∧
    (b < b' ∨ b = b' ∧ (c < c' ∨ c = c' ∧
      (d < d' ∨ d = d' ∧ (e < e' ∨ e = e' ∧ f < f')))) := by
  simp only [Below, Prod.lex_def]

lemma senderPerforms_below (t : Transfer σ τ) (hstep : c.senderPerforms = some d) :
    Below (t.rank d) (t.rank c) := by
  rw [rank, rank, below_iff]
  rcases senderPerforms_cases hstep with ⟨e, todo, htodo, rfl⟩ | ⟨w, todo, htodo, hne, rfl⟩
  · right
    refine ⟨rfl, .inl ?_⟩
    simp [htodo, SendData.sends]
  · obtain ⟨hphase, htodo', hlink, -⟩ := perform_fields ({ c.sender with todo := todo } : Sender σ) w
    have hsends : SendData.sends (w :: todo) = SendData.sends todo := by
      cases w with
      | send e => exact absurd rfl (hne e)
      | _ => simp [SendData.sends]
    rw [hphase, htodo', hlink, htodo, hsends, List.length_cons]
    exact .inr ⟨rfl, .inr ⟨rfl, .inr ⟨rfl, .inr ⟨rfl, .inr ⟨rfl, by dsimp only; omega⟩⟩⟩⟩⟩

lemma receiverPerforms_below (t : Transfer σ τ) (hstep : c.receiverPerforms t.setup = some d) :
    Below (t.rank d) (t.rank c) := by
  obtain ⟨w, todo, htodo, hdtodo, -, hlink, hphase, hstodo, -⟩ := receiverPerforms_cases [] hstep
  rw [rank, rank, below_iff, htodo, hdtodo, hlink, hphase, hstodo, List.length_cons]
  omega

lemma recv_shorter {l l' : Link} {r : Except SessionError Fpdu} (h : l.recv = some (r, l')) :
    l'.incoming.length < l.incoming.length ∨
      l'.incoming = l.incoming ∧ l'.pending.length < l.pending.length := by
  cases hp : l.pending with
  | cons f fs =>
    rw [Link.recv_pending hp] at h
    obtain ⟨-, rfl⟩ := Prod.mk.inj (Option.some.inj h)
    exact .inr ⟨rfl, by simp⟩
  | nil =>
    cases hi : l.incoming with
    | nil =>
      simp only [Link.recv, Link.poll, hp, hi] at h
      cases h
    | cons e es =>
      left
      cases hopen : opened l.crc e with
      | ok fs =>
        obtain ⟨f, gs, rfl⟩ := Link.opened_cons hopen
        rw [(Link.recv_ok hp hi hopen).1] at h
        obtain ⟨-, rfl⟩ := Prod.mk.inj (Option.some.inj h)
        simp
      | error err =>
        obtain ⟨l'', hl, hinc, -⟩ := Link.recv_error hp hi hopen
        rw [hl] at h
        obtain ⟨-, rfl⟩ := Prod.mk.inj (Option.some.inj h)
        rw [hinc]
        simp

lemma receiverTakes_below (t : Transfer σ τ) (hstep : c.receiverTakes t.setup = some d) :
    Below (t.rank d) (t.rank c) := by
  obtain ⟨r, link, act, -, hrecv, -, rfl⟩ := receiverTakes_cases hstep
  rw [rank, rank, below_iff]
  rcases recv_shorter hrecv with hlt | ⟨heq, hlt⟩
  · exact .inr ⟨rfl, .inr ⟨rfl, .inl hlt⟩⟩
  · exact .inr ⟨rfl, .inr ⟨rfl, .inr ⟨congrArg List.length heq, .inl hlt⟩⟩⟩

lemma Inv.receives_below (h : t.Inv total base H c written)
    (hstep : c.senderPolls t.setup = some d ∨ c.senderWaits t.setup = some d) :
    Below (t.rank d) (t.rank c) := by
  have hprogress := h.progress
  cases hphase : c.sender.phase with
  | looping s =>
    rw [hphase] at hprogress
    obtain ⟨bs, ws, hload, -⟩ := hprogress
    obtain ⟨n, es, -, htodo, hin, rfl⟩ := h.wired.senderReceives t.agree.crc hphase hload.machine hstep
    have hleft : t.turnsLeft (.looping (Session.acked s n)) = t.turnsLeft (.looping s) := rfl
    rw [rank, rank, below_iff]
    rw [hphase, htodo, hin]
    refine .inr ⟨hleft, .inr ⟨rfl, .inr ⟨rfl, .inr ⟨rfl, .inr ⟨rfl, ?_⟩⟩⟩⟩⟩
    simp only [List.length_cons, List.length_nil]
    omega
  | ended m res =>
    rcases hstep with hstep | hstep
    · simp [senderPolls, hphase] at hstep
    · simp only [senderWaits, hphase, waits, Bool.false_eq_true, if_false] at hstep
      split at hstep <;> cases hstep
  | interrupting s =>
    rw [hphase] at hprogress
    exact hprogress.elim
  | failed e =>
    rw [hphase] at hprogress
    exact hprogress.elim

lemma Inv.advances_below (h : t.Inv total base H c written) (hstep : c.senderAdvances t.setup = some d) :
    Below (t.rank d) (t.rank c) := by
  obtain ⟨s, htodo, hphase, -, rfl⟩ := senderAdvances_cases hstep
  have hprogress := h.progress
  rw [hphase] at hprogress
  obtain ⟨bs, ws, hload, hready, -⟩ := hprogress
  rw [rank, rank, below_iff, hphase]
  left
  cases ha : t.articles[s.articles]? with
  | none =>
    obtain ⟨es, m, hrun, -⟩ := endData_spec t.setup.ops t.roomy t.agree.crc hload
    have hadvance :
        (advance t.setup.src t.setup.sp s).Returns (es.map .send) (.ended m (result s .completed)) := by
      rw [advance, t.yields.done hready.source ha]
      exact hrun
    rw [become_returns hadvance]
    simp only [turnsLeft]
    omega
  | some a =>
    obtain ⟨rest, hnext, -⟩ := t.yields.next hready.source ha
    obtain ⟨effects, s', bs', ws', hrun, -, hturn, -⟩ :=
      sendArticle_spec t.setup.src t.setup.ops t.roomy t.agree.crc hload a rest
    have hadvance : (advance t.setup.src t.setup.sp s).Returns effects (.looping s') := by
      rw [advance, hnext, ← List.append_nil effects]
      exact hrun.bind (Act.returns_pure _)
    obtain ⟨hk, -⟩ := List.getElem?_eq_some_iff.mp ha
    rw [become_returns hadvance]
    simp only [turnsLeft, hturn.articles]
    omega

lemma Inv.below (h : t.Inv total base H c written) (hstep : Session.Step t.setup c d) :
    Below (t.rank d) (t.rank c) := by
  obtain ⟨m, hm⟩ := hstep
  cases m with
  | senderPerforms => exact senderPerforms_below t hm
  | receiverPerforms => exact receiverPerforms_below t hm
  | receiverTakes => exact receiverTakes_below t hm
  | senderPolls => exact h.receives_below (.inl hm)
  | senderWaits => exact h.receives_below (.inr hm)
  | senderAdvances => exact h.advances_below hm

end Termination

section Liveness

structure Delivered (t : Transfer σ τ) (c : Session σ τ) : Prop where
  idle : c.sender.todo = [] ∧ c.receiver.todo = []
  ended : ∃ sm rm res, c.sender.phase = .ended sm res ∧ c.receiver.phase = .ended rm res ∧
    res.ending = .completed ∧
    res.articles = t.articles.length
  sink : t.Holds c.receiver.sink t.articles
  recorded : c.receiver.recorded.map Checkpoint.key = c.sender.recorded.map Checkpoint.key

lemma recv_some {l : Link} (h : l.pending ≠ [] ∨ l.incoming ≠ []) : ∃ r l', l.recv = some (r, l') := by
  cases hp : l.pending with
  | cons f fs => exact ⟨_, _, Link.recv_pending hp⟩
  | nil =>
    cases hi : l.incoming with
    | nil => simp [hp, hi] at h
    | cons e es =>
      cases hopen : opened l.crc e with
      | ok fs =>
        obtain ⟨f, gs, rfl⟩ := Link.opened_cons hopen
        exact ⟨_, _, (Link.recv_ok hp hi hopen).1⟩
      | error err =>
        obtain ⟨l', hl, -⟩ := Link.recv_error hp hi hopen
        exact ⟨_, l', hl⟩

lemma outlook_quiet (hw : c.Wired t.setup written) (hs : c.sender.todo = []) (hr : c.receiver.todo = [])
    (hstuck : c.receiverTakes t.setup = none) :
    c.outlook t.setup written =
    ⟨c.receiver.phase, c.receiver.store, c.receiver.recorded, c.receiver.sink, written,
      c.sender.link.incoming⟩ := by
  have hsettled :
      c.settled t.setup written = ⟨c.receiver.phase, c.receiver.store,
      c.receiver.recorded, c.receiver.sink, written, c.sender.link.incoming⟩ := by
    simp only [settled, hr]
    rfl
  have hsteady := hw.steady
  rw [hsettled] at hsteady
  rw [outlook, hsettled]
  rcases hsteady with ⟨s, hphase, -⟩ | ⟨m, res, hphase⟩ | hfailed
  · have hphase' : c.receiver.phase = .receiving s := hphase
    by_cases hlink : c.receiver.link.pending ≠ [] ∨ c.receiver.link.incoming ≠ []
    · obtain ⟨r, l', hrecv⟩ := recv_some hlink
      simp only [receiverTakes, hr, hrecv, hphase'] at hstuck
      cases r <;> cases hstuck
    · simp only [not_or, not_not] at hlink
      simp only [arriving, hs, hlink.1, hlink.2]
      rfl
  · rw [takeAll_ended hphase, flow_ended hphase]
  · rw [takeAll_failed hfailed, flow_failed hfailed]

lemma senderPerforms_some {w : Effect} {todo : List Effect} (h : c.sender.todo = w :: todo) :
    ∃ d, c.senderPerforms = some d := by
  cases w <;> simp [Session.senderPerforms, h]

lemma receiverPerforms_some {u : Setup σ τ} {w : Effect} {todo : List Effect}
    (h : c.receiver.todo = w :: todo) :
    ∃ d, c.receiverPerforms u = some d := by
  cases w <;> simp [Session.receiverPerforms, h]

lemma Inv.live (h : t.Inv total base True c written) :
    t.Delivered c ∨ ∃ d, Session.Step t.setup c d := by
  cases hs : c.sender.todo with
  | cons w todo =>
    obtain ⟨d, hd⟩ := senderPerforms_some hs
    exact .inr ⟨d, .senderPerforms, hd⟩
  | nil =>
    cases hr : c.receiver.todo with
    | cons w todo =>
      obtain ⟨d, hd⟩ := receiverPerforms_some (u := t.setup) hr
      exact .inr ⟨d, .receiverPerforms, hd⟩
    | nil =>
      cases htakes : c.receiverTakes t.setup with
      | some d => exact .inr ⟨d, .receiverTakes, htakes⟩
      | none =>
        have hquiet := outlook_quiet h.wired hs hr htakes
        have hprogress := h.progress
        cases hphase : c.sender.phase with
        | looping s =>
          right
          rw [hphase] at hprogress
          obtain ⟨bs, ws, hload, hready, hidle, hrel⟩ := hprogress
          obtain ⟨habreast, -⟩ := hrel.resolve_left (fun hf => hf.2.1 trivial)
          cases hfull : windowFull t.setup.sp s with
          | false =>
            exact ⟨_, .senderAdvances, by
              simp only [Session.step, Session.senderAdvances, hs, hphase, hfull]; rfl⟩
          | true =>
            -- the acknowledgements that the sender waits for have arrived
            simp only [windowFull, Bool.and_eq_true, decide_eq_true_eq] at hfull
            have hacks := habreast.acks
            obtain ⟨ns, -, hdata, htaken⟩ :=
              takeAll_acks t.setup.ops (p := t.setup.rp) h.wired.outlook_steady
              (fun f hf => .inl (hload.data f hf))
            rw [deliverAll_acks, htaken, hdata hload.data, hquiet, if_pos hfull.1, List.map_nil,
              List.append_nil] at hacks
            have hne : c.sender.link.incoming ≠ [] := by
              intro hnil
              have hlen := congrArg List.length (hnil.symm.trans hacks)
              rw [List.length_map, List.length_nil] at hlen
              omega
            obtain ⟨r, l', hrecv⟩ := recv_some (.inr hne)
            have hwaits : waits t.setup.sp c.sender.phase = true := by
              simp only [hphase, waits, windowFull, Bool.and_eq_true, decide_eq_true_eq]
              exact hfull
            obtain ⟨act, hact⟩ :
                ∃ act, react t.setup.src t.setup.sp c.sender.store c.sender.phase r = some act := by
              rw [hphase]
              cases r <;> exact ⟨_, rfl⟩
            obtain ⟨d, hd⟩ : ∃ d, c.senderWaits t.setup = some d := by
              simp only [Session.senderWaits, hs, hrecv, hwaits, if_true, hact, Option.map_some]
              exact ⟨_, rfl⟩
            exact ⟨d, .senderWaits, hd⟩
        | ended m res =>
          left
          rw [hphase] at hprogress
          obtain ⟨hfin, -⟩ := hprogress.resolve_left (fun hf => hf.2.1 trivial)
          rw [hquiet] at hfin
          obtain ⟨m', hended⟩ := hfin.ended
          refine ⟨⟨hs, hr⟩, ⟨m, m', res, hphase, hended, hfin.completed, hfin.all⟩, ?_, ?_⟩
          · have hsink := hfin.sink
            rw [hfin.written] at hsink
            exact hsink
          · have hrec := hfin.recorded
            simp only [marks, hs, records, List.filterMap_nil, List.append_nil] at hrec
            exact hrec
        | interrupting s =>
          rw [hphase] at hprogress
          exact hprogress.elim
        | failed e =>
          rw [hphase] at hprogress
          exact hprogress.elim

end Liveness

section Sessions

structure Starts (t : Transfer σ τ) (sm rm : Machine) (source : σ) (sink : τ)
    (scp rcp : Checkpoint) : Prop where
  machines : sm.state = .tde02A ∧ rm.state = .tde02B ∨ sm.state = .tdl02B ∧ rm.state = .tdl02A
  source : ∃ k, t.At source k
  marks : t.setup.src.Marks t.At (positionOf scp)
  same : scp.key = rcp.key
  within : scp.articles ≤ t.articles.length
  sink : t.Holds sink (t.articles.take scp.articles)

variable {sm rm : Machine} {source : σ} {sink : τ} {scp rcp : Checkpoint}

def firstCompressor (p : DataParams) : Option Compressor :=
  if p.compression = .none then none else some (.new p.compression (max p.maxArticle 1))

def scheduleFrom (t : Transfer σ τ) (cp : Checkpoint) : List (Bool × Bytes) :=
  schedule t.setup.sp (firstCompressor t.setup.sp) 0 (t.articles.drop cp.articles)

lemma start_mirrors (t : Transfer σ τ) :
    Mirrors t.setup.rp (firstCompressor t.setup.sp)
      (if t.setup.rp.compression = .none then none else some (.new (max t.setup.rp.maxArticle 1))) := by
  rw [firstCompressor, t.agree.compression, t.agree.maxArticle]
  split
  · trivial
  · refine ⟨rfl, ?_, ?_⟩
    · simp [Decompressor.new, t.agree.maxArticle]
    · simp [Decompressor.new, t.agree.maxArticle]

lemma Starts.inv (h : t.Starts sm rm source sink scp rcp) (hnum : scp.sync < 2 ^ 24)
    (senderStore receiverStore : MemoryCheckpoints) :
    t.Inv (scp.dataBytes + bytes (t.articles.drop scp.articles)) scp.sync
      (Admissible t.setup.rp t.setup.sp (firstCompressor t.setup.sp) 0 scp.sync
        (t.articles.drop scp.articles))
      (Session.start t.setup sm rm source sink senderStore receiverStore scp rcp)
      (t.articles.take scp.articles) := by
  obtain ⟨k, hk⟩ := h.source
  obtain ⟨hsync, hbytes, harticles⟩ :
      scp.sync = rcp.sync ∧ scp.dataBytes = rcp.dataBytes ∧ scp.articles = rcp.articles := by
    simpa [Checkpoint.key] using h.same
  have hsm : sm.state = .tde02A ∨ sm.state = .tdl02B := h.machines.imp And.left And.left
  have hrm : rm.state = .tde02B ∨ rm.state = .tdl02A := h.machines.imp And.right And.right
  have hroom := t.roomy.room
  have hbounded := t.roomy.bounded
  have hmax : (ArticlePacker.new t.setup.sp.peerId (t.setup.sp.maxEntity - t.setup.sp.crcCost)
      t.setup.sp.multiArticle).maxDtfLen = t.setup.sp.maxEntity - t.setup.sp.crcCost := by
    simp only [ArticlePacker.new, headerLen]
    omega
  have hload : Loaded t.setup.sp (SendData.start t.setup.src t.setup.sp sm source scp) [] [] := by
    refine ⟨⟨rfl, rfl, rfl, rfl, by simp⟩, by
      simp, ⟨rfl, rfl, by simp, by simp, by simp, ?_, ?_⟩, hmax, fun _ => rfl, hsm⟩
    · show headerLen < (ArticlePacker.new _ _ _).maxDtfLen
      rw [hmax]
      simp only [headerLen]
      omega
    · show (ArticlePacker.new _ _ _).maxDtfLen ≤ maxFpduLen
      rw [hmax]
      simp only [maxFpduLen]
      omega
  have hidle :
      (Session.start t.setup sm rm source sink senderStore receiverStore scp rcp).outlook t.setup
      (t.articles.take scp.articles) = ⟨.receiving (ReceiveData.start t.setup.rp rm rcp),
        receiverStore, [], sink, t.articles.take scp.articles, []⟩ := rfl
  refine ⟨⟨.inl ⟨_, rfl, hrm⟩, .inr (by simp [Session.start]),
    by simp [Session.start, arriving, SendData.sends], by simp [Session.start], rfl, rfl, rfl,
    ⟨[], by simp, rfl⟩⟩, h.sink, by simp [Transfer.marks, Session.start, records], ?_, ?_⟩
  · refine ⟨rfl, ?_⟩
    intro s hs
    obtain rfl := SendPhase.looping.inj hs
    exact (Nat.mod_eq_of_lt (show scp.sync < 2 ^ 32 by omega)).symm
  rw [hidle]
  refine ⟨[], [], hload, ⟨⟨h.within, fun _ => rfl⟩, t.yields.rewind_marks h.marks hk, rfl, ?_⟩,
    .inl ⟨_, rfl, rfl, hrm⟩,
    .inr ⟨⟨⟨_, rfl, rfl, hrm, hbytes.symm, harticles.symm, hsync.symm, start_mirrors t⟩, h.sink,
      rfl, rfl, fun cp hcp => absurd hcp List.not_mem_nil, ?_, .nil, fun n hn =>
      absurd hn List.not_mem_nil, hnum, rfl⟩, Iff.rfl⟩⟩
  · simp only [SendData.start]
    split <;> simp_all
  · exact (ite_self _).symm

lemma Inv.inevitable (h : t.Inv total base True c written) :
    Inevitable (Session.Step t.setup) t.Delivered c := by
  refine Inevitable.of_measure below_wf t.rank (fun c => ∃ written, t.Inv total base True c written)
    ?_ ?_ ⟨written, h⟩
  · rintro a b ⟨w, ha⟩ hstep
    exact ⟨ha.step hstep, ha.below hstep⟩
  · rintro a ⟨w, ha⟩
    exact ha.live

lemma Starts.delivered (h : t.Starts sm rm source sink scp rcp) (hnum : scp.sync < 2 ^ 24)
    (hadmissible : Admissible t.setup.rp t.setup.sp (firstCompressor t.setup.sp) 0 scp.sync
      (t.articles.drop scp.articles))
    (senderStore receiverStore : MemoryCheckpoints) :
    Inevitable (Session.Step t.setup) t.Delivered
      (Session.start t.setup sm rm source sink senderStore receiverStore scp rcp) := by
  have hinv := h.inv hnum senderStore receiverStore
  rw [eq_true hadmissible] at hinv
  exact hinv.inevitable

/-- Both ends have completed, and the sink has the articles. -/
def Completed (t : Transfer σ τ) (c : Session σ τ) : Prop :=
  (∃ sm rm sres rres, c.sender.phase = .ended sm sres ∧ c.receiver.phase = .ended rm rres ∧
    sres.ending = .completed ∧ rres.ending = .completed) ∧ t.Holds c.receiver.sink t.articles

lemma Delivered.completed (h : t.Delivered c) : t.Completed c := by
  obtain ⟨sm, rm, res, hs, hr, hres, -⟩ := h.ended
  exact ⟨⟨sm, rm, res, res, hs, hr, hres, hres⟩, h.sink⟩

lemma Inv.reaches (h : t.Inv total base H c written)
    (hrun : Relation.ReflTransGen (Session.Step t.setup) c d) :
    ∃ written', t.Inv total base H d written' := by
  induction hrun with
  | refl => exact ⟨written, h⟩
  | tail _ hstep ih =>
    obtain ⟨w, hw⟩ := ih
    exact hw.step hstep

lemma Inv.admissible_of_completed (h : t.Inv total base H c written) (hc : t.Completed c) : H := by
  obtain ⟨⟨sm, rm, sres, rres, hs, hr, -, -⟩, -⟩ := hc
  have hprogress := h.progress
  rw [hs] at hprogress
  rcases hprogress with ⟨hfailed, -⟩ | ⟨-, hH⟩
  · have hphase : (c.settled t.setup written).phase = .ended rm rres := by
      rw [settled, ← hr]
      generalize hx :
        (⟨c.receiver.phase, c.receiver.store, c.receiver.recorded, c.receiver.sink, written,
        c.sender.link.incoming⟩ : Reception τ) = x
      have hsame := performAll_phase t.setup.ops x c.receiver.todo x.phase
      have hphase := congrArg Reception.phase hsame
      rw [← hx] at hphase ⊢
      exact hphase
    rw [outlook, takeAll_ended hphase, flow_ended hphase] at hfailed
    obtain ⟨e, he⟩ := hfailed
    rw [hphase] at he
    cases he
  · exact hH

lemma Starts.completes_iff (h : t.Starts sm rm source sink scp rcp) (hnum : scp.sync < 2 ^ 24)
    (senderStore receiverStore : MemoryCheckpoints) :
    Inevitable (Session.Step t.setup) t.Completed
        (Session.start t.setup sm rm source sink senderStore receiverStore scp rcp) ↔
      Admissible t.setup.rp t.setup.sp (firstCompressor t.setup.sp) 0 scp.sync
      (t.articles.drop scp.articles) := by
  constructor
  · intro hinev
    obtain ⟨d, hrun, hd⟩ := hinev.reaches
    obtain ⟨w, hw⟩ := (h.inv hnum senderStore receiverStore).reaches hrun
    exact hw.admissible_of_completed hd
  · intro hadmissible
    exact (h.delivered hnum hadmissible senderStore receiverStore).mono (fun c hc => hc.completed)

lemma admissible_uncompressed (hnone : t.setup.sp.compression = .none)
    (hlen : ∀ a ∈ t.articles, a.length ≤ t.setup.sp.maxArticle ∨ t.setup.sp.maxArticle = 0)
    (hsync : scp.sync + points (t.scheduleFrom scp) < 2 ^ 24) :
    Admissible t.setup.rp t.setup.sp (firstCompressor t.setup.sp) 0 scp.sync
    (t.articles.drop scp.articles) := by
  refine ⟨?_, ?_, hsync⟩
  · intro hsome
    simp [firstCompressor, hnone] at hsome
  · intro y hy
    have hfirst : firstCompressor t.setup.sp = none := by simp [firstCompressor, hnone]
    have hmem : y.2 ∈ (schedule t.setup.sp none 0 (t.articles.drop scp.articles)).map Prod.snd :=
      List.mem_map_of_mem (hfirst ▸ hy)
    rw [schedule_none_wires] at hmem
    rw [t.agree.maxArticle]
    exact .inr ((hlen y.2 (List.mem_of_mem_drop hmem)).symm)

/-- A data phase without compression, interruption and resynchronisation delivers the articles:
every run comes to the end of both ends, with the same results and the same checkpoints, and the
articles in the sink. -/
theorem uncompressed_delivered (t : Transfer σ τ) (hnone : t.setup.sp.compression = .none)
    (hlen : ∀ a ∈ t.articles, a.length ≤ t.setup.sp.maxArticle ∨ t.setup.sp.maxArticle = 0)
    (h : t.Starts sm rm source sink scp rcp) (hsync : scp.sync + points (t.scheduleFrom scp) < 2 ^ 24)
    (senderStore receiverStore : MemoryCheckpoints) :
    Inevitable (Session.Step t.setup) t.Delivered
      (Session.start t.setup sm rm source sink senderStore receiverStore scp rcp) :=
  h.delivered (by omega) (admissible_uncompressed hnone hlen hsync) senderStore receiverStore

/-- A data phase with compression completes exactly when the receiver has room to decompress the
articles, no article is segmented that has become longer than the limit, and the synchronisation
points can be numbered. -/
theorem compressed_completes_iff (t : Transfer σ τ) (hsome : t.setup.sp.compression ≠ .none)
    (hlen : ∀ a ∈ t.articles, a.length ≤ t.setup.sp.maxArticle ∨ t.setup.sp.maxArticle = 0)
    (h : t.Starts sm rm source sink scp rcp) (hnum : scp.sync < 2 ^ 24)
    (senderStore receiverStore : MemoryCheckpoints) :
    Inevitable (Session.Step t.setup) t.Completed
        (Session.start t.setup sm rm source sink senderStore receiverStore scp rcp) ↔
      (t.setup.sp.maxArticle = 0 → ∀ a ∈ t.articles.drop scp.articles, a.length ≤ 1) ∧
        (∀ y ∈ t.scheduleFrom scp, y.2.length ≤ maxSingle t.setup.sp ∨ t.setup.sp.maxArticle = 0 ∨
          y.2.length ≤ t.setup.sp.maxArticle) ∧
        scp.sync + points (t.scheduleFrom scp) < 2 ^ 24 := by
  rw [h.completes_iff hnum]
  have hfirst : (firstCompressor t.setup.sp).isSome = true := by simp [firstCompressor, hsome]
  refine and_congr ?_ (and_congr ?_ Iff.rfl)
  · rw [hfirst, t.agree.maxArticle]
    constructor
    · intro hroom h0 a ha
      simpa [h0] using hroom rfl a ha
    · intro hone _ a ha
      rcases hlen a (List.mem_of_mem_drop ha) with hle | h0
      · omega
      · have := hone h0 a ha
        omega
  · rw [t.agree.maxArticle]
    rfl

end Sessions

section Samples

/-- Check bytes, several articles in an FPDU, a synchronisation point every kilobyte
and a window of one. -/
def sampleParams (compression : Compression) (crc : Bool) (maxEntity maxArticle : ℕ) : DataParams :=
  ⟨1, ⟨1, 1⟩, false, compression, crc, maxEntity, true, maxArticle, .requester⟩

def sampleTransfer (p : DataParams) (articles : List Bytes) (hp : p.Roomy) :
    Transfer VecSource VecSink where
  setup := ⟨VecSource.ops, VecSink.ops, p, p⟩
  articles := articles
  At := fun s k => s.articles = articles ∧ s.index = k
  Holds := fun t written => t.articles = written
  yields := VecSource.ops_yields articles
  keeps := VecSink.ops_keeps
  roomy := hp
  agree := ⟨rfl, rfl, rfl, rfl⟩

lemma sampleTransfer_starts (p : DataParams) (articles : List Bytes) (hp : p.Roomy) :
    (sampleTransfer p articles hp).Starts ⟨.requester, .tde02A⟩ ⟨.server, .tde02B⟩
    (VecSource.new articles) VecSink.new
      .default .default where
  machines := .inl ⟨rfl, rfl⟩
  source := ⟨0, rfl, rfl⟩
  marks := .inl rfl
  same := rfl
  within := Nat.zero_le _
  sink := rfl

def sampleArticles : List Bytes := [List.replicate 1000 7, [], List.replicate 100 8]

lemma sample_roomy : (sampleParams .none true 13 0).Roomy := ⟨by decide, by decide⟩

theorem uncompressed_delivered_sample :
    points ((sampleTransfer (sampleParams .none true 13 0) sampleArticles sample_roomy).scheduleFrom
      .default) = 1 ∧
    Inevitable (Session.Step
      (sampleTransfer (sampleParams .none true 13 0) sampleArticles sample_roomy).setup)
      (sampleTransfer (sampleParams .none true 13 0) sampleArticles sample_roomy).Delivered
      (Session.start (sampleTransfer (sampleParams .none true 13 0) sampleArticles sample_roomy).setup
        ⟨.requester, .tde02A⟩ ⟨.server, .tde02B⟩ (VecSource.new sampleArticles) VecSink.new .empty .empty
        .default .default) :=
  ⟨by decide +kernel,
    uncompressed_delivered (sampleTransfer (sampleParams .none true 13 0) sampleArticles sample_roomy) rfl
    (fun _ _ => .inr rfl) (sampleTransfer_starts _ _ _) (by decide +kernel) .empty .empty⟩

lemma short_roomy : (sampleParams .horizontal true 64 20).Roomy := ⟨by decide, by decide⟩

theorem compressed_completes_short :
    Inevitable
      (Session.Step
        (sampleTransfer (sampleParams .horizontal true 64 20) [[1, 2, 2, 2], [3]] short_roomy).setup)
      (sampleTransfer (sampleParams .horizontal true 64 20) [[1, 2, 2, 2], [3]] short_roomy).Completed
      (Session.start
        (sampleTransfer (sampleParams .horizontal true 64 20) [[1, 2, 2, 2], [3]] short_roomy).setup
        ⟨.requester, .tde02A⟩ ⟨.server, .tde02B⟩ (VecSource.new [[1, 2, 2, 2], [3]]) VecSink.new
        .empty .empty .default .default) :=
  (compressed_completes_iff (sampleTransfer (sampleParams .horizontal true 64 20)
    [[1, 2, 2, 2], [3]] short_roomy) (by decide) (by decide) (sampleTransfer_starts _ _ _) (by decide)
    .empty .empty).mpr ⟨by decide, by decide +kernel, by decide +kernel⟩

lemma small_roomy : (sampleParams .horizontal false 11 6).Roomy := ⟨by decide, by decide⟩

/-- Six bytes are seven on the link, in two pieces, and the receiver takes no more than six. -/
theorem compressed_refused :
    (∀ a ∈ [[1, 2, 3, 4, 5, 6]], a.length ≤ (sampleParams .horizontal false 11 6).maxArticle) ∧
    ¬ Inevitable
      (Session.Step
        (sampleTransfer (sampleParams .horizontal false 11 6) [[1, 2, 3, 4, 5, 6]] small_roomy).setup)
      (sampleTransfer (sampleParams .horizontal false 11 6) [[1, 2, 3, 4, 5, 6]] small_roomy).Completed
      (Session.start
        (sampleTransfer (sampleParams .horizontal false 11 6) [[1, 2, 3, 4, 5, 6]] small_roomy).setup
        ⟨.requester, .tde02A⟩ ⟨.server, .tde02B⟩ (VecSource.new [[1, 2, 3, 4, 5, 6]]) VecSink.new
        .empty .empty .default .default) := by
  refine ⟨by decide, ?_⟩
  rw [(sampleTransfer_starts _ _ small_roomy).completes_iff (by decide)]
  intro hadmissible
  have hpass := hadmissible.2.1 (false, [6, 1, 2, 3, 4, 5, 6]) (by decide +kernel)
  revert hpass
  show ¬ (7 ≤ 5 ∨ 6 = 0 ∨ 7 ≤ 6)
  decide

end Samples

end Transfer

end PesitWizard.Io
