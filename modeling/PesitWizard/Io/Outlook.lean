import PesitWizard.Io.Turn

/-! What the receiver of a session will be once it has taken everything that has been sent: no move of
the receiver changes it. -/

namespace PesitWizard.Io

open PesitWizard.Core Library

namespace Link

open Reception

lemma recv_pending {l : Link} {f : Fpdu} {fs : List Fpdu} (h : l.pending = f :: fs) :
    l.recv = some (.ok f, { l with pending := fs }) := by
  simp only [recv, poll, h]

lemma recv_ok {l : Link} (hp : l.pending = []) {e : Bytes} {es : List Bytes}
    (hi : l.incoming = e :: es) {f : Fpdu} {fs : List Fpdu} (h : opened l.crc e = .ok (f :: fs)) :
    l.recv = some (.ok f, ⟨l.crc, es, fs⟩) ∧ l.poll = some (.ok (some f), ⟨l.crc, es, fs⟩) := by
  have hpoll : l.poll = some (.ok (some f), ⟨l.crc, es, fs⟩) := by
    simp only [opened] at h
    cases hparts : Frame.splitEntity e l.crc with
    | error d => simp [hparts] at h
    | ok parts =>
      simp only [hparts] at h
      split at h
      · cases h
      · cases h
      · rename_i f' fs' hdec
        obtain ⟨rfl, rfl⟩ := List.cons.inj (Except.ok.inj h)
        simp only [poll, hp, hi, queueEntity, hparts, hdec, List.nil_append]
  refine ⟨?_, hpoll⟩
  simp only [recv, hp, hi, hpoll]

lemma recv_error {l : Link} (hp : l.pending = []) {e : Bytes} {es : List Bytes}
    (hi : l.incoming = e :: es) {err : SessionError} (h : opened l.crc e = .error err) :
    ∃ l', l.recv = some (.error err, l') ∧ l'.incoming = es ∧ l'.crc = l.crc := by
  simp only [opened] at h
  split at h
  · rename_i d hd
    cases h
    refine ⟨⟨l.crc, es, l.pending⟩, ?_, rfl, rfl⟩
    simp only [recv, poll, hp, hi, queueEntity, hd]
  · rename_i parts hparts
    split at h
    · rename_i fs d hdec
      cases h
      refine ⟨⟨l.crc, es, fs⟩, ?_, rfl, rfl⟩
      simp only [recv, poll, hp, hi, queueEntity, hparts, hdec, List.nil_append]
    · rename_i hdec
      cases h
      refine ⟨⟨l.crc, es, []⟩, ?_, rfl, rfl⟩
      simp only [recv, poll, hp, hi, queueEntity, hparts, hdec, List.nil_append]
    · cases h

lemma opened_cons {crc : Bool} {e : Bytes} {fs : List Fpdu} (h : opened crc e = .ok fs) :
    ∃ f gs, fs = f :: gs := by
  simp only [opened] at h
  split at h
  · cases h
  · split at h
    · cases h
    · cases h
    · exact ⟨_, _, (Except.ok.inj h).symm⟩

end Link

namespace Session

variable {σ τ : Type} (u : Setup σ τ)

open Reception SendData

def settled (c : Session σ τ) (written : List Bytes) : Reception τ :=
  performAll u.ops ⟨c.receiver.phase, c.receiver.store, c.receiver.recorded, c.receiver.sink, written,
    c.sender.link.incoming⟩ c.receiver.todo

def arriving (c : Session σ τ) : List Bytes := c.receiver.link.incoming ++ sends c.sender.todo

def outlook (c : Session σ τ) (written : List Bytes) : Reception τ :=
  flow u.ops u.rp c.arriving [] ((c.settled u written).takeAll u.ops u.rp c.receiver.link.pending)

structure Wired (c : Session σ τ) (written : List Bytes) : Prop where
  steady : (c.settled u written).Steady
  pending : (c.settled u written).Failed ∨ ∀ f ∈ c.receiver.link.pending, Plain f
  legible : ∀ e ∈ c.arriving, Legible u.rp.crc e
  keeps : ∀ pos, Effect.truncate pos ∉ c.receiver.todo
  receiverCrc : c.receiver.link.crc = u.rp.crc
  senderCrc : c.sender.link.crc = u.sp.crc
  senderPending : c.sender.link.pending = []
  acks : ∃ ns : List ℕ, (∀ n ∈ ns, n < 2 ^ 24) ∧ (c.outlook u written).acks = ns.map (ackEntity u.rp)

variable {u} {c d : Session σ τ} {written : List Bytes}

lemma Wired.outlook_steady (h : c.Wired u written) : (c.outlook u written).Steady := by
  refine flow_steady ?_ h.legible (by simp)
  rcases h.pending with hf | hp
  · rw [takeAll_failed hf]
    exact h.steady
  · exact takeAll_steady h.steady hp

section SenderPerforms

lemma senderPerforms_cases (h : c.senderPerforms = some d) :
    (∃ e todo, c.sender.todo = .send e :: todo ∧
      d = ⟨{ c.sender with todo := todo }, { c.receiver with link := c.receiver.link.deliver e }⟩) ∨
    ∃ w todo, c.sender.todo = w :: todo ∧ (∀ e, w ≠ .send e) ∧
      d = { c with sender := ({ c.sender with todo := todo } : Sender σ).perform w } := by
  simp only [senderPerforms] at h
  split at h
  · cases h
  · rename_i e todo htodo
    exact .inl ⟨e, todo, htodo, (Option.some.inj h).symm⟩
  · rename_i w todo hne htodo
    exact .inr ⟨w, todo, htodo, hne, (Option.some.inj h).symm⟩

lemma perform_fields (s : Sender σ) (w : Effect) :
    (s.perform w).phase = s.phase ∧ (s.perform w).todo = s.todo ∧
    (s.perform w).link = s.link ∧ (s.perform w).recorded = s.recorded ++ records [w] := by
  cases w <;> simp [Sender.perform, records]

variable (written) in
lemma senderPerforms_outlook (h : c.senderPerforms = some d) :
    d.receiver.phase = c.receiver.phase ∧ d.receiver.todo = c.receiver.todo ∧
    d.receiver.sink = c.receiver.sink ∧
      d.receiver.link.pending = c.receiver.link.pending ∧ d.receiver.link.crc = c.receiver.link.crc ∧
      d.sender.phase = c.sender.phase ∧ d.sender.link = c.sender.link ∧ d.arriving = c.arriving ∧
      d.settled u written = c.settled u written ∧
      d.sender.recorded ++ records d.sender.todo = c.sender.recorded ++ records c.sender.todo := by
  rcases senderPerforms_cases h with ⟨e, todo, htodo, rfl⟩ | ⟨w, todo, htodo, hne, rfl⟩
  · refine ⟨rfl, rfl, rfl, rfl, rfl, rfl, rfl, ?_, rfl, ?_⟩
    · simp [arriving, htodo, Link.deliver, sends]
    · simp [htodo, records]
  · obtain ⟨hphase, htodo', hlink, hrec⟩ := perform_fields ({ c.sender with todo := todo } : Sender σ) w
    have hsends : sends (w :: todo) = sends todo := by
      cases w with
      | send e => exact absurd rfl (hne e)
      | _ => simp [sends]
    refine ⟨rfl, rfl, rfl, rfl, rfl, hphase, hlink, ?_, ?_, ?_⟩
    · simp only [arriving, htodo', htodo, hsends]
    · simp only [settled, hlink]
    · simp only [hrec, htodo', htodo, List.append_assoc]
      rw [← records_append]
      rfl

lemma Wired.senderPerforms (hw : c.Wired u written) (h : c.senderPerforms = some d) :
    d.Wired u written ∧ d.outlook u written = c.outlook u written := by
  obtain ⟨-, htodo, -, hpending, hcrc, -, hlink, harr, hsettled, -⟩ :=
    senderPerforms_outlook written (u := u) h
  have hout : d.outlook u written = c.outlook u written := by
    simp only [outlook, harr, hsettled, hpending]
  refine ⟨⟨?_, ?_, ?_, ?_, ?_, ?_, ?_, ?_⟩, hout⟩
  · rw [hsettled]
    exact hw.steady
  · rw [hsettled, hpending]
    exact hw.pending
  · rw [harr]
    exact hw.legible
  · rw [htodo]
    exact hw.keeps
  · rw [hcrc]
    exact hw.receiverCrc
  · rw [hlink]
    exact hw.senderCrc
  · rw [hlink]
    exact hw.senderPending
  · rw [hout]
    exact hw.acks

end SenderPerforms

section ReceiverPerforms

def wrote (written : List Bytes) : Effect → List Bytes
  | .write article => written ++ [article]
  | .truncate pos => written.take pos.articles
  | _ => written

variable (written) in
lemma receiverPerforms_cases (h : c.receiverPerforms u = some d) :
    ∃ w todo, c.receiver.todo = w :: todo ∧ d.receiver.todo = todo ∧
    d.receiver.phase = c.receiver.phase ∧
      d.receiver.link = c.receiver.link ∧ d.sender.phase = c.sender.phase ∧
      d.sender.todo = c.sender.todo ∧
      d.sender.recorded = c.sender.recorded ∧ d.sender.store = c.sender.store ∧
      d.sender.link.crc = c.sender.link.crc ∧ d.sender.link.pending = c.sender.link.pending ∧
      d.settled u (wrote written w) = c.settled u written := by
  simp only [receiverPerforms] at h
  split at h
  · cases h
  · rename_i e todo htodo
    obtain rfl := (Option.some.inj h).symm
    refine ⟨.send e, todo, htodo, rfl, rfl, rfl, rfl, rfl, rfl, rfl, rfl, rfl, ?_⟩
    simp only [settled, htodo]
    rfl
  · rename_i w todo hne htodo
    obtain rfl := (Option.some.inj h).symm
    cases w with
    | send e => exact absurd rfl (hne e)
    | _ =>
      refine ⟨_, todo, htodo, rfl, rfl, rfl, rfl, rfl, rfl, rfl, rfl, rfl, ?_⟩
      simp only [settled, htodo]
      rfl

lemma receiverPerforms_sink (h : c.receiverPerforms u = some d) {Holds : τ → List Bytes → Prop}
    (hkeep : u.ops.Keeps Holds) (hsink : Holds c.receiver.sink written)
    (hno : ∀ pos, Effect.truncate pos ∉ c.receiver.todo) {w : Effect} {todo : List Effect}
    (htodo : c.receiver.todo = w :: todo) : Holds d.receiver.sink (wrote written w) := by
  simp only [receiverPerforms, htodo] at h
  cases w with
  | truncate pos => exact absurd (by rw [htodo]; simp) (hno pos)
  | write a =>
    obtain rfl := (Option.some.inj h).symm
    exact hkeep.write hsink a
  | _ =>
    obtain rfl := (Option.some.inj h).symm
    exact hsink

lemma Wired.receiverPerforms (hw : c.Wired u written) (h : c.receiverPerforms u = some d) {w : Effect}
    {todo : List Effect} (htodo : c.receiver.todo = w :: todo) :
    d.Wired u (wrote written w) ∧ d.outlook u (wrote written w) = c.outlook u written := by
  obtain ⟨w', todo', htodo', hdtodo, -, hlink, -, hstodo, -, -, hcrc, hpend, hsettled⟩ :=
    receiverPerforms_cases written h
  obtain ⟨rfl, rfl⟩ := List.cons.inj (htodo'.symm.trans htodo)
  have hout : d.outlook u (wrote written w') = c.outlook u written := by
    simp only [outlook, hsettled, arriving, hlink, hstodo]
  refine ⟨⟨?_, ?_, ?_, ?_, ?_, ?_, ?_, ?_⟩, hout⟩
  · rw [hsettled]
    exact hw.steady
  · rw [hsettled, hlink]
    exact hw.pending
  · rw [arriving, hlink, hstodo]
    exact hw.legible
  · intro pos hmem
    exact hw.keeps pos (by rw [htodo, hdtodo.symm]; exact List.mem_cons_of_mem _ hmem)
  · rw [hlink]
    exact hw.receiverCrc
  · rw [hcrc]
    exact hw.senderCrc
  · rw [hpend]
    exact hw.senderPending
  · rw [hout]
    exact hw.acks

end ReceiverPerforms

section ReceiverTakes

lemma receiverTakes_cases (h : c.receiverTakes u = some d) :
    ∃ r link act, c.receiver.todo = [] ∧ c.receiver.link.recv = some (r, link) ∧
      ReceiveData.react u.rp c.receiver.store (u.ops.position c.receiver.sink)
      c.receiver.phase r = some act ∧
      d = { c with receiver := { c.receiver with link := link }.become act } := by
  simp only [receiverTakes] at h
  split at h
  · rename_i r link htodo hrecv
    simp only [Option.map_eq_some_iff] at h
    obtain ⟨act, hact, rfl⟩ := h
    exact ⟨r, link, act, htodo, hrecv, hact, rfl⟩
  · cases h

variable (written) in
lemma settled_become (htodo : c.receiver.todo = []) {r : Except SessionError Fpdu}
    {act : Run RecvPhase} (link : Link)
    (hact : ReceiveData.react u.rp c.receiver.store (u.ops.position c.receiver.sink)
      c.receiver.phase r = some act) :
    ({ c with receiver := { c.receiver with link := link }.become act } : Session σ τ).settled u
    written =
      (c.settled u written).take u.ops u.rp r := by
  have hbase :
      c.settled u written = ⟨c.receiver.phase, c.receiver.store, c.receiver.recorded,
      c.receiver.sink, written, c.sender.link.incoming⟩ := by
    simp only [settled, htodo]
    rfl
  rw [hbase]
  simp only [take, hact, settled, Receiver.become, follow]
  exact performAll_phase _ ⟨c.receiver.phase, c.receiver.store, c.receiver.recorded,
    c.receiver.sink, written, c.sender.link.incoming⟩ act.effects _

lemma recv_next {Q : Fpdu → Prop} (hcrc : c.receiver.link.crc = u.rp.crc)
    (hplain : ∀ f ∈ c.receiver.link.pending, Q f) (hlegible : ∀ e ∈ c.arriving, LegibleAs Q u.rp.crc e)
    {r : Except SessionError Fpdu} {link : Link} (hrecv : c.receiver.link.recv = some (r, link)) :
    link.crc = c.receiver.link.crc ∧
    (∀ e ∈ link.incoming ++ sends c.sender.todo, LegibleAs Q u.rp.crc e) ∧
      ((∃ f, r = .ok f ∧ Q f ∧ (∀ g ∈ link.pending, Q g) ∧
        ∀ x : Reception τ, flow u.ops u.rp c.arriving [] (x.takeAll u.ops u.rp c.receiver.link.pending) =
          flow u.ops u.rp (link.incoming ++ sends c.sender.todo) []
            ((x.take u.ops u.rp (.ok f)).takeAll u.ops u.rp link.pending)) ∨
      ∃ err, r = .error err ∧ (∀ e, err = .decode e → e.diag ≠ .transmissionError) ∧
        ∀ x : Reception τ, flow u.ops u.rp c.arriving [] (x.takeAll u.ops u.rp c.receiver.link.pending) =
          flow u.ops u.rp (link.incoming ++ sends c.sender.todo) []
          (x.take u.ops u.rp (.error err))) := by
  cases hpend : c.receiver.link.pending with
  | cons f fs =>
    rw [Link.recv_pending hpend] at hrecv
    obtain ⟨rfl, rfl⟩ := Prod.mk.inj (Option.some.inj hrecv)
    rw [hpend, List.forall_mem_cons] at hplain
    exact ⟨rfl, hlegible, .inl ⟨f, rfl, hplain.1, hplain.2, fun _ => rfl⟩⟩
  | nil =>
    cases hin : c.receiver.link.incoming with
    | nil =>
      simp only [Link.recv, Link.poll, hpend, hin] at hrecv
      cases hrecv
    | cons e es =>
      have harr : c.arriving = e :: (es ++ sends c.sender.todo) := by simp [arriving, hin]
      rw [harr, List.forall_mem_cons] at hlegible
      have hflow : ∀ x : Reception τ, flow u.ops u.rp c.arriving [] (x.takeAll u.ops u.rp []) =
          flow u.ops u.rp (es ++ sends c.sender.todo) [] (x.takeEntity u.ops u.rp e) := by
        intro x
        rw [harr]
        rfl
      rcases hlegible.1 with ⟨g, hne, hg, rfl⟩ | ⟨err, hopen, hdiag⟩
      · have hopen : opened u.rp.crc (g.flatMap (Frame.image u.rp.crc)) = .ok g :=
          opened_images hne (fun f hf => (hg f hf).1)
        obtain ⟨f, fs, rfl⟩ := Link.opened_cons hopen
        rw [List.forall_mem_cons] at hg
        have hopen' := hopen
        rw [← hcrc] at hopen'
        rw [(Link.recv_ok hpend (hcrc ▸ hin) hopen').1] at hrecv
        obtain ⟨rfl, rfl⟩ := Prod.mk.inj (Option.some.inj hrecv)
        refine ⟨rfl, hlegible.2, .inl ⟨f, rfl, hg.1.2, fun f hf => (hg.2 f hf).2, ?_⟩⟩
        intro x
        rw [hflow]
        simp only [takeEntity, hopen, takeAll_cons]
      · have hopen' := hopen
        rw [← hcrc] at hopen'
        obtain ⟨l', hl', hinc, hcrc'⟩ := Link.recv_error hpend hin hopen'
        rw [hl'] at hrecv
        obtain ⟨rfl, rfl⟩ := Prod.mk.inj (Option.some.inj hrecv)
        rw [hinc]
        refine ⟨hcrc', hlegible.2, .inr ⟨err, rfl, hdiag, ?_⟩⟩
        intro x
        rw [hflow]
        simp only [takeEntity, hopen]

variable (written) in
lemma Wired.takes_receiving (hw : c.Wired u written) (htodo : c.receiver.todo = [])
    {r : Except SessionError Fpdu} {act : Run RecvPhase}
    (hact : ReceiveData.react u.rp c.receiver.store (u.ops.position c.receiver.sink)
      c.receiver.phase r = some act) :
    c.receiver.phase = (c.settled u written).phase ∧
      ∃ s, c.receiver.phase = .receiving s ∧
      (s.machine.state = .tde02B ∨ s.machine.state = .tdl02A) := by
  have hphase : c.receiver.phase = (c.settled u written).phase := by
    simp only [settled, htodo]
    rfl
  refine ⟨hphase, ?_⟩
  rcases hw.steady with ⟨s, hs, hm⟩ | ⟨m, res, hx⟩ | ⟨e, hx⟩
  · exact ⟨s, hphase.trans hs, hm⟩
  · rw [hphase, hx] at hact
    cases hact
  · rw [hphase, hx] at hact
    cases hact

lemma Wired.receiverTakes (hw : c.Wired u written) (h : c.receiverTakes u = some d) :
    d.Wired u written ∧ d.outlook u written = c.outlook u written := by
  obtain ⟨r, link, act, htodo, hrecv, hact, rfl⟩ := receiverTakes_cases h
  have hsettled := settled_become written htodo link hact
  obtain ⟨hphase, s, hs, hm⟩ := hw.takes_receiving written htodo hact
  have hlive : ¬ (c.settled u written).Failed := by
    rintro ⟨e, he⟩
    rw [← hphase, hs] at he
    cases he
  obtain ⟨hcrc, hlegible, hnext⟩ :=
    recv_next hw.receiverCrc (hw.pending.resolve_left hlive) hw.legible hrecv
  rw [hs] at hact
  rcases hnext with ⟨f, rfl, hf, hpending, hflow⟩ | ⟨err, rfl, hdiag, hflow⟩
  · have hkeeps : ∀ pos, Effect.truncate pos ∉ act.effects :=
      Option.some.inj hact ▸ (handle_reaction _ _ _ (.inl hf)).keeps
    have hout : ({ c with receiver := { c.receiver with link := link }.become act } :
      Session σ τ).outlook u written =
        c.outlook u written := by
      rw [outlook, hsettled, outlook, hflow]
      rfl
    refine ⟨⟨?_, .inr hpending, hlegible, hkeeps, hcrc.trans hw.receiverCrc, hw.senderCrc,
      hw.senderPending, ?_⟩, hout⟩
    · rw [hsettled]
      exact take_steady _ hw.steady hf
    · rw [hout]
      exact hw.acks
  · have hfailed : ((c.settled u written).take u.ops u.rp (.error err)).Failed :=
      take_refused (hphase ▸ hs) hdiag
    have hkeeps : ∀ pos, Effect.truncate pos ∉ act.effects := by
      rw [← Option.some.inj hact, handleError_effects hdiag]
      simp
    have hout : ({ c with receiver := { c.receiver with link := link }.become act } :
      Session σ τ).outlook u written =
        c.outlook u written := by
      rw [outlook, hsettled, outlook, hflow, takeAll_failed hfailed, flow_failed hfailed,
        flow_failed hfailed]
    refine ⟨⟨?_, ?_, hlegible, hkeeps, hcrc.trans hw.receiverCrc, hw.senderCrc,
      hw.senderPending, ?_⟩, hout⟩
    · rw [hsettled]
      exact .inr (.inr hfailed)
    · rw [hsettled]
      exact .inl hfailed
    · rw [hout]
      exact hw.acks

end ReceiverTakes

section SenderReceives

def acked (s : SendState σ) (n : ℕ) : SendState σ := { s with unacked := s.unacked.dropWhile (· ≤ n) }

lemma handleAsync_ackSyn {p : DataParams} {src : ArticleSource σ} {s : SendState σ}
    (hm : s.machine.state = .tde02A ∨ s.machine.state = .tdl02B) (store : MemoryCheckpoints)
    (d : UInt8) {n : ℕ} (hn : n < 2 ^ 24) :
    handleAsync src p store s (Builder.ackSyn d n) = ⟨[.acknowledge n], .ok (.looping (acked s n))⟩ := by
  have happly : applyReceived s.machine (Builder.ackSyn d n) = .ok s.machine := by
    obtain ⟨⟨role, state⟩, _, _, _, _, _, _, _, _, _, _⟩ := s
    rcases hm with rfl | rfl <;> rfl
  have hnum : (Builder.ackSyn d n).syncNumber.getD 0 = n := by
    rw [Builder.ackSyn_syncNumber d (by omega)]
    rfl
  have hkind : (Builder.ackSyn d n).kind = .ackSyn := rfl
  simp only [handleAsync, happly, Act.lift_ok_bind, hkind, hnum]
  rfl

lemma performAll_acks (x : Reception τ) (ws : List Effect) :
    (x.performAll u.ops ws).acks = x.acks ++ sends ws := by
  induction ws generalizing x with
  | nil => simp [performAll, sends]
  | cons w ws ih =>
    have hcons : x.performAll u.ops (w :: ws) = (x.perform u.ops w).performAll u.ops ws := rfl
    rw [hcons, ih]
    cases w <;> simp [perform, sends]

lemma Wired.incoming (hw : c.Wired u written) :
    (∃ ns : List ℕ, (∀ n ∈ ns, n < 2 ^ 24) ∧ c.sender.link.incoming = ns.map (ackEntity u.rp)) ∧
      ∃ ns : List ℕ, (∀ n ∈ ns, n < 2 ^ 24) ∧ sends c.receiver.todo = ns.map (ackEntity u.rp) := by
  obtain ⟨ns, hns, hacks⟩ := hw.acks
  obtain ⟨more, hmore⟩ :
      ∃ more, (c.outlook u written).acks = c.sender.link.incoming ++
      (sends c.receiver.todo ++ more) := by
    have hsettled : (c.settled u written).acks = c.sender.link.incoming ++ sends c.receiver.todo :=
      performAll_acks _ _
    obtain ⟨more, hmore⟩ :
        ∃ more, ((c.settled u written).takeAll u.ops u.rp c.receiver.link.pending).acks =
        (c.settled u written).acks ++ more := by
      rcases hw.pending with hf | hp
      · exact ⟨[], by rw [takeAll_failed hf, List.append_nil]⟩
      · obtain ⟨_, -, -, h⟩ := takeAll_acks u.ops (p := u.rp) hw.steady hp
        exact ⟨_, h⟩
    have hsteady : ((c.settled u written).takeAll u.ops u.rp c.receiver.link.pending).Steady := by
      rcases hw.pending with hf | hp
      · rw [takeAll_failed hf]
        exact hw.steady
      · exact takeAll_steady hw.steady hp
    obtain ⟨ns', -, h⟩ := flow_acks u.ops hsteady hw.legible
    refine ⟨more ++ ns'.map (ackEntity u.rp), ?_⟩
    rw [outlook, h, hmore, hsettled]
    simp only [List.append_assoc]
  rw [hacks, eq_comm, List.append_eq_map_iff] at hmore
  obtain ⟨ns₁, ns₂, rfl, h₁, h₂⟩ := hmore
  rw [eq_comm, List.append_eq_map_iff] at h₂
  obtain ⟨ns₃, ns₄, rfl, h₃, -⟩ := h₂
  exact ⟨⟨ns₁, fun n hn => hns n (by simp [hn]), h₁.symm⟩, ns₃, fun n hn =>
    hns n (by simp [hn]), h₃.symm⟩

lemma Wired.senderReceives (hcrc : u.rp.crc = u.sp.crc) (hw : c.Wired u written) {s : SendState σ}
    (hs : c.sender.phase = .looping s) (hm : s.machine.state = .tde02A ∨ s.machine.state = .tdl02B)
    (h : c.senderPolls u = some d ∨ c.senderWaits u = some d) :
    ∃ n es, n < 2 ^ 24 ∧ c.sender.todo = [] ∧ c.sender.link.incoming = ackEntity u.rp n :: es ∧
      d = { c with sender := { c.sender with
        phase := .looping (acked s n)
        todo := [.acknowledge n]
        link := ⟨c.sender.link.crc, es, []⟩ } } := by
  obtain ⟨⟨ns, hns, hin⟩, -⟩ := hw.incoming
  cases ns with
  | nil =>
    have hpoll :
        c.sender.link.poll = none := by simp only [Link.poll, hw.senderPending, hin, List.map_nil]
    have hrecv : c.sender.link.recv = none := by
      simp only [Link.recv, hpoll, hw.senderPending, hin, List.map_nil]
    rcases h with h | h
    · simp only [senderPolls, hpoll] at h
      split at h <;> simp_all
    · simp only [senderWaits, hrecv] at h
      split at h <;> simp_all
  | cons n ns =>
    rw [List.forall_mem_cons] at hns
    rw [List.map_cons] at hin
    have hopen : opened c.sender.link.crc (ackEntity u.rp n) = .ok [Builder.ackSyn u.rp.peerId n] := by
      rw [hw.senderCrc, ← hcrc]
      exact opened_image (Builder.ackSyn_sound u.rp.peerId hns.1) u.rp.crc
    obtain ⟨hrecv, hpoll⟩ := Link.recv_ok hw.senderPending hin hopen
    have hasync : ∀ store, handleAsync u.src u.sp store s (Builder.ackSyn u.rp.peerId n) =
        ⟨[.acknowledge n], .ok (.looping (acked s n))⟩ :=
        fun store => handleAsync_ackSyn hm store _ hns.1
    rcases h with h | h
    · simp only [senderPolls, hpoll, hs] at h
      cases htodo : c.sender.todo with
      | cons w ws =>
        rw [htodo] at h
        cases h
      | nil =>
        simp only [htodo, hasync] at h
        exact ⟨n, _, hns.1, rfl, hin, (Option.some.inj h).symm⟩
    · simp only [senderWaits, hrecv, hs] at h
      cases htodo : c.sender.todo with
      | cons w ws =>
        rw [htodo] at h
        cases h
      | nil =>
        simp only [htodo, react, hasync] at h
        split at h
        · exact ⟨n, _, hns.1, rfl, hin, (Option.some.inj h).symm⟩
        · cases h

lemma Wired.acknowledged (hw : c.Wired u written) {n : ℕ} {es : List Bytes} (htodo : c.sender.todo = [])
    (hin : c.sender.link.incoming = ackEntity u.rp n :: es) (phase : SendPhase σ) {d : Session σ τ}
    (hd : d = { c with sender := { c.sender with
      phase := phase, todo := [.acknowledge n], link := ⟨c.sender.link.crc, es, []⟩ } }) :
    d.Wired u written ∧ c.outlook u written = (d.outlook u written).owing (ackEntity u.rp n) := by
  subst hd
  have hsettled : c.settled u written = (({ c with sender := { c.sender with
      phase := phase, todo := [.acknowledge n], link := ⟨c.sender.link.crc, es, []⟩ } } :
        Session σ τ).settled u
      written).owing (ackEntity u.rp n) := by
    rw [settled, settled, ← performAll_owing, hin]
    rfl
  have harr : c.arriving = ({ c with sender := { c.sender with
      phase := phase, todo := [.acknowledge n], link := ⟨c.sender.link.crc, es, []⟩ } } : Session σ
        τ).arriving := by
    simp [arriving, htodo, sends]
  have hout : c.outlook u written = (({ c with sender := { c.sender with
      phase := phase, todo := [.acknowledge n], link := ⟨c.sender.link.crc, es, []⟩ } } :
        Session σ τ).outlook u
      written).owing (ackEntity u.rp n) := by
    simp only [outlook, hsettled, harr, takeAll_owing, flow_owing]
  have hsteady := hw.steady
  have hpending := hw.pending
  rw [hsettled] at hsteady hpending
  refine ⟨⟨hsteady, hpending, harr ▸ hw.legible, hw.keeps, hw.receiverCrc, hw.senderCrc, rfl, ?_⟩, hout⟩
  obtain ⟨ns, hns, hacks⟩ := hw.acks
  rw [hout] at hacks
  cases ns with
  | nil => cases hacks
  | cons m ns =>
    rw [List.forall_mem_cons] at hns
    exact ⟨ns, hns.2, (List.cons.inj hacks).2⟩

end SenderReceives

section SenderAdvances

lemma senderAdvances_cases (h : c.senderAdvances u = some d) :
    ∃ s, c.sender.todo = [] ∧ c.sender.phase = .looping s ∧ windowFull u.sp s = false ∧
      d = { c with sender := c.sender.become (advance u.src u.sp s) } := by
  simp only [senderAdvances] at h
  split at h
  · rename_i s htodo hs
    split at h
    · cases h
    · rename_i hfull
      exact ⟨s, htodo, hs, by simpa using hfull, (Option.some.inj h).symm⟩
  · cases h

lemma Wired.senderAdvances (hw : c.Wired u written) (htodo : c.sender.todo = [])
    (act : Run (SendPhase σ)) (hact : ∀ e ∈ sends act.effects, Legible u.rp.crc e) :
    ({ c with sender := c.sender.become act } : Session σ τ).Wired u written ∧
      ({ c with sender := c.sender.become act } : Session σ τ).outlook u written =
        flow u.ops u.rp (sends act.effects) [] (c.outlook u written) := by
  have harr : ({ c with sender := c.sender.become act } : Session σ τ).arriving = c.arriving ++
    sends act.effects := by
    simp [arriving, htodo, sends, Sender.become]
  have hout : ({ c with sender := c.sender.become act } : Session σ τ).outlook u written =
      flow u.ops u.rp (sends act.effects) [] (c.outlook u written) := by
    simp only [outlook, harr]
    rw [flow_append]
    rfl
  refine ⟨⟨hw.steady, hw.pending, ?_, hw.keeps, hw.receiverCrc, hw.senderCrc,
    hw.senderPending, ?_⟩, hout⟩
  · rw [harr, List.forall_mem_append]
    exact ⟨hw.legible, hact⟩
  · obtain ⟨ns, hns, hacks⟩ := hw.acks
    obtain ⟨ns', hns', hacks'⟩ := flow_acks u.ops hw.outlook_steady hact
    refine ⟨ns ++ ns', ?_, ?_⟩
    · rw [List.forall_mem_append]
      exact ⟨hns, hns'⟩
    · rw [hout, hacks', hacks, List.map_append]

end SenderAdvances

end Session

end PesitWizard.Io
