import PesitWizard.Io.Transfer

/-! Every move of a data phase keeps the receiver abreast of the sender, as far as the
articles come through. -/

namespace PesitWizard.Io

open PesitWizard.Core Library

namespace Transfer

open Reception SendData Session

variable {σ τ : Type} (t : Transfer σ τ) (total base : ℕ)

structure Finished (res : DataResult) (log : List Checkpoint) (x : Reception τ) : Prop where
  ended : ∃ m, x.phase = .ended m res
  completed : res.ending = .completed
  counts : t.Counts total res.dataBytes res.articles
  all : res.articles = t.articles.length
  sink : t.Holds x.sink x.written
  written : x.written = t.articles
  recorded : x.recorded.map Checkpoint.key = log.map Checkpoint.key
  kept : ∀ cp ∈ x.recorded, t.Kept total cp
  few : base + log.length < 2 ^ 24

/-- The receiver has failed, because the articles do not come through. -/
def Lost (H : Prop) (log : List Checkpoint) (x : Reception τ) : Prop :=
  x.Failed ∧ ¬ H ∧ t.Within total base log x

/-- The rest of the articles come through. -/
def Open (s : SendState σ) : Prop :=
  Admissible t.setup.rp t.setup.sp s.compressor s.bytesSinceSync s.syncNo (t.articles.drop s.articles)

/-- The sender in its loop, and what `x` will make of all that has been sent. -/
def Looping (H : Prop) (s : SendState σ) (log : List Checkpoint) (x : Reception τ) : Prop :=
  ∃ bs ws, Loaded t.setup.sp s bs ws ∧ t.Ready total s ∧
    ((x.takeAll t.setup.ops t.setup.rp bs).Idle t.setup.rp ∨
    (x.takeAll t.setup.ops t.setup.rp bs).Failed) ∧
    (t.Lost total base H log ((x.takeAll t.setup.ops t.setup.rp bs).deliverAll t.setup.ops ws) ∨
      t.Abreast total base s log ((x.takeAll t.setup.ops t.setup.rp bs).deliverAll t.setup.ops
      ws) ∧ (t.Open s ↔ H))

def Progress (H : Prop) (phase : SendPhase σ) (log : List Checkpoint) (x : Reception τ) : Prop :=
  match phase with
  | .looping s => t.Looping total base H s log x
  | .ended _ res => t.Lost total base H log x ∨ t.Finished total base res log x ∧ H
  | .interrupting _ | .failed _ => False

def marks (c : Session σ τ) : List Checkpoint := c.sender.recorded ++ records c.sender.todo

/-- The checkpoints of the sender are numbered one after the other. -/
def Numbered (phase : SendPhase σ) (log : List Checkpoint) : Prop :=
  log.map Checkpoint.sync = (List.range' (base + 1) log.length).map (· % 2 ^ 32) ∧
    ∀ s, phase = .looping s → s.syncNo = (base + log.length) % 2 ^ 32

structure Inv (H : Prop) (c : Session σ τ) (written : List Bytes) : Prop where
  wired : c.Wired t.setup written
  sink : t.Holds c.receiver.sink written
  sent : ∀ cp ∈ marks c, t.Sent total cp
  numbered : Numbered base c.sender.phase (marks c)
  progress : t.Progress total base H c.sender.phase (marks c) (c.outlook t.setup written)

variable {t total base} {H : Prop} {c d : Session σ τ} {written : List Bytes}

section Moves

lemma Inv.senderPerforms (h : t.Inv total base H c written) (hstep : c.senderPerforms = some d) :
    t.Inv total base H d written := by
  obtain ⟨-, -, hsink, -, -, hphase, -, -, -, hmarks⟩ :=
    senderPerforms_outlook written (u := t.setup) hstep
  obtain ⟨hwired, hout⟩ := h.wired.senderPerforms hstep
  have hmarks' : marks d = marks c := hmarks
  refine ⟨hwired, ?_, ?_, ?_, ?_⟩
  · rw [hsink]
    exact h.sink
  · rw [hmarks']
    exact h.sent
  · rw [hphase, hmarks']
    exact h.numbered
  · rw [hphase, hmarks', hout]
    exact h.progress

lemma Inv.receiverPerforms (h : t.Inv total base H c written)
    (hstep : c.receiverPerforms t.setup = some d) :
    ∃ w todo, c.receiver.todo = w :: todo ∧ t.Inv total base H d (wrote written w) := by
  obtain ⟨w, todo, htodo, -, -, -, hphase, hstodo, hrec, -, -, -, -⟩ :=
    receiverPerforms_cases written hstep
  obtain ⟨hwired, hout⟩ := h.wired.receiverPerforms hstep htodo
  have hmarks : marks d = marks c := by simp only [marks, hstodo, hrec]
  refine ⟨w, todo, htodo, hwired, receiverPerforms_sink hstep t.keeps h.sink h.wired.keeps
    htodo, ?_, ?_, ?_⟩
  · rw [hmarks]
    exact h.sent
  · rw [hphase, hmarks]
    exact h.numbered
  · rw [hphase, hmarks, hout]
    exact h.progress

lemma Inv.receiverTakes (h : t.Inv total base H c written) (hstep : c.receiverTakes t.setup = some d) :
    t.Inv total base H d written := by
  obtain ⟨hwired, hout⟩ := h.wired.receiverTakes hstep
  obtain ⟨r, link, act, -, -, -, rfl⟩ := receiverTakes_cases hstep
  refine ⟨hwired, h.sink, h.sent, h.numbered, ?_⟩
  rw [hout]
  exact h.progress

lemma Abreast.acked {s : SendState σ} {log : List Checkpoint} {x : Reception τ} {n : ℕ} (hn : n < 2 ^ 24)
    (h : t.Abreast total base s log (x.owing (ackEntity t.setup.rp n))) :
    t.Abreast total base (acked s n) log x := by
  have hacks : ackEntity t.setup.rp n :: x.acks =
      if 0 < t.setup.sp.window then s.unacked.map (ackEntity t.setup.rp) else [] := h.acks
  split at hacks
  · rename_i hwindow
    cases hun : s.unacked with
    | nil =>
      rw [hun] at hacks
      cases hacks
    | cons m us =>
      have hasc := h.ascending
      have hlatest := h.latest
      have hnumbered := h.numbered
      rw [hun, List.map_cons] at hacks
      rw [hun, List.pairwise_cons] at hasc
      rw [hun, List.forall_mem_cons] at hlatest
      obtain ⟨hhead, htail⟩ := List.cons.inj hacks
      obtain rfl := ackEntity_inj hn (by omega) hhead
      have hdrop : (Session.acked s n).unacked = us := by
        simp only [Session.acked, hun]
        rw [List.dropWhile_cons_of_pos (by simp)]
        cases us with
        | nil => rfl
        | cons k us =>
          have := hasc.1 k (by simp)
          rw [List.dropWhile_cons_of_neg (by simp; omega)]
      refine ⟨h.receiving, h.sink, h.written, h.recorded, h.kept, ?_, ?_, ?_, h.numbered, h.counted⟩
      · rw [hdrop, if_pos hwindow]
        exact htail
      · rw [hdrop]
        exact hasc.2
      · rw [hdrop]
        exact hlatest.2
  · cases hacks

lemma Inv.senderReceives (h : t.Inv total base H c written)
    (hstep : c.senderPolls t.setup = some d ∨ c.senderWaits t.setup = some d) :
    t.Inv total base H d written := by
  cases hphase : c.sender.phase with
  | looping s =>
    have hprogress := h.progress
    rw [hphase] at hprogress
    obtain ⟨bs, ws, hload, hready, hidle, hrel⟩ := hprogress
    obtain ⟨n, es, hn, htodo, hin, hd⟩ := h.wired.senderReceives t.agree.crc hphase hload.machine hstep
    obtain ⟨hwired, hout⟩ := h.wired.acknowledged htodo hin _ hd
    rw [hout, takeAll_owing] at hidle hrel
    rw [deliverAll_owing] at hrel
    have hmarks : marks d = marks c := by
      rw [hd]
      simp [marks, htodo, records]
    have hphase' : d.sender.phase = .looping (Session.acked s n) := by rw [hd]
    refine ⟨hwired, ?_, ?_, ?_, ?_⟩
    · rw [hd]
      exact h.sink
    · rw [hmarks]
      exact h.sent
    · rw [hphase', hmarks]
      refine ⟨h.numbered.1, ?_⟩
      intro s' hs'
      obtain rfl := SendPhase.looping.inj hs'
      exact h.numbered.2 s hphase
    · rw [hphase', hmarks]
      refine ⟨bs, ws, ⟨hload.1, hload.2, hload.3, hload.4, hload.5, hload.6⟩,
        ⟨hready.1, hready.2, hready.3, hready.4⟩, hidle, ?_⟩
      rcases hrel with ⟨hf, hH, hwithin⟩ | ⟨habreast, hopen⟩
      · exact .inl ⟨hf, hH, ⟨hwithin.recorded, hwithin.kept, hwithin.written, hwithin.few⟩⟩
      · exact .inr ⟨habreast.acked hn, hopen⟩
  | ended m res =>
    rcases hstep with hstep | hstep
    · simp [senderPolls, hphase] at hstep
    · simp only [senderWaits, hphase, waits, Bool.false_eq_true, if_false] at hstep
      split at hstep <;> cases hstep
  | interrupting s =>
    have hprogress := h.progress
    rw [hphase] at hprogress
    exact hprogress.elim
  | failed e =>
    have hprogress := h.progress
    rw [hphase] at hprogress
    exact hprogress.elim

lemma become_returns {s : Sender σ} {act : Run (SendPhase σ)} {effects : List Effect}
    {phase : SendPhase σ} (h : act.Returns effects phase) :
    s.become act = { s with phase := phase, todo := effects } := by
  rw [h]
  rfl

lemma Inv.ends (h : t.Inv total base H c written) (htodo : c.sender.todo = []) {s : SendState σ}
    (hphase : c.sender.phase = .looping s) (hnone : t.articles[s.articles]? = none) :
    t.Inv total base H
    { c with sender := c.sender.become (advance t.setup.src t.setup.sp s) } written := by
  have hprogress := h.progress
  rw [hphase] at hprogress
  obtain ⟨bs, ws, hload, hready, hidle, hrel⟩ := hprogress
  obtain ⟨es, m, hrun, hlegible, hflow⟩ := endData_spec t.setup.ops t.roomy t.agree.crc hload
  have hadvance :
      (advance t.setup.src t.setup.sp s).Returns (es.map .send) (.ended m (result s .completed)) := by
    rw [advance, t.yields.done hready.source hnone]
    exact hrun
  have heffects : sends (advance t.setup.src t.setup.sp s).effects = es := by
    rw [hadvance]
    exact sends_map_send es
  obtain ⟨hwired, hout⟩ := h.wired.senderAdvances htodo (advance t.setup.src t.setup.sp s)
    (by rw [heffects]; exact hlegible)
  have hmarks :
      marks { c with sender := c.sender.become (advance t.setup.src t.setup.sp s) } = marks c := by
    rw [become_returns hadvance]
    simp only [marks, records_map_send, htodo]
    rfl
  refine ⟨hwired, h.sink, ?_, ?_, ?_⟩
  · rw [hmarks]
    exact h.sent
  · rw [hmarks, become_returns hadvance]
    refine ⟨h.numbered.1, ?_⟩
    intro s' hs'
    cases hs'
  · rw [hmarks, hout, heffects, hflow _ hidle, become_returns hadvance]
    rcases hrel with hlost | ⟨habreast, hopen⟩
    · rw [take_failed hlost.1]
      exact .inl hlost
    · obtain ⟨r, hx, -, hm, hbytes, harticles, hlast, -⟩ := habreast.receiving
      obtain ⟨m', hend⟩ := take_dtfEnd t.setup.ops (p := t.setup.rp) hx hm t.setup.sp.peerId
      have hlen : s.articles = t.articles.length := by
        have := List.getElem?_eq_none_iff.mp hnone
        have := hready.counts.1
        omega
      have hdrop : t.articles.drop s.articles = [] := by rw [hlen, List.drop_length]
      have hH : H := by
        refine hopen.mp ?_
        rw [Open, hdrop]
        exact ⟨by simp, by simp [schedule], habreast.numbered⟩
      rw [hend]
      refine .inr ⟨⟨⟨m', ?_⟩, rfl, hready.counts, hlen, habreast.sink, ?_,
        habreast.recorded, habreast.kept, by have := habreast.counted; have := habreast.numbered; omega⟩,
        hH⟩
      · simp only [ReceiveData.result, result, hbytes, harticles, hlast]
      · rw [habreast.written, hlen, List.take_length]

lemma turn_failed {s : SendState σ} {x : Reception τ} (h : x.Failed) (a : Bytes) :
    turn t.setup.ops t.setup.rp t.setup.sp s a x = x := by
  rw [turn, take_failed h, ite_self, deliver_failed h]

lemma Numbered.turn {s s' : SendState σ} {log : List Checkpoint} {a : Bytes} {rest : σ}
    (h : Numbered base (.looping s) log) (hturn : Turned t.setup.src t.setup.sp s a rest s') :
    Numbered base (.looping s')
      (log ++ if (onWire t.setup.sp s.compressor s.bytesSinceSync a).1 then [mark s] else []) := by
  have hsync := hturn.syncNo
  cases hpoint : (onWire t.setup.sp s.compressor s.bytesSinceSync a).1 with
  | false =>
    simp only [hpoint, Bool.false_eq_true, if_false, List.append_nil] at hsync ⊢
    refine ⟨h.1, ?_⟩
    intro s'' hs''
    obtain rfl := SendPhase.looping.inj hs''
    exact hsync.trans (h.2 s rfl)
  | true =>
    simp only [hpoint, if_true] at hsync ⊢
    have hnext : nextSync s = (base + log.length + 1) % 2 ^ 32 := by
      rw [nextSync, h.2 s rfl, Nat.mod_add_mod]
    refine ⟨?_, ?_⟩
    · rw [List.map_append, List.length_append, h.1, List.length_singleton,
        List.range'_concat, List.map_append]
      simp only [List.map_cons, List.map_nil, mark, hnext]
      congr 3
      omega
    · intro s'' hs''
      obtain rfl := SendPhase.looping.inj hs''
      rw [hsync, hnext, List.length_append, List.length_singleton, Nat.add_assoc]

lemma Inv.sends (h : t.Inv total base H c written) (htodo : c.sender.todo = []) {s : SendState σ}
    (hphase : c.sender.phase = .looping s) {a : Bytes} (ha : t.articles[s.articles]? = some a) :
    t.Inv total base H
    { c with sender := c.sender.become (advance t.setup.src t.setup.sp s) } written := by
  have hprogress := h.progress
  rw [hphase] at hprogress
  obtain ⟨bs, ws, hload, hready, hidle, hrel⟩ := hprogress
  obtain ⟨rest, hnext, hrest⟩ := t.yields.next hready.source ha
  obtain ⟨effects, s', bs', ws', hrun, hload', hturn, hlegible, hrecords, -, hflow⟩ :=
    sendArticle_spec t.setup.src t.setup.ops t.roomy t.agree.crc hload a rest
  have hadvance : (advance t.setup.src t.setup.sp s).Returns effects (.looping s') := by
    rw [advance, hnext, ← List.append_nil effects]
    exact hrun.bind (Act.returns_pure _)
  have heffects : (advance t.setup.src t.setup.sp s).effects = effects := by rw [hadvance]
  obtain ⟨hwired, hout⟩ := h.wired.senderAdvances htodo (advance t.setup.src t.setup.sp s)
    (by rw [heffects]; exact hlegible)
  have hmarks : marks { c with sender := c.sender.become (advance t.setup.src t.setup.sp s) } =
      marks c ++ if (onWire t.setup.sp s.compressor s.bytesSinceSync a).1 then [mark s] else [] := by
    rw [become_returns hadvance]
    simp only [marks, htodo, hrecords]
    simp [records]
  have hnumbered := h.numbered
  rw [hphase] at hnumbered
  refine ⟨hwired, h.sink, ?_, ?_, ?_⟩
  · rw [hmarks, List.forall_mem_append]
    refine ⟨h.sent, ?_⟩
    split
    · simpa using hready.mark_sent
    · simp
  · rw [hmarks, become_returns hadvance]
    exact hnumbered.turn hturn
  · obtain ⟨hidle', hok, herr⟩ := hflow _ h.wired.outlook_steady hidle
    rw [hmarks, hout, heffects, become_returns hadvance]
    have hflow' :
        ∀ V : Reception τ,
        (flow t.setup.ops t.setup.rp (SendData.sends effects) [] V).takeAll t.setup.ops
        t.setup.rp bs' = flow t.setup.ops t.setup.rp (SendData.sends effects) bs' V := fun _ => rfl
    refine ⟨bs', ws', hload', hready.step ha hturn hrest, by rw [hflow']; exact hidle', ?_⟩
    rw [hflow']
    rcases hrel with ⟨hf, hH, hwithin⟩ | ⟨habreast, hopen⟩
    · -- a receiver that has failed stays so
      by_cases hcarried : Carried t.setup.rp t.setup.sp s a
      · rw [hok hcarried, turn_failed hf]
        exact .inl ⟨hf, hH, hwithin.extend _⟩
      · obtain ⟨hfailed, hgrows, hgrows'⟩ := herr hcarried
        rw [turn_failed hf] at hgrows
        rw [deliverAll_failed hfailed]
        refine .inl ⟨hfailed, hH, (hwithin.extend _).of_grows ?_⟩
        by_cases hn : (onWire t.setup.sp s.compressor s.bytesSinceSync a).1 = true → nextSync s < 2 ^ 24
        · exact hgrows hn
        · exact hgrows' hn
    · have hcons := admissible_cons t.setup.rp (t.articles.drop (s.articles + 1)) hturn habreast.numbered
      rw [← drop_eq_cons ha, ← hturn.articles] at hcons
      rw [Open, hcons] at hopen
      by_cases hcarried : Carried t.setup.rp t.setup.sp s a
      · obtain ⟨hgood, hbad⟩ := habreast.turn hready ha hturn hcarried.1
        rw [hok hcarried]
        by_cases hlen : s.compressor.isSome = true → a.length ≤ max t.setup.rp.maxArticle 1
        · refine .inr ⟨hgood hlen, ?_⟩
          rw [← hopen]
          exact ⟨fun h => ⟨hlen, hcarried, h⟩, fun h => h.2.2⟩
        · exact .inl ⟨(hbad hlen).1, fun hH => hlen (hopen.mpr hH).1, (hbad hlen).2⟩
      · obtain ⟨hfailed, hgrows, hgrows'⟩ := herr hcarried
        rw [deliverAll_failed hfailed]
        refine .inl ⟨hfailed, fun hH => hcarried (hopen.mpr hH).2.1, ?_⟩
        by_cases hn : (onWire t.setup.sp s.compressor s.bytesSinceSync a).1 = true → nextSync s < 2 ^ 24
        · refine Within.of_grows ?_ (hgrows hn)
          obtain ⟨hgood, hbad⟩ := habreast.turn hready ha hturn hn
          by_cases hlen : s.compressor.isSome = true → a.length ≤ max t.setup.rp.maxArticle 1
          · exact (hgood hlen).within
          · exact (hbad hlen).2
        · exact (habreast.within.extend _).of_grows (hgrows' hn)

lemma Inv.senderAdvances (h : t.Inv total base H c written) (hstep : c.senderAdvances t.setup = some d) :
    t.Inv total base H d written := by
  obtain ⟨s, htodo, hphase, -, rfl⟩ := senderAdvances_cases hstep
  cases ha : t.articles[s.articles]? with
  | none => exact h.ends htodo hphase ha
  | some a => exact h.sends htodo hphase ha

lemma Inv.step (h : t.Inv total base H c written) (hstep : Session.Step t.setup c d) :
    ∃ written', t.Inv total base H d written' := by
  obtain ⟨m, hm⟩ := hstep
  cases m with
  | senderPerforms => exact ⟨written, h.senderPerforms hm⟩
  | senderPolls => exact ⟨written, h.senderReceives (.inl hm)⟩
  | senderWaits => exact ⟨written, h.senderReceives (.inr hm)⟩
  | senderAdvances => exact ⟨written, h.senderAdvances hm⟩
  | receiverPerforms =>
    obtain ⟨w, -, -, hinv⟩ := h.receiverPerforms hm
    exact ⟨_, hinv⟩
  | receiverTakes => exact ⟨written, h.receiverTakes hm⟩

end Moves

section Bounds

lemma Finished.within {res : DataResult} {log : List Checkpoint} {x : Reception τ}
    (h : t.Finished total base res log x) : t.Within total base log x := by
  refine ⟨?_, h.kept, ?_, ?_⟩
  · exact ⟨[], (List.append_nil _).trans h.recorded⟩
  · exact ⟨[], (List.append_nil _).trans h.written⟩
  · have hlength := congrArg List.length h.recorded
    rw [List.length_map, List.length_map] at hlength
    rw [hlength]
    exact h.few

lemma Inv.within (h : t.Inv total base H c written) :
    t.Within total base (marks c) (c.outlook t.setup written) := by
  have hprogress := h.progress
  cases hphase : c.sender.phase with
  | looping s =>
    rw [hphase] at hprogress
    obtain ⟨bs, ws, hload, -, -, hrel⟩ := hprogress
    have hgrows := (takeAll_grows t.setup.ops (p := t.setup.rp) h.wired.outlook_steady.calm
      (fun f hf => .inl (.inl (hload.data f hf)))).1.trans (deliverAll_grows t.setup.ops _ ws)
    rcases hrel with hlost | ⟨habreast, -⟩
    · exact hlost.2.2.of_grows hgrows
    · exact habreast.within.of_grows hgrows
  | ended m res =>
    rw [hphase] at hprogress
    rcases hprogress with hlost | ⟨hfinished, -⟩
    · exact hlost.2.2
    · exact hfinished.within
  | interrupting s =>
    rw [hphase] at hprogress
    exact hprogress.elim
  | failed e =>
    rw [hphase] at hprogress
    exact hprogress.elim

end Bounds

end Transfer

end PesitWizard.Io
