import PesitWizard.Io.Completion

/-! Both ends of a data phase interrupt it at the same time. -/

namespace PesitWizard.Io

open PesitWizard.Core Library Engine Exchange

variable {σ τ : Type}

lemma Link.fpdusOf_sound {f : Fpdu} (hf : Frame.Sound f) (crc : Bool) :
    Link.fpdusOf crc (Frame.image crc f) = [f] := by
  have himages := Frame.splitEntity_images crc (show ∀ g ∈ [f], g.encodedLen ≤ 65535 by simpa using hf.2)
  have hparts := Reception.decodeParts_images (show ∀ g ∈ [f], Frame.Sound g by simpa using hf)
  rw [List.flatMap_singleton] at himages
  simp only [Link.fpdusOf, himages]
  rw [hparts]

def interruptTurn (p : DataParams) (machine : Machine) : Engine σ (Machine ⊕ Machine) := do
  let f ← recv
  let (machine, done) ← perform (interruptRecv p machine f)
  if done then pure (.inr machine) else pure (.inl machine)

/-- The whole of an interruption: the IDT, and what is received until it is over. -/
def interruptData (p : DataParams) (turns : ℕ) (machine : Machine) : Engine σ Machine := do
  let machine ← perform (interrupt p machine)
  Proc.loop (interruptTurn p) turns machine

/-- A side that interrupts its data phase and then closes the transfer. -/
def breakOff {α : Type} (p : DataParams) (turns : ℕ) (machine : Machine) (close : Machine → Engine σ α) :
    Engine σ α := do
  let machine ← interruptData p turns machine
  close machine

def ownAck (p : DataParams) : Fpdu := Builder.ackIdt p.peerId

def crosses (f : Fpdu) : Bool := f.kind = .idt || f.kind = .ackIdt

def heardIn (t : List (Exchange σ)) : List Fpdu := t.flatMap Exchange.heard

def saidIn (crc : Bool) (t : List (Exchange σ)) : List Fpdu := t.flatMap (Exchange.said crc)

def Waiting (s : State) : Prop := s = .tde05A ∨ s = .tde05B ∨ s = .tdl05A ∨ s = .tdl05B

section Steps

variable {p : DataParams} {m : Machine} {f : Fpdu}

lemma cancel_step {s : State} :
    (∃ s', Waiting s' ∧ s.apply (.ofLocal .cancel) = .next s') ∨
    s.apply (.ofLocal .cancel) = .error := by
  cases s <;> first | exact .inr rfl | exact .inl ⟨_, by simp [Waiting], rfl⟩

lemma interrupt_ok {s : State} (hm : m.state.apply (.ofLocal .cancel) = .next s) :
    interrupt p m = ⟨[.send (Frame.image p.crc (idtFpdu p))], .ok ⟨m.role, s⟩⟩ := by
  have hcode : cancelCode p = .cancelByRequester ∨ cancelCode p = .cancelByServer := by
    rw [cancelCode]
    split <;> simp
  rw [interrupt, applyLocal_next hm, Act.lift_ok_bind, sendFpdu,
    Frame.singleEntity_ok (Builder.idt_sound _ hcode)]
  rfl

lemma interrupt_refused (hm : m.state.apply (.ofLocal .cancel) = .error) :
    interrupt p m = ⟨[], .error (.negotiation (.transition m.state (.ofLocal .cancel)))⟩ := by
  rw [interrupt, applyLocal, Machine.apply, hm]
  rfl

lemma waiting_ignores {s : State} {kind : FpduKind} {n : Bool} (hs : Waiting s) (hidt : kind ≠ .idt)
    (hack : kind ≠ .ackIdt) (habort : kind ≠ .abort) : s.apply (.received kind n) = .ignore := by
  rcases hs with rfl | rfl | rfl | rfl <;> cases kind <;>
    first | rfl | exact absurd rfl hidt | exact absurd rfl hack |
    exact absurd rfl habort

lemma interruptRecv_ignored (hm : Waiting m.state) (hf : crosses f = false) :
    interruptRecv p m f = ⟨[], .ok (m, false)⟩ ∨ ∃ diag message,
    interruptRecv p m f = ⟨[], .error (.aborted diag message)⟩ := by
  obtain ⟨hidt, hack⟩ : f.kind ≠ .idt ∧ f.kind ≠ .ackIdt := by simpa [crosses] using hf
  rw [interruptRecv, applyReceived]
  split
  · exact .inr ⟨_, _, rfl⟩
  · rename_i habort
    rw [Machine.apply, waiting_ignores hm hidt hack habort]
    refine .inl ?_
    simp only [Act.lift_ok_bind]
    rfl

lemma interruptRecv_collision (hm : Waiting m.state) (hf : f.kind = .idt) :
    interruptRecv p m f = ⟨[.send (Frame.image p.crc (ownAck p))], .ok (⟨m.role, .of02⟩, true)⟩ := by
  have hpositive : f.isNegative = false := by simp [Fpdu.isNegative, hf, FpduKind.isAck]
  obtain ⟨s, hrcvd, haccept⟩ :
      ∃ s, m.state.apply (.received .idt false) = .next s ∧ s.apply (.ofLocal .accept) =
      .next .of02 := by
    rcases hm with h | h | h | h <;> rw [h] <;> exact ⟨_, rfl, rfl⟩
  rw [interruptRecv, applyReceived, if_neg (by rw [hf]; decide), Machine.apply, hf, hpositive, hrcvd]
  simp only [Act.lift_ok_bind, sendFpdu, Frame.singleEntity_ok (Builder.ackIdt_sound _)]
  rw [applyLocal_next (m := { m with state := s }) haccept]
  rfl

end Steps

section Traces

variable {crc : Bool} {t w : List (Exchange σ)} {e : Exchange σ}
    {pending rest : List Fpdu} {their : Fpdu}

lemma heardIn_append : heardIn (t ++ w) = heardIn t ++ heardIn w := List.flatMap_append

lemma saidIn_append : saidIn crc (t ++ w) = saidIn crc t ++ saidIn crc w := List.flatMap_append

lemma heardIn_concat : heardIn (t ++ [e]) = heardIn t ++ e.heard := by
  rw [heardIn_append]
  exact congrArg (heardIn t ++ ·) (List.flatMap_singleton _ _)

lemma saidIn_concat : saidIn crc (t ++ [e]) = saidIn crc t ++ e.said crc := by
  rw [saidIn_append]
  exact congrArg (saidIn crc t ++ ·) (List.flatMap_singleton _ _)

/-- What a side of a collision hears: what has been on its way to it, the IDT of the other side, and
what comes after it. -/
def Coming (pending : List Fpdu) (their : Fpdu) (rest : List Fpdu) (t : List (Exchange σ)) : Prop :=
  heardIn t <+: pending ++ their :: rest

lemma Coming.left (h : Coming pending their rest (t ++ w)) : Coming pending their rest t := by
  rw [Coming, heardIn_append] at h
  exact (List.prefix_append _ _).trans h

/-- The reception of an FPDU is the last step, and a protocol error. -/
def Rejected {α : Type} (t : List (Exchange σ)) (r : Except SessionError α) : Prop :=
  ∃ u f s, t = u ++ [⟨.recv, .ok f⟩] ∧ r = .error (.protocol s f.kind)

/-- How a side of a collision ends: by a protocol error for what follows the IDT of the other side, or
without one and without having heard more than that IDT; unless what follows the IDT is no ACK(IDT). -/
def CrossEnds {α : Type} (pending : List Fpdu) (their : Fpdu) (rest : List Fpdu) (t : List (Exchange σ))
    (r : Except SessionError α) : Prop :=
  Coming pending their rest t →
    Rejected t r ∧ ¬ heardIn t <+: pending ++ [their] ∨ ¬ Rejected t r ∧
    heardIn t <+: pending ++ [their] ∨
      ∃ x more, heardIn t = pending ++ their :: x :: more ∧ x.kind ≠ .ackIdt

/-- What a side of a collision says: its IDT, and then its answer to the IDT of the other side. -/
def Speaks (p : DataParams) (t : List (Exchange σ)) (e : Exchange σ) : Prop :=
  (saidIn p.crc t = [] → e.said p.crc = [] ∨ e.said p.crc = [idtFpdu p]) ∧
    (saidIn p.crc t = [idtFpdu p] → e.said p.crc = [] ∨ e.said p.crc = [ownAck p])

lemma speaks_late {p : DataParams} (h : 2 ≤ (saidIn p.crc t).length) : Speaks p t e := by
  refine ⟨fun hsaid => ?_, fun hsaid => ?_⟩
  · simp [hsaid] at h
  · simp [hsaid] at h

lemma not_rejected_error {α : Type} {q : Call σ} {a : Call.Result q} {r : Except SessionError α}
    (h : ∀ f, (⟨q, a⟩ : Exchange σ) ≠ ⟨.recv, .ok f⟩) : ¬ Rejected (t ++ [⟨q, a⟩]) r := by
  rintro ⟨u, f, s, heq, -⟩
  obtain ⟨-, hlast⟩ := List.append_inj' heq rfl
  exact h f (List.singleton_inj.mp hlast)

lemma Coming.next {f : Fpdu} (h : heardIn t <+: pending)
    (hcoming : Coming pending their rest (t ++ [⟨.recv, .ok f⟩])) :
    heardIn (t ++ [⟨.recv, .ok f⟩]) <+: pending ∧ f ∈ pending ∨ heardIn t = pending ∧ f = their := by
  have hheard : heardIn (t ++ [⟨.recv, .ok f⟩]) = heardIn t ++ [f] := heardIn_concat
  rw [Coming, hheard] at hcoming
  rw [hheard]
  obtain ⟨later, rfl⟩ := h
  rw [List.append_assoc, List.prefix_append_right_inj] at hcoming
  cases later with
  | nil => exact .inr ⟨(List.append_nil _).symm, (List.cons_prefix_cons.mp hcoming).1⟩
  | cons g later =>
    obtain rfl := (List.cons_prefix_cons.mp hcoming).1
    exact .inl ⟨(List.prefix_append_right_inj _).mpr (List.prefix_append [f] later), by simp⟩

end Traces

section Sides

variable {p : DataParams} {t : List (Exchange σ)} {pending rest : List Fpdu} {their : Fpdu}

lemma said_entity_eq {f : Fpdu} (hf : Frame.Sound f) (crc : Bool)
    (r : Call.Result (.effect (.send (Frame.image crc f)) : Call σ)) :
    Exchange.said crc ⟨.effect (.send (Frame.image crc f)), r⟩ = carried r [f] :=
  congrArg (carried r) (Link.fpdusOf_sound hf crc)

lemma carried_cases (r : Except SessionError Unit) (fs : List Fpdu) :
    carried r fs = [] ∨ carried r fs = fs := by
  cases r with
  | error e => exact .inl rfl
  | ok u => exact .inr rfl

lemma idtFpdu_sound (p : DataParams) : Frame.Sound (idtFpdu p) := by
  refine Builder.idt_sound _ ?_
  rw [cancelCode]
  split <;> simp

lemma ownAck_sound (p : DataParams) : Frame.Sound (ownAck p) := Builder.ackIdt_sound _

/-- How an interruption ends that the other side has made at the same time. -/
def Interrupted (p : DataParams) (pending : List Fpdu) (their : Fpdu) (rest : List Fpdu)
    (t : List (Exchange σ)) (r : Except SessionError Machine) : Prop :=
  Coming pending their rest t →
    match r with
    | .ok m => m.state = .of02 ∧ heardIn t = pending ++ [their] ∧ 2 ≤ (saidIn p.crc t).length
    | .error _ => ¬ Rejected t r ∧ heardIn t <+: pending ++ [their]

/-- An interruption under way: the IDT has been sent, and the one of the other side has
not been received. -/
def Underway (p : DataParams) (pending : List Fpdu) (their : Fpdu) (rest : List Fpdu)
    (t : List (Exchange σ)) (m : Machine) :
    Prop :=
  Coming pending their rest t → saidIn p.crc t = [idtFpdu p] ∧ heardIn t <+: pending ∧ Waiting m.state

abbrev Crossed (p : DataParams) (pending : List Fpdu) (their : Fpdu) (rest : List Fpdu)
    (t : List (Exchange σ)) (e : Exchange σ) : Prop := Coming pending their rest t → Speaks p t e

variable (hpending : ∀ f ∈ pending, crosses f = false) (htheir : their.kind = .idt)
include hpending htheir

lemma interruptTurn_crossed {m : Machine} (h : Underway p pending their rest t m) :
    Proc.Safe (Crossed p pending their rest) (interruptTurn p m) t
      (Proc.TurnPost (Underway p pending their rest) (Interrupted p pending their rest)) := by
  have hleft (u : List (Exchange σ)) (e : Exchange σ) (h : Coming pending their rest (u ++ [e])) :
      Coming pending their rest u := h.left
  have hlost (u : List (Exchange σ)) (r : Except SessionError (Machine ⊕ Machine))
      (h : ¬ Coming pending their rest u) :
      Proc.TurnPost (Underway p pending their rest) (Interrupted p pending their rest) u r := by
    rcases r with e | m | m <;> exact fun hcoming => absurd hcoming h
  refine Proc.Safe.guarded hleft hlost fun hcoming => ?_
  obtain ⟨hsaid, hheard, hm⟩ := h hcoming
  intro r
  refine ⟨fun _ => ⟨fun _ => .inl (said_silent rfl r), fun _ => .inl (said_silent rfl r)⟩, ?_⟩
  have hsaid₁ : saidIn p.crc (t ++ [⟨.recv, r⟩]) = [idtFpdu p] := by
    rw [saidIn_concat, said_silent rfl r, List.append_nil]
    exact hsaid
  cases r with
  | error e =>
    refine fun _ => ⟨not_rejected_error (by rintro g ⟨⟩), ?_⟩
    have hnone : heardIn (t ++ [⟨.recv, .error e⟩]) = heardIn t :=
      heardIn_concat.trans (List.append_nil _)
    rw [hnone]
    exact hheard.trans (List.prefix_append pending [their])
  | ok f =>
    refine Proc.Safe.guarded hleft hlost fun hcoming₁ => ?_
    show Proc.Safe _ (perform (interruptRecv p m f) >>= _) (t ++ [⟨.recv, .ok f⟩]) _
    rcases Coming.next hheard hcoming₁ with ⟨hheard₁, hf⟩ | ⟨hall, rfl⟩
    · rcases interruptRecv_ignored (p := p) hm (hpending f hf) with heq | ⟨diag, message, heq⟩
      · rw [heq]
        exact fun _ => ⟨hsaid₁, hheard₁, hm⟩
      · rw [heq]
        refine fun _ => ⟨?_, hheard₁.trans (List.prefix_append pending [their])⟩
        rintro ⟨u, g, s, -, hg⟩
        cases hg
    · rw [interruptRecv_collision hm htheir]
      intro r
      have hheard₁ :
          heardIn (t ++ [⟨.recv, .ok f⟩] ++ [⟨.effect (.send (Frame.image p.crc (ownAck p))), r⟩]) =
          pending ++ [f] := by
        rw [heardIn_concat, heardIn_concat, hall]
        exact List.append_nil (pending ++ [f])
      refine ⟨fun _ => ⟨fun hnone => ?_, fun _ => ?_⟩, ?_⟩
      · rw [hsaid₁] at hnone
        cases hnone
      · rw [said_entity_eq (ownAck_sound p)]
        exact carried_cases _ _
      · cases r with
        | error e =>
          refine fun _ => ⟨not_rejected_error (by rintro g ⟨⟩), ?_⟩
          exact hheard₁ ▸ List.prefix_rfl
        | ok u =>
          refine fun _ => ⟨rfl, hheard₁, ?_⟩
          rw [saidIn_concat, hsaid₁, List.length_append]
          exact (congrArg (1 + List.length ·)
            (said_entity_eq (σ := σ) (ownAck_sound p) p.crc (.ok u))).ge

lemma interruptData_crossed (turns : ℕ) (m : Machine) :
    Proc.Safe (Crossed p pending their rest) (interruptData p turns m : Engine σ Machine) []
    (Interrupted p pending their rest) := by
  have hnil : heardIn ([] : List (Exchange σ)) <+: pending ++ [their] := List.nil_prefix
  rcases cancel_step (s := m.state) with ⟨s, hs, hcancel⟩ | hcancel
  · rw [interruptData, interrupt_ok hcancel]
    intro r
    refine ⟨fun _ => ⟨fun _ => ?_, fun hsaid => by cases hsaid⟩, ?_⟩
    · rw [said_entity_eq (idtFpdu_sound p)]
      exact carried_cases _ _
    · cases r with
      | error e => exact fun _ => ⟨not_rejected_error (t := []) (by rintro g ⟨⟩), hnil⟩
      | ok u =>
        refine Proc.Safe.loop (Underway p pending their rest)
          (fun _ _ => interruptTurn_crossed hpending htheir) turns ?_
        refine fun _ => ⟨?_, List.nil_prefix, hs⟩
        rw [saidIn_concat]
        exact said_entity_eq (σ := σ) (idtFpdu_sound p) p.crc (.ok u)
  · rw [interruptData, interrupt_refused hcancel]
    refine fun _ => ⟨?_, hnil⟩
    rintro ⟨u, f, s, hu, -⟩
    simp at hu

lemma breakOff_crossed {α : Type} {close : Machine → Engine σ α}
    (hclose : ∀ t m, m.state = .of02 → heardIn t = pending ++ [their] →
      Proc.Safe (fun _ _ => True) (close m) t (CrossEnds pending their rest)) (turns : ℕ) (m : Machine) :
    Proc.Safe (Crossed p pending their rest) (breakOff p turns m close) []
    (CrossEnds pending their rest) := by
  have hleft (u : List (Exchange σ)) (e : Exchange σ) (h : Coming pending their rest (u ++ [e])) :
      Coming pending their rest u := h.left
  refine (interruptData_crossed hpending htheir turns m).bind (fun t m hm => ?_) fun t e he hcoming => ?_
  · refine Proc.Safe.guarded hleft (fun u r h hcoming => absurd hcoming h) fun hcoming => ?_
    obtain ⟨hstate, hheard, hsaid⟩ := hm hcoming
    refine (hclose t m hstate hheard).lasting (fun u => 2 ≤ (saidIn p.crc u).length)
      (fun u e hu => ?_) hsaid
    refine ⟨fun _ => speaks_late hu, ?_⟩
    rw [saidIn_concat, List.length_append]
    exact hu.trans (Nat.le_add_right _ _)
  · obtain ⟨hrejected, hheard⟩ := he hcoming
    refine .inr (.inl ⟨?_, hheard⟩)
    rintro ⟨u, f, s, hu, hr⟩
    obtain rfl := Except.error.inj hr
    exact hrejected ⟨u, f, s, hu, rfl⟩

end Sides

section Closing

variable {t : List (Exchange σ)} {pending rest : List Fpdu} {their : Fpdu} {α : Type}

lemma rejecting_ends {k : Except SessionError Fpdu → Engine σ α}
    (hk : ∀ e, k (.error e) = .done (.error e))
    (hack : ∀ f, f.kind = .ackIdt → ∃ s, k (.ok f) = .done (.error (.protocol s f.kind)))
    (ht : heardIn t = pending ++ [their]) :
    Proc.Safe (fun _ _ => True) (.ask (.recv : Call σ) k) t (CrossEnds pending their rest) := by
  intro r
  refine ⟨trivial, ?_⟩
  cases r with
  | error e =>
    rw [hk]
    have hheard : heardIn (t ++ [⟨.recv, .error e⟩]) = pending ++ [their] := by
      rw [heardIn_concat, ht]
      exact List.append_nil _
    refine fun _ => .inr (.inl ⟨not_rejected_error (by rintro g ⟨⟩), ?_⟩)
    exact hheard ▸ List.prefix_rfl
  | ok f =>
    have hheard : heardIn (t ++ [⟨.recv, .ok f⟩]) = pending ++ their :: [f] := by
      rw [heardIn_concat, ht, List.append_assoc]
      rfl
    by_cases hf : f.kind = .ackIdt
    · obtain ⟨s, hs⟩ := hack f hf
      rw [hs]
      refine fun _ => .inl ⟨⟨t, f, s, rfl, rfl⟩, fun h => ?_⟩
      have hlen := h.length_le
      rw [hheard] at hlen
      simp at hlen
    · refine (Proc.safe_any (k (.ok f)) _).ran.mono ?_
      rintro _ r ⟨-, w, rfl, -⟩ -
      refine .inr (.inr ⟨f, heardIn w, ?_, hf⟩)
      rw [heardIn_append, hheard]
      simp

lemma applyReceived_rejects {m : Machine} {f : Fpdu} {s : State} (hm : m.state = s)
    (hf : f.kind = .ackIdt) (h : ∀ n, s.apply (.received .ackIdt n) = .error) :
    Responder.applyReceived m f = .error (.protocol s f.kind) := by
  rw [Responder.applyReceived, if_neg (by rw [hf]; decide), Machine.apply, hm, hf, h]

variable (turns : ℕ) {m : Machine} (hm : m.state = .of02) (ht : heardIn t = pending ++ [their])
include hm ht

lemma requester_closes (r : Requester) {data : DataResult} {code : EndCode}
    {d : Diagnostic} {byPeer : Bool} (hdata : data.ending = .interrupted code d byPeer) :
    Proc.Safe (fun _ _ => True) (r.closeTransfer turns data m) t (CrossEnds pending their rest) := by
  have hclose : applyLocal m .close = .ok ⟨m.role, .of03A⟩ := applyLocal_next (by rw [hm]; rfl)
  simp only [Requester.closeTransfer, Requester.endTransfer, hdata]
  show Proc.Safe _ (((Proc.lift (applyLocal m .close) >>= _) >>= _) >>= _) t _
  rw [hclose]
  intro u
  refine ⟨trivial, ?_⟩
  have hheard : heardIn (t ++ [⟨.send (Builder.crf r.peerId .ok), u⟩]) = pending ++ [their] := by
    rw [heardIn_concat, ht]
    exact List.append_nil _
  cases u with
  | error e =>
    refine fun _ => .inr (.inl ⟨not_rejected_error (by rintro g ⟨⟩), ?_⟩)
    exact hheard ▸ List.prefix_rfl
  | ok _ =>
    cases turns with
    | zero => trivial
    | succ n =>
      refine rejecting_ends (fun e => rfl) (fun f hf => ⟨.of03A, ?_⟩) hheard
      have hrejects : Responder.applyReceived ⟨m.role, .of03A⟩ f = .error (.protocol .of03A f.kind) :=
        applyReceived_rejects rfl hf fun _ => rfl
      show ((Proc.lift (Responder.applyReceived ⟨m.role, .of03A⟩ f) >>= _) >>= _) >>= _ = _
      rw [hrejects]
      rfl

lemma responder_closes (c : Conn) (data : DataResult) :
    Proc.Safe (fun _ _ => True)
    (Responder.closeTransfer turns c data m) t (CrossEnds pending their rest) := by
  cases turns with
  | zero => trivial
  | succ n =>
    refine rejecting_ends (fun e => rfl) (fun f hf => ⟨.of02, ?_⟩) ht
    show (Proc.lift (Responder.applyReceived m f) >>= _) >>= _ = _
    rw [applyReceived_rejects hm hf fun _ => rfl]
    rfl

end Closing

section Speech

variable {p : DataParams} {crc : Bool} {t : List (Exchange σ)} {α : Type}

lemma split_concat {P : List (Exchange σ) → Exchange σ → Prop} {e : Exchange σ}
    (h : ∀ u d v, t ++ [e] = u ++ d :: v → P u d) : (∀ u d v, t = u ++ d :: v → P u d) ∧ P t e := by
  refine ⟨fun u d v ht => h u d (v ++ [e]) ?_, h t e [] rfl⟩
  rw [ht, List.append_assoc]
  rfl

lemma first_words {f : Fpdu}
    (h : ∀ u e v, t = u ++ e :: v → saidIn crc u = [] → e.said crc = [] ∨ e.said crc = [f]) :
    saidIn crc t = [] ∨ ∃ more, saidIn crc t = f :: more := by
  induction t using List.reverseRecOn with
  | nil => exact .inl rfl
  | append_singleton t e ih =>
    obtain ⟨hbefore, hlast⟩ := split_concat h
    rw [saidIn_concat]
    rcases ih hbefore with hsaid | ⟨more, hsaid⟩
    · rcases hlast hsaid with he | he
      · exact .inl (by rw [hsaid, he]; rfl)
      · exact .inr ⟨[], by rw [hsaid, he]; rfl⟩
    · exact .inr ⟨more ++ e.said crc, by rw [hsaid]; rfl⟩

lemma words (h : ∀ u e v, t = u ++ e :: v → Speaks p u e) :
    saidIn p.crc t = [] ∨ saidIn p.crc t = [idtFpdu p] ∨ ∃ more, saidIn p.crc t = idtFpdu p ::
    ownAck p :: more := by
  induction t using List.reverseRecOn with
  | nil => exact .inl rfl
  | append_singleton t e ih =>
    obtain ⟨hbefore, hlast⟩ := split_concat h
    rw [saidIn_concat]
    rcases ih hbefore with hsaid | hsaid | ⟨more, hsaid⟩
    · rcases hlast.1 hsaid with he | he
      · exact .inl (by rw [hsaid, he]; rfl)
      · exact .inr (.inl (by rw [hsaid, he]; rfl))
    · rcases hlast.2 hsaid with he | he
      · exact .inr (.inl (by rw [hsaid, he]; rfl))
      · exact .inr (.inr ⟨[], by rw [hsaid, he]; rfl⟩)
    · exact .inr (.inr ⟨more ++ e.said p.crc, by rw [hsaid]; rfl⟩)

lemma breakOff_first (turns : ℕ) (m : Machine) (close : Machine → Engine σ α) :
    Proc.Safe (fun (u : List (Exchange σ)) (e : Exchange σ) => saidIn p.crc u = [] → e.said p.crc = [] ∨
      e.said p.crc = [idtFpdu p]) (breakOff p turns m close) [] fun _ _ => True := by
  rw [breakOff, interruptData]
  rcases cancel_step (s := m.state) with ⟨s, hs, hcancel⟩ | hcancel
  · rw [interrupt_ok hcancel]
    intro r
    refine ⟨fun _ => ?_, ?_⟩
    · rw [said_entity_eq (idtFpdu_sound p)]
      exact carried_cases _ _
    · cases r with
      | error e => trivial
      | ok u =>
        refine (Proc.safe_unguarded (G := fun u => saidIn p.crc u = []) (fun u e h => ?_) _ ?_).mono
          fun _ _ _ => trivial
        · rw [saidIn_concat] at h
          exact (List.append_eq_nil_iff.mp h).1
        · rw [saidIn_concat]
          exact fun h => absurd ((said_entity_eq (σ := σ) (idtFpdu_sound p) p.crc (.ok u)).symm.trans h)
            (List.cons_ne_nil _ _)
  · rw [interrupt_refused hcancel]
    trivial

end Speech

section Sides

variable {p : DataParams} {t : List (Exchange σ)} {pending more : List Fpdu}
    {their ack : Fpdu} {α : Type}

def Answered (their ack : Fpdu) (said : List Fpdu) : Prop :=
  said = [] ∨ said = [their] ∨ ∃ more, said = their :: ack :: more

lemma Answered.coming {said : List Fpdu} (h : Answered their ack said)
    (ht : heardIn t <+: pending ++ said) :
    Coming pending their [] t ∨ ∃ more, Coming pending their (ack :: more) t := by
  rcases h with rfl | rfl | ⟨more, rfl⟩
  · rw [List.append_nil] at ht
    exact .inl (ht.trans (List.prefix_append pending [their]))
  · exact .inl ht
  · exact .inr ⟨more, ht⟩

lemma Coming.ack_next (h : Coming pending their (ack :: more) t) :
    heardIn t <+: pending ++ [their] ∨ pending ++ [their, ack] <+: heardIn t := by
  have hlong : pending ++ [their, ack] <+: pending ++ their :: ack :: more :=
    (List.prefix_append_right_inj pending).mpr ⟨more, rfl⟩
  rcases List.prefix_or_prefix_of_prefix h hlong with hshort | hlong
  · rw [List.append_cons, List.prefix_concat_iff] at hshort
    rcases hshort with heq | hshort
    · rw [heq, List.append_assoc]
      exact .inr List.prefix_rfl
    · exact .inl hshort
  · exact .inr hlong

lemma not_crossed_ack (hpending : ∀ f ∈ pending, crosses f = false) (htheir : their.kind = .idt)
    (h : heardIn t <+: pending ++ [their]) : ∀ f ∈ heardIn t, f.kind ≠ .ackIdt := by
  intro f hf hk
  rcases List.mem_append.mp (h.subset hf) with hf | hf
  · have hcrosses := hpending f hf
    simp [crosses, hk] at hcrosses
  · obtain rfl := List.mem_singleton.mp hf
    rw [htheir] at hk
    cases hk

lemma CrossEnds.rejected_iff {said : List Fpdu} {r : Except SessionError α}
    (hpending : ∀ f ∈ pending, crosses f = false) (htheir : their.kind = .idt)
    (hack : ack.kind = .ackIdt) (hsaid : Answered their ack said)
    (ht : heardIn t <+: pending ++ said)
    (hends : ∀ rest, Coming pending their rest t → CrossEnds pending their rest t r) :
    ¬ Rejected t r ↔ ∀ f ∈ heardIn t, f.kind ≠ .ackIdt := by
  rcases hsaid.coming ht with hcoming | ⟨more, hcoming⟩
  · rcases hends [] hcoming hcoming with ⟨-, hnot⟩ | ⟨hnot, -⟩ | ⟨x, more, heq, -⟩
    · exact absurd hcoming hnot
    · exact iff_of_true hnot (not_crossed_ack hpending htheir hcoming)
    · have hlen := hcoming.length_le
      rw [heq] at hlen
      simp at hlen
  · rcases hends _ hcoming hcoming with ⟨hrejected, hnot⟩ | ⟨hnot, hshort⟩ | ⟨x, more', heq, hx⟩
    · have hlong := hcoming.ack_next.resolve_left hnot
      exact iff_of_false (not_not.mpr hrejected) fun h => h ack (hlong.subset (by simp)) hack
    · exact iff_of_true hnot (not_crossed_ack hpending htheir hshort)
    · rw [Coming, heq, List.prefix_append_right_inj, List.cons_prefix_cons,
        List.cons_prefix_cons] at hcoming
      obtain ⟨-, rfl, -⟩ := hcoming
      exact absurd hack hx

end Sides

/-- The two ends of a data phase that interrupt it and close the transfer. -/
structure Collision where
  crc : Bool
  requester : Requester
  turns : ℕ
  rp : DataParams
  rm : Machine
  rdata : DataResult
  conn : Conn
  serverTurns : ℕ
  sp : DataParams
  sm : Machine
  sdata : DataResult
  agreed : rp.crc = crc ∧ sp.crc = crc
  broken : rdata.ending = .interrupted (cancelCode rp) .voluntaryStop false ∧
    sdata.ending = .interrupted (cancelCode sp) .voluntaryStop false

namespace Collision

variable (c : Collision)

def requesterSide : Engine σ (Diagnostic × Machine) :=
  breakOff c.rp c.turns c.rm (c.requester.closeTransfer c.turns c.rdata)

def serverSide : Engine τ (Diagnostic × Machine) :=
  breakOff c.sp c.serverTurns c.sm (Responder.closeTransfer c.serverTurns c.conn c.sdata)

/-- A run of both sides: what has been on its way when they interrupt is no interruption. -/
structure Run (toServer toRequester : List Fpdu) (d : Dialogue σ τ)
    (r r' : Except SessionError (Diagnostic × Machine)) :
    Prop where
  requester : Proc.Runs c.requesterSide d.requester (some r)
  server : Proc.Runs c.serverSide d.server (some r')
  inOrder : d.InOrder c.crc toServer toRequester
  before : (∀ f ∈ toServer, crosses f = false) ∧ ∀ f ∈ toRequester, crosses f = false

variable {c} {toServer toRequester : List Fpdu} {d : Dialogue σ τ}
    {r r' : Except SessionError (Diagnostic × Machine)}

lemma idtFpdu_kind (p : DataParams) : (idtFpdu p).kind = .idt := rfl

lemma ownAck_kind (p : DataParams) : (ownAck p).kind = .ackIdt := rfl

lemma requester_ends {pending rest : List Fpdu} {their : Fpdu}
    (hpending : ∀ f ∈ pending, crosses f = false) (htheir : their.kind = .idt) :
    Proc.Safe (Crossed c.rp pending their rest) (c.requesterSide : Engine σ _) []
    (CrossEnds pending their rest) :=
  breakOff_crossed hpending htheir (fun _ _ hm ht => requester_closes c.turns hm ht c.requester
    c.broken.1) c.turns c.rm

lemma server_ends {pending rest : List Fpdu} {their : Fpdu} (hpending : ∀ f ∈ pending, crosses f = false)
    (htheir : their.kind = .idt) :
    Proc.Safe (Crossed c.sp pending their rest) (c.serverSide : Engine τ _) []
    (CrossEnds pending their rest) :=
  breakOff_crossed hpending htheir (fun _ _ hm ht => responder_closes c.serverTurns hm ht c.conn c.sdata)
    c.serverTurns c.sm

lemma answered {p : DataParams} {t : List (Exchange σ)} {pending said : List Fpdu} {their : Fpdu}
    (hspeaks : ∀ rest, Coming pending their rest t → ∀ u e v, t = u ++ e :: v → Speaks p u e)
    (hsaid : said = [] ∨ ∃ more, said = their :: more) (ht : heardIn t <+: pending ++ said) :
    Answered (idtFpdu p) (ownAck p) (saidIn p.crc t) := by
  rcases hsaid with rfl | ⟨more, rfl⟩
  · rw [List.append_nil] at ht
    exact words (hspeaks [] (ht.trans (List.prefix_append _ _)))
  · exact words (hspeaks more ht)

lemma Run.words (h : c.Run toServer toRequester d r r') :
    Answered (idtFpdu c.rp) (ownAck c.rp) (saidIn c.crc d.requester) ∧
      Answered (idtFpdu c.sp) (ownAck c.sp) (saidIn c.crc d.server) := by
  obtain ⟨hrequester, hserver⟩ := h.inOrder.heard_first
  obtain ⟨hrcrc, hscrc⟩ := c.agreed
  have hfirst := first_words ((breakOff_first c.turns c.rm _).runs h.requester).1
  have hfirst' := first_words ((breakOff_first c.serverTurns c.sm _).runs h.server).1
  rw [hrcrc] at hfirst
  rw [hscrc] at hfirst'
  refine ⟨?_, ?_⟩
  · have hanswered := answered (p := c.rp) (fun rest hcoming u e v hd => ?_) hfirst' hrequester
    · rwa [hrcrc] at hanswered
    · rw [hd] at hcoming
      exact ((requester_ends h.before.2 (idtFpdu_kind c.sp)).runs h.requester).1 u e v hd hcoming.left
  · have hanswered := answered (p := c.sp) (fun rest hcoming u e v hd => ?_) hfirst hserver
    · rwa [hscrc] at hanswered
    · rw [hd] at hcoming
      exact ((server_ends h.before.1 (idtFpdu_kind c.rp)).runs h.server).1 u e v hd hcoming.left

lemma Run.requester_iff (h : c.Run toServer toRequester d r r') :
    ¬ Rejected d.requester r ↔ ∀ f ∈ heardIn d.requester, f.kind ≠ .ackIdt := by
  refine CrossEnds.rejected_iff h.before.2 (idtFpdu_kind c.sp) (ownAck_kind c.sp) h.words.2
    h.inOrder.heard_first.1 fun _ _ => ?_
  exact ((requester_ends h.before.2 (idtFpdu_kind c.sp)).runs h.requester).2 r rfl

lemma Run.server_iff (h : c.Run toServer toRequester d r r') :
    ¬ Rejected d.server r' ↔ ∀ f ∈ heardIn d.server, f.kind ≠ .ackIdt := by
  refine CrossEnds.rejected_iff h.before.1 (idtFpdu_kind c.rp) (ownAck_kind c.rp) h.words.1
    h.inOrder.heard_first.2 fun _ _ => ?_
  exact ((server_ends h.before.1 (idtFpdu_kind c.rp)).runs h.server).2 r' rfl

/-- Both machines leave a collision in the same state, but neither the server in that state nor the
requester once it has sent its CRF takes an ACK(IDT): a side goes on without a protocol error if and only
if the ACK(IDT) of the other side never reaches it. -/
theorem protocol_free_iff (h : c.Run toServer toRequester d r r') :
    (∀ u v m, d.requester = u ++ v → Proc.Runs (interruptData c.rp c.turns c.rm) u (some (.ok m)) →
      m.state = .of02) ∧
      (∀ u v m, d.server = u ++ v → Proc.Runs (interruptData c.sp c.serverTurns c.sm) u (some (.ok m)) →
        m.state = .of02) ∧
        (¬ Rejected d.requester r ∧ ¬ Rejected d.server r' ↔
          (∀ f ∈ heardIn d.requester, f.kind ≠ .ackIdt) ∧ ∀ f ∈ heardIn d.server, f.kind ≠ .ackIdt) := by
  obtain ⟨hrequester, hserver⟩ := h.inOrder.heard_first
  obtain ⟨hwords, hwords'⟩ := h.words
  have hreach {ρ : Type} {p : DataParams} {turns : ℕ} {machine m : Machine} {pending said : List Fpdu}
      {their ack : Fpdu} {t u v : List (Exchange ρ)} (hpending : ∀ f ∈ pending, crosses f = false)
      (htheir : their.kind = .idt) (hsaid : Answered their ack said) (ht : heardIn t <+: pending ++ said)
        (hsplit : t = u ++ v)
      (hruns : Proc.Runs (interruptData p turns machine) u (some (.ok m))) : m.state = .of02 := by
    have hend (rest : List Fpdu) (hcoming : Coming pending their rest t) : m.state = .of02 := by
      rw [hsplit] at hcoming
      exact (((interruptData_crossed hpending htheir turns machine).runs hruns).2 _ rfl hcoming.left).1
    rcases hsaid.coming ht with hcoming | ⟨more, hcoming⟩
    · exact hend _ hcoming
    · exact hend _ hcoming
  refine ⟨fun u v m => ?_, fun u v m => ?_, and_congr h.requester_iff h.server_iff⟩
  · exact hreach h.before.2 (idtFpdu_kind c.sp) hwords' hrequester
  · exact hreach h.before.1 (idtFpdu_kind c.rp) hwords hserver

def crossedCollision : Collision where
  crc := false
  requester := WriteTransfer.sampleWrite.requester
  turns := 2
  rp := WriteTransfer.sampleWrite.requester.dataParams .none 2048 0
  rm := ⟨.requester, .tde02A⟩
  rdata := ⟨.interrupted .cancelByRequester .voluntaryStop false, 0, 0, 0⟩
  conn := WriteTransfer.sampleWrite.conn
  serverTurns := 2
  sp := Responder.dataParams WriteTransfer.sampleWrite.conn .none 2048 0
  sm := ⟨.server, .tde02B⟩
  sdata := ⟨.interrupted .cancelByServer .voluntaryStop false, 0, 0, 0⟩
  agreed := ⟨rfl, rfl⟩
  broken := ⟨rfl, rfl⟩

def crossedLink (p : DataParams) (later : ℕ) : ℕ → (q : Call VecSource) → Call.Result q :=
  world [] sampleAccept Responder.sampleCreate
    (WriteTransfer.arriving [(1, idtFpdu p), (later, ownAck p)]) (fun _ => .ok ())
    (.ok ())

@[irreducible] def crossedRequester :
    List (Exchange VecSource) × Option (Except SessionError (Diagnostic × Machine)) :=
  Proc.play (crossedLink crossedCollision.sp 4) 0 crossedCollision.requesterSide

@[irreducible] def crossedServer :
    List (Exchange VecSource) × Option (Except SessionError (Diagnostic × Machine)) :=
  Proc.play (crossedLink crossedCollision.rp 3) 0 crossedCollision.serverSide

def crossedDialogue : Dialogue VecSource VecSource :=
  .inTurns [(1, 1), (2, 2), (2, 1)] crossedRequester.1 crossedServer.1

lemma crossed_run : ∃ r r', crossedCollision.Run [] [] crossedDialogue r r' := by
  have hr : crossedRequester.2.isSome = true := by decide +kernel
  have hr' : crossedServer.2.isSome = true := by decide +kernel
  obtain ⟨r, hr⟩ := Option.isSome_iff_exists.mp hr
  obtain ⟨r', hr'⟩ := Option.isSome_iff_exists.mp hr'
  refine ⟨r, r', ⟨?_, ?_, by decide +kernel, by simp, by simp⟩⟩
  · rw [crossedDialogue, Dialogue.inTurns_requester, ← hr, crossedRequester]
    exact Proc.play_runs _ 0 _
  · rw [crossedDialogue, Dialogue.inTurns_server, ← hr', crossedServer]
    exact Proc.play_runs _ 0 _

theorem protocol_free_iff_crossed :
    ∃ d : Dialogue VecSource VecSource, ∃ r r', crossedCollision.Run [] [] d r r' ∧
      (¬ Rejected d.requester r ∧ ¬ Rejected d.server r' ↔
        (∀ f ∈ heardIn d.requester, f.kind ≠ .ackIdt) ∧ ∀ f ∈ heardIn d.server, f.kind ≠ .ackIdt) := by
  obtain ⟨r, r', hrun⟩ := crossed_run
  exact ⟨crossedDialogue, r, r', hrun, (protocol_free_iff hrun).2.2⟩

theorem crossed_rejected :
    ∃ d : Dialogue VecSource VecSource, ∃ r r', crossedCollision.Run [] [] d r r' ∧
    Rejected d.requester r ∧
      Rejected d.server r' := by
  obtain ⟨r, r', hrun⟩ := crossed_run
  have hack : (crossedDialogue.requester.any fun e => e.heard.any fun f => f.kind = .ackIdt) = true := by
    rw [crossedDialogue, Dialogue.inTurns_requester]
    decide +kernel
  have hack' : (crossedDialogue.server.any fun e => e.heard.any fun f => f.kind = .ackIdt) = true := by
    rw [crossedDialogue, Dialogue.inTurns_server]
    decide +kernel
  have hcrossed {t : List (Exchange VecSource)}
      (h : (t.any fun e => e.heard.any fun f => f.kind = .ackIdt) = true) :
      ¬ ∀ f ∈ heardIn t, f.kind ≠ .ackIdt := by
    intro hnone
    obtain ⟨e, he, hf⟩ := List.any_eq_true.mp h
    obtain ⟨f, hf, hk⟩ := List.any_eq_true.mp hf
    exact hnone f (List.mem_flatMap.mpr ⟨e, he, hf⟩) (of_decide_eq_true hk)
  refine ⟨crossedDialogue, r, r', hrun, ?_, ?_⟩
  · exact not_not.mp fun h => hcrossed hack (hrun.requester_iff.mp h)
  · exact not_not.mp fun h => hcrossed hack' (hrun.server_iff.mp h)

end Collision

end PesitWizard.Io
