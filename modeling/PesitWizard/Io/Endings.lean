import PesitWizard.Io.TransferEvents

/-! How a server that receives data comes to the end of it, and in which state of the tables. -/

namespace PesitWizard.Io

open PesitWizard.Core Library Engine

variable {σ : Type}

namespace ReceiveData

/-- The states that the phases of a server go with. A data phase that comes to the end of the data takes
a reason: `ends` if it has completed, `complains` if the sender has reported an error. -/
def Settled (ends complains : Prop) : RecvPhase → Prop
  | .receiving s => s.machine.state = .tde02B
  | .awaitingAckResyn s => s.machine.state = .tde03B
  | .interrupting s => s.machine.state = .tde05B
  | .ended m res =>
    match res.ending with
    | .completed => m.state = .tde07B ∧ ends
    | .endedWithError _ => complains
    | .interrupted _ _ _ => m.state = .of02 ∨ m.state = .tde05B
  | .failed _ => True

abbrev Settles (ends complains : Prop) (x : Io.Run RecvPhase) : Prop :=
  x.Meets (fun _ => True) fun _ phase => Settled ends complains phase

section Settles

variable {ends complains : Prop}

lemma settles_pure {phase : RecvPhase} (h : Settled ends complains phase) :
    Settles ends complains (pure phase) := h

lemma settles_bind {α : Type} {x : Io.Run α} {k : α → Io.Run RecvPhase} (P : α → Prop)
    (hx : ∀ a, x.result = .ok a → P a) (hk : ∀ a, P a → Settles ends complains (k a)) :
    Settles ends complains (x >>= k) := by
  obtain ⟨ws, r⟩ := x
  cases r with
  | error e => trivial
  | ok a =>
    have ha := hk a (hx a rfl)
    rw [Act.ok_bind]
    exact ha

lemma settles_any {α : Type} {x : Io.Run α} {k : α → Io.Run RecvPhase}
    (hk : ∀ a, Settles ends complains (k a)) :
    Settles ends complains (x >>= k) :=
  settles_bind (fun _ => True) (fun _ _ => trivial) fun a _ => hk a

lemma settles_lift {α : Type} {r : Except SessionError α} {k : α → Io.Run RecvPhase}
    (hk : ∀ a, r = .ok a → Settles ends complains (k a)) : Settles ends complains (Act.lift r >>= k) :=
  settles_bind (fun a => r = .ok a) (fun _ h => h) hk

lemma takeArticle_machine {s s' : RecvState} {a : Bytes} (h : (takeArticle s a).result = .ok s') :
    s'.machine = s.machine := by
  rw [takeArticle] at h
  cases hd : s.decompressor with
  | none =>
    simp only [hd] at h
    obtain rfl := Except.ok.inj h
    rfl
  | some d =>
    simp only [hd] at h
    cases hdec : d.decompress a with
    | error e =>
      rw [hdec] at h
      cases h
    | ok y =>
      rw [hdec] at h
      obtain rfl := Except.ok.inj h
      rfl

lemma takeArticles_machine {s s' : RecvState} {as : List Bytes}
    (h : (takeArticles s as).result = .ok s') :
    s'.machine = s.machine := by
  induction as generalizing s with
  | nil =>
    obtain rfl := Except.ok.inj h
    rfl
  | cons a as ih =>
    rw [takeArticles] at h
    cases ht : takeArticle s a with
    | mk ws r =>
      cases r with
      | error e =>
        rw [ht, Act.error_bind] at h
        cases h
      | ok s₁ =>
        rw [ht, Act.ok_bind] at h
        exact (ih h).trans (takeArticle_machine (by rw [ht]))

lemma received_step {m m' : Machine} {f : Fpdu} (h : applyReceived m f = .ok m') :
    m.state.apply (.received f.kind f.isNegative) = .ignore ∧ m' = m ∨
      m.state.apply (.received f.kind f.isNegative) = .next m'.state := by
  rw [applyReceived] at h
  split at h
  · cases h
  · rw [Machine.apply] at h
    cases hs : m.state.apply (.received f.kind f.isNegative) with
    | error => simp [hs] at h
    | ignore =>
      simp only [hs] at h
      exact .inl ⟨rfl, (Except.ok.inj h).symm⟩
    | next s =>
      simp only [hs] at h
      obtain rfl := Except.ok.inj h
      exact .inr rfl

lemma received_next {m m' : Machine} {f : Fpdu} (h : applyReceived m f = .ok m')
    (hm : m.state.apply (.received f.kind f.isNegative) ≠ .ignore) :
    m.state.apply (.received f.kind f.isNegative) = .next m'.state := by
  rcases received_step h with ⟨hignore, -⟩ | hnext
  · exact absurd hignore hm
  · exact hnext

lemma received_kind {m m' : Machine} {f : Fpdu} (h : applyReceived m f = .ok m') : f.kind ≠ .abort := by
  intro hf
  rw [applyReceived, if_pos hf] at h
  cases h

lemma tde02B_ignore {kind : FpduKind} {n : Bool} : State.tde02B.apply (.received kind n) ≠ .ignore := by
  cases kind <;> cases n <;> intro h <;> cases h

lemma tde02B_next {kind : FpduKind} {n : Bool} {s : State}
    (h : State.tde02B.apply (.received kind n) = .next s) (habort : kind ≠ .abort) :
    (kind.isData = true ∨ kind = .syn) ∧ s = .tde02B ∨ kind = .dtfEnd ∧ s = .tde07B ∨
    kind = .resyn ∧ s = .tde04B ∨
      kind = .idt ∧ s = .tde06B := by
  cases kind <;> cases n <;> cases h <;> first | exact absurd rfl habort | simp [FpduKind.isData]

lemma tde03B_ackResyn {n : Bool} {s : State} (h : State.tde03B.apply (.received .ackResyn n) = .next s) :
    s = .tde02B := by
  cases n <;> cases h
  rfl

lemma tde03B_ackResyn_ignore {n : Bool} : State.tde03B.apply (.received .ackResyn n) ≠ .ignore := by
  cases n <;> intro h <;> cases h

lemma tde05B_next {kind : FpduKind} {n : Bool} {s : State}
    (h : State.tde05B.apply (.received kind n) = .next s) (habort : kind ≠ .abort) :
    kind = .ackIdt ∧ s = .of02 ∨ kind = .idt ∧ s = .tde06B := by
  cases kind <;> cases n <;> cases h <;> first | exact absurd rfl habort | simp

lemma applied_next {m m' : Machine} {e : LocalEvent} {s : State} (h : applyLocal m e = .ok m')
    (hm : m.state.apply (.ofLocal e) = .next s) : m'.state = s := by
  rw [applyLocal_next hm] at h
  obtain rfl := Except.ok.inj h
  rfl

lemma sendFpdu_settles {p : DataParams} {f : Fpdu} {k : Unit → Io.Run RecvPhase}
    (hk : Settles ends complains (k ())) : Settles ends complains (sendFpdu p.crc f >>= k) :=
  settles_any fun _ => hk

variable (p : DataParams) (store : MemoryCheckpoints) (pos : Position)

lemma handle_settles {s : RecvState} (hs : s.machine.state = .tde02B) (f : Fpdu) :
    Settles (f.kind = .dtfEnd ∧ f.diagOrOk.isOk = true) (f.kind = .dtfEnd ∧ f.diagOrOk.isOk = false)
      (handle p store pos s f) := by
  rw [handle]
  apply settles_lift
  intro m hm
  have hnext := received_next hm (by rw [hs]; exact tde02B_ignore)
  rw [hs] at hnext
  have hcases := tde02B_next hnext (received_kind hm)
  split
  · rename_i hdata
    have hm' : m.state = .tde02B := by
      rcases hcases with ⟨-, h⟩ | ⟨hk, -⟩ | ⟨hk, -⟩ | ⟨hk, -⟩
      · exact h
      all_goals
        rw [hk] at hdata
        cases hdata
    apply settles_lift
    rintro ⟨articles, r⟩ -
    refine settles_bind (fun s' => s'.machine.state = .tde02B) (fun s' hs' => ?_)
      fun s' hs' => settles_pure hs'
    rw [takeArticles_machine hs']
    exact hm'
  · split
    · rename_i hk
      have hm' : m.state = .tde02B := by simpa [hk, FpduKind.isData] using hcases
      apply settles_any
      intro _
      split
      · apply sendFpdu_settles
        apply settles_lift
        intro m' hm''
        exact settles_pure (applied_next hm'' (by rw [hm']; rfl))
      · exact settles_pure hm'
    · rename_i hk
      have hm' : m.state = .tde07B := by simpa [hk, FpduKind.isData] using hcases
      apply settles_pure
      by_cases hdiag : f.diagOrOk.isOk = true
      · simp only [Settled, result, if_pos hdiag]
        exact ⟨hm', hk, hdiag⟩
      · simp only [Settled, result, if_neg hdiag]
        exact ⟨hk, by simpa using hdiag⟩
    · rename_i hk
      have hm' : m.state = .tde04B := by simpa [hk, FpduKind.isData] using hcases
      apply settles_any
      intro _
      apply sendFpdu_settles
      apply settles_lift
      intro m' hm''
      exact settles_pure (applied_next hm'' (by rw [hm']; rfl))
    · rename_i hk
      have hm' : m.state = .tde06B := by simpa [hk, FpduKind.isData] using hcases
      apply sendFpdu_settles
      apply settles_lift
      intro m' hm''
      exact settles_pure (.inl (applied_next hm'' (by rw [hm']; rfl)))
    · rename_i hdata _ hsyn hend hresyn hidt
      rcases hcases with ⟨hk | hk, -⟩ | ⟨hk, -⟩ | ⟨hk, -⟩ | ⟨hk, -⟩
      · exact absurd hk hdata
      · exact absurd hk hsyn
      · exact absurd hk hend
      · exact absurd hk hresyn
      · exact absurd hk hidt

lemma handleError_settles {s : RecvState} (hs : s.machine.state = .tde02B) (e : SessionError) :
    Settles ends complains (handleError p s e) := by
  cases e with
  | decode err =>
    rw [handleError]
    split
    · apply settles_lift
      intro m hm
      apply sendFpdu_settles
      exact settles_pure (applied_next hm (by rw [hs]; rfl))
    · trivial
  | _ => trivial

lemma awaitAckResyn_settles {s : RecvState} (hs : s.machine.state = .tde03B) (f : Fpdu) :
    Settles ends complains (awaitAckResyn p store s f) := by
  rw [awaitAckResyn]
  split
  · rename_i hk
    apply settles_lift
    intro m hm
    have hnext := received_next hm (by rw [hs, hk]; exact tde03B_ackResyn_ignore)
    rw [hs, hk] at hnext
    have hm' := tde03B_ackResyn hnext
    dsimp only
    split
    · apply settles_any
      intro _
      exact settles_pure hm'
    · split
      · apply settles_any
        intro _
        exact settles_pure hm'
      · trivial
  · split
    · rename_i hk
      apply settles_lift
      intro m hm
      exact absurd hk (received_kind hm)
    · exact settles_pure hs

/-- What an end that has sent an IDT makes of what it receives: it waits on, or the
interruption is over. -/
lemma interruptRecv_settles {m : Machine} (hm : m.state = .tde05B) (f : Fpdu) :
    (interruptRecv p m f).Meets (fun _ => True) fun _ v =>
      if v.2 then v.1.state = .of02 ∨ v.1.state = .tde05B else v.1.state = .tde05B := by
  rw [interruptRecv]
  refine Act.Meets.bind (Q := fun _ m' => applyReceived m f = .ok m')
    (Act.meets_lift trivial fun _ h => h) ?_
  intro ws m' hm'
  have hstep := received_step hm'
  rw [hm] at hstep
  have hkind := received_kind hm'
  split
  · rename_i hk
    rcases hstep with ⟨-, rfl⟩ | hnext
    · exact .inr hm
    · rcases tde05B_next hnext hkind with ⟨-, h⟩ | ⟨h, -⟩
      · exact .inl h
      · exact absurd (hk.symm.trans h) (by decide)
  · rename_i hk
    have hstate : m'.state = .tde06B := by
      rcases hstep with ⟨hignore, -⟩ | hnext
      · have hpositive : f.isNegative = false := by simp [Fpdu.isNegative, hk, FpduKind.isAck]
        rw [hk, hpositive] at hignore
        cases hignore
      · rcases tde05B_next hnext hkind with ⟨h, -⟩ | ⟨-, h⟩
        · exact absurd (hk.symm.trans h) (by decide)
        · exact h
    refine Act.Meets.bind (Q := fun _ _ => True) ?_ ?_
    · rw [Act.Meets]
      split <;> trivial
    · intro _ _ _
      rw [applyLocal_next (s := .of02) (by rw [hstate]; rfl)]
      exact .inl rfl
  · rename_i hack hidt
    rcases hstep with ⟨-, rfl⟩ | hnext
    · exact hm
    · rcases tde05B_next hnext hkind with ⟨h, -⟩ | ⟨h, -⟩
      · exact absurd h hack
      · exact absurd h hidt

lemma interrupted_settles {s : RecvState} (hs : s.machine.state = .tde05B) (f : Fpdu) :
    Settles ends complains (interrupted p s f) := by
  rw [interrupted]
  refine settles_bind (fun v : Machine × Bool =>
    if v.2 then v.1.state = .of02 ∨ v.1.state = .tde05B else v.1.state = .tde05B) ?_ ?_
  · exact fun v hv => (interruptRecv_settles p hs f).ok hv
  · rintro ⟨m, done⟩ hm
    cases done with
    | true => exact settles_pure hm
    | false => exact settles_pure hm

lemma cancel_settles {s : RecvState} (hs : s.machine.state = .tde02B) :
    Settles ends complains (cancel p s) := by
  rw [cancel]
  refine settles_bind (fun m : Machine => m.state = .tde05B) ?_ fun m hm => settles_pure hm
  intro m hm
  rw [interrupt, applyLocal_next (s := .tde05B) (by rw [hs]; rfl)] at hm
  cases hsend : sendFpdu p.crc (Builder.idt p.peerId .voluntaryStop (cancelCode p)) with
  | mk ws r =>
    cases r with
    | error e =>
      rw [Act.lift_ok_bind, hsend, Act.error_bind] at hm
      cases hm
    | ok _ =>
      rw [Act.lift_ok_bind, hsend, Act.ok_bind] at hm
      obtain rfl := Except.ok.inj hm
      rfl

/-- The reception of the end of the data, without a complaint of the sender or with one. -/
def EndsData (r : Except SessionError Fpdu) : Prop :=
  ∃ f, r = .ok f ∧ f.kind = .dtfEnd ∧ f.diagOrOk.isOk = true

def Complains (r : Except SessionError Fpdu) : Prop :=
  ∃ f, r = .ok f ∧ f.kind = .dtfEnd ∧ f.diagOrOk.isOk = false

lemma Settled.mono {ends' complains' : Prop} {phase : RecvPhase} (h : Settled ends complains phase)
    (hends : ends → ends') (hcomplains : complains → complains') : Settled ends' complains' phase := by
  cases phase with
  | ended m res =>
    rw [Settled] at h ⊢
    cases hending : res.ending with
    | completed =>
      simp only [hending] at h ⊢
      exact h.imp_right hends
    | endedWithError d =>
      simp only [hending] at h ⊢
      exact hcomplains h
    | interrupted code d byPeer =>
      simp only [hending] at h ⊢
      exact h
  | _ => exact h

lemma react_settles {phase : RecvPhase} (hphase : Settled ends complains phase)
    {r : Except SessionError Fpdu} {x : Io.Run RecvPhase} (h : react p store pos phase r = some x) :
    Settles (EndsData r) (Complains r) x := by
  cases phase with
  | receiving s =>
    cases r with
    | ok f =>
      obtain rfl := Option.some.inj h
      refine (handle_settles p store pos hphase f).mono fun _ phase hp => hp.mono ?_ ?_
      · exact fun hf => ⟨f, rfl, hf⟩
      · exact fun hf => ⟨f, rfl, hf⟩
    | error e =>
      obtain rfl := Option.some.inj h
      exact handleError_settles p hphase e
  | awaitingAckResyn s =>
    cases r with
    | error e =>
      obtain rfl := Option.some.inj h
      trivial
    | ok f =>
      obtain rfl := Option.some.inj h
      exact awaitAckResyn_settles p store hphase f
  | interrupting s =>
    cases r with
    | error e =>
      obtain rfl := Option.some.inj h
      trivial
    | ok f =>
      obtain rfl := Option.some.inj h
      exact interrupted_settles p hphase f
  | ended m res => cases h
  | failed e => cases h

end Settles

section Engine

variable {t : List (Exchange σ)}

abbrev Gives {α : Type} (y : Engine σ α) (P : List (Exchange σ) → α → Prop)
    (t : List (Exchange σ)) : Prop :=
  Proc.Safe (fun _ _ => True) y t fun t' r => ∀ a, r = .ok a → P t' a

lemma gives_bind {α β : Type} {y : Engine σ α} {k : α → Engine σ β} {P : List (Exchange σ) → α → Prop}
    {P' : List (Exchange σ) → β → Prop} (hy : Gives y P t) (hk : ∀ t a, P t a → Gives (k a) P' t) :
    Gives (y >>= k) P' t :=
  Proc.Yields.bind hy hk

lemma gives_any {α β : Type} {y : Engine σ α} {k : α → Engine σ β} {P' : List (Exchange σ) → β → Prop}
    (hk : ∀ w a, Gives (k a) P' (t ++ w)) : Gives (y >>= k) P' t := by
  refine (Proc.safe_any y t).ran.bind ?_ fun _ _ _ => error_ok_elim
  rintro t' a ⟨-, w, rfl, -⟩
  exact hk w a

lemma gives_pure {α : Type} {a : α} {P : List (Exchange σ) → α → Prop} (h : P t a) :
    Gives (pure a : Engine σ α) P t :=
  Proc.yields_pure h

variable (p : DataParams) (report : Progress → Engine σ Unit) {I : List (Exchange σ) → RecvPhase → Prop}

/-- What the phases of a reception keep, whatever is exchanged on the way, holds at its end. -/
lemma receiveData_keeps (turns : ℕ) {machine : Machine} (start : Checkpoint)
    (happend : ∀ t w phase, I t phase → I (t ++ w) phase)
    (hcancel : ∀ t s, I t (.receiving s) → ∀ phase, (cancel p s).result = .ok phase → I t phase)
    (hreact : ∀ t store pos phase r x, I t phase → react p store pos phase r = some x →
      ∀ next, x.result = .ok next → I (t ++ [⟨.recv, r⟩]) next)
    (hstart : I t (.receiving (ReceiveData.start p machine start))) :
    Gives (receiveData p report turns machine start) (fun t' v => I t' (.ended v.1 v.2)) t := by
  have hperform {t : List (Exchange σ)} {x : Io.Run RecvPhase}
      (h : ∀ phase, x.result = .ok phase → I t phase) :
      Gives (perform x : Engine σ RecvPhase) I t := by
    refine gives_any fun w _ => ?_
    exact fun phase hphase => happend t w phase (h phase hphase)
  have hnext {t : List (Exchange σ)} {phase : RecvPhase} (h : I t phase) :
      Gives (takeNext p report phase) I t := by
    intro r
    refine ⟨trivial, gives_any (y := checkpoints) fun w₁ store => gives_any fun w₂ pos => ?_⟩
    cases hr : react p store pos phase r with
    | none =>
      rw [List.append_assoc, List.append_assoc]
      exact gives_pure (happend t _ phase h)
    | some x =>
      have hx : ∀ next, x.result = .ok next → I (t ++ [⟨.recv, r⟩] ++ w₁ ++ w₂) next := by
        intro next hn
        rw [List.append_assoc]
        exact happend _ _ next (hreact t store pos phase r x h hr next hn)
      exact gives_bind (hperform hx) fun t₄ next hn => gives_any fun w₃ _ =>
        gives_pure (happend t₄ w₃ next hn)
  refine Proc.Safe.loop I ?_ turns hstart
  intro t phase hphase
  have hturn {y : Engine σ RecvPhase} {t : List (Exchange σ)} (hy : Gives y I t) :
      Proc.Safe (fun _ _ => True)
      (do pure (.inl (← y)) : Engine σ (RecvPhase ⊕ (Machine × DataResult))) t
        (Proc.TurnPost I fun t' r => ∀ a, r = .ok a → I t' (.ended a.1 a.2)) :=
    hy.bind (fun _ a ha => ha a rfl) fun _ _ _ => error_ok_elim
  cases phase with
  | ended m res =>
    rintro ⟨m', res'⟩ h
    obtain ⟨rfl, rfl⟩ := Prod.mk.inj (Except.ok.inj h)
    exact hphase
  | failed e => exact error_ok_elim
  | receiving s =>
    intro b
    refine ⟨trivial, ?_⟩
    have hphase' := happend t [⟨.cancelled, b⟩] _ hphase
    cases b with
    | true => exact hturn (hperform (hcancel _ s hphase'))
    | false => exact hturn (hnext hphase')
  | awaitingAckResyn s => exact hturn (hnext hphase)
  | interrupting s => exact hturn (hnext hphase)

end Engine

end ReceiveData

end PesitWizard.Io
