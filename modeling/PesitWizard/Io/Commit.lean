import PesitWizard.Io.Endings

/-! When the server commits the file that it receives, and forgets its checkpoints. -/

namespace PesitWizard.Io

open PesitWizard.Core Library Engine

variable {σ : Type}

namespace ReceiveData

/-- The state of a server that receives data, that has asked for a resynchronisation, and that has
completed, which takes a reason. -/
def Level (reason : Prop) : RecvPhase → Prop
  | .receiving s => s.machine.state = .tde02B
  | .awaitingAckResyn s => s.machine.state = .tde03B
  | .ended m res => res.ending = .completed → m.state = .tde07B ∧ reason
  | _ => True

abbrev Leads (reason : Prop) (x : Io.Run RecvPhase) : Prop :=
  x.Meets (fun _ => True) fun _ phase => Level reason phase

section Leads

variable {reason : Prop}

lemma leads_pure {phase : RecvPhase} (h : Level reason phase) : Leads reason (pure phase) := h

lemma leads_bind {α : Type} {x : Io.Run α} {k : α → Io.Run RecvPhase} (P : α → Prop)
    (hx : ∀ a, x.result = .ok a → P a) (hk : ∀ a, P a → Leads reason (k a)) :
    Leads reason (x >>= k) := by
  obtain ⟨ws, r⟩ := x
  cases r with
  | error e => trivial
  | ok a =>
    have ha := hk a (hx a rfl)
    rw [Act.ok_bind]
    exact ha

lemma leads_any {α : Type} {x : Io.Run α} {k : α → Io.Run RecvPhase} (hk : ∀ a, Leads reason (k a)) :
    Leads reason (x >>= k) :=
  leads_bind (fun _ => True) (fun _ _ => trivial) fun a _ => hk a

lemma Settled.level {complains : Prop} {phase : RecvPhase} (h : Settled reason complains phase) :
    Level reason phase := by
  cases phase with
  | ended m res =>
    intro hcompleted
    rw [Settled] at h
    simp only [hcompleted] at h
    exact h
  | interrupting s => trivial
  | _ => exact h

lemma Settles.leads {complains : Prop} {x : Io.Run RecvPhase} (h : Settles reason complains x) :
    Leads reason x :=
  h.mono fun _ _ hp => hp.level

lemma react_leads {p : DataParams} {store : MemoryCheckpoints} {pos : Position} {phase : RecvPhase}
    (hphase : Level reason phase) {r : Except SessionError Fpdu} {x : Io.Run RecvPhase}
    (h : react p store pos phase r = some x) : Leads (EndsData r) x := by
  cases phase with
  | receiving s =>
    cases r with
    | ok f =>
      obtain rfl := Option.some.inj h
      refine (handle_settles p store pos hphase f).leads.mono fun _ phase hp => ?_
      cases phase with
      | ended m res => exact fun hcompleted => (hp hcompleted).imp_right fun hf => ⟨f, rfl, hf⟩
      | _ => exact hp
    | error e =>
      obtain rfl := Option.some.inj h
      exact Settles.leads (show Settles _ False _ from handleError_settles p hphase e)
  | awaitingAckResyn s =>
    cases r with
    | error e =>
      obtain rfl := Option.some.inj h
      trivial
    | ok f =>
      obtain rfl := Option.some.inj h
      exact Settles.leads (show Settles _ False _ from awaitAckResyn_settles p store hphase f)
  | interrupting s =>
    cases r with
    | error e =>
      obtain rfl := Option.some.inj h
      trivial
    | ok f =>
      obtain rfl := Option.some.inj h
      rw [interrupted]
      apply leads_any
      rintro ⟨m, done⟩
      dsimp only
      split
      · exact leads_pure fun h => by cases h
      · trivial
  | ended m res => cases h
  | failed e => cases h

lemma cancel_leads (p : DataParams) (s : RecvState) : Leads reason (cancel p s) := by
  rw [cancel]
  apply leads_any
  intro m
  trivial

end Leads

section Engine

variable {t : List (Exchange σ)}

/-- A DTF.END without a complaint has been received. -/
def DataEnded (t : List (Exchange σ)) : Prop := ∃ r, EndsData r ∧ (⟨.recv, r⟩ : Exchange σ) ∈ t

def Phased (t : List (Exchange σ)) (phase : RecvPhase) : Prop := Level (DataEnded t) phase

lemma Phased.append {phase : RecvPhase} (h : Phased t phase) (w : List (Exchange σ)) :
    Phased (t ++ w) phase := by
  cases phase with
  | ended m res =>
    intro hcompleted
    obtain ⟨hm, r, hends, hmem⟩ := h hcompleted
    exact ⟨hm, r, hends, List.mem_append_left w hmem⟩
  | _ => exact h

lemma receiveData_gives (p : DataParams) (report : Progress → Engine σ Unit) (turns : ℕ)
    {machine : Machine} (hm : machine.state = .tde02B) (start : Checkpoint) :
    Gives (receiveData p report turns machine start)
      (fun t' v => v.2.ending = .completed → v.1.state = .tde07B ∧ DataEnded t') t := by
  refine receiveData_keeps p report (I := Phased) turns start (fun t w phase h => h.append w) ?_ ?_ hm
  · intro t s _ phase hphase
    have hcancel : Leads False (cancel p s) := cancel_leads p s
    cases phase with
    | ended m res => exact fun hcompleted => (hcancel.ok hphase hcompleted).2.elim
    | _ => exact hcancel.ok hphase
  · intro t store pos phase r x h hreact next hnext
    have hlevel := (react_leads h hreact).ok hnext
    cases next with
    | ended m res => exact fun hcompleted => (hlevel hcompleted).imp_right fun hr => ⟨r, hr, by simp⟩
    | _ => exact hlevel

end Engine

end ReceiveData

namespace Exchange

/-- The handler accepts a CREATE. -/
def Creates (e : Exchange σ) : Prop := ∃ info spec a, e = ⟨.create info spec, Except.ok (ε := Refusal) a⟩

/-- A checkpoint is recorded. -/
def Records (e : Exchange σ) : Prop := ∃ cp r, e = ⟨.effect (.record cp), r⟩

end Exchange

namespace Responder

open Exchange

/-- The end of a transfer without a complaint: TRANS.END with the right counts, CRF and DESELECT, each of
them acknowledged. -/
def Closing (peerId : UInt8) (data : DataResult) (t : List (Exchange σ)) : Prop :=
  ∃ transEnd crf deselect,
    t = [⟨.recv, .ok transEnd⟩,
        ⟨.send (Builder.ackTransEnd peerId .ok (some data.dataBytes) (some data.articles)), .ok ()⟩,
        ⟨.recv, .ok crf⟩, ⟨.send (Builder.ackCrf peerId .ok), .ok ()⟩,
        ⟨.recv, .ok deselect⟩, ⟨.send (Builder.ackDeselect peerId .ok), .ok ()⟩] ∧
    transEnd.kind = .transEnd ∧ transEnd.diagOrOk.isOk = true ∧
    (∀ b, transEnd.getNum .byteCount = some b → b = data.dataBytes) ∧
    (∀ a, transEnd.getNum .articleCount = some a → a = data.articles) ∧
    crf.kind = .crf ∧ crf.diagOrOk.isOk = true ∧ deselect.kind = .deselect

/-- Since the last CREATE or SELECT that was accepted, a CREATE, a data phase has completed and the
transfer has been closed without a complaint. -/
def Committed (t : List (Exchange σ)) : Prop :=
  ∃ u e v data w, t = u ++ e :: (v ++ data ++ w) ∧ Creates e ∧ (∀ d ∈ v ++ data ++ w, accepts d = none) ∧
    ∃ p report turns machine start machine' result peerId,
      Proc.Runs (ReceiveData.receiveData p report turns machine start) data
      (some (.ok (machine', result))) ∧
      result.ending = .completed ∧ ReceiveData.DataEnded data ∧ Closing peerId result w

/-- Checkpoints that a reception has recorded may be forgotten only when its sink has been finished. -/
def Releasable (t : List (Exchange σ)) : Prop :=
  ∀ u e v, t = u ++ e :: v → Creates e → (∀ d ∈ v, accepts d = none) → (∃ d ∈ v, Records d) →
    v.getLast? = some ⟨.finish, .ok ()⟩

def Commits (t : List (Exchange σ)) (e : Exchange σ) : Prop :=
  (e.1 = .finish → Committed t) ∧ (e.1 = .clear → Releasable t)

section Histories

variable {t u v : List (Exchange σ)} {e : Exchange σ}

lemma creates_accepts (h : Creates e) : accepts e ≠ none := by
  obtain ⟨info, spec, a, rfl⟩ := h
  exact Option.some_ne_none _

lemma last_accepted {u' v' : List (Exchange σ)} {e' : Exchange σ} (h : u ++ e :: v = u' ++ e' :: v')
    (he : accepts e ≠ none) (he' : accepts e' ≠ none) (hv : ∀ d ∈ v, accepts d = none)
    (hv' : ∀ d ∈ v', accepts d = none) :
    e = e' ∧ v = v' := by
  rcases List.append_eq_append_iff.mp h with ⟨w, rfl, hw⟩ | ⟨w, rfl, hw⟩
  · cases w with
    | nil =>
      obtain ⟨rfl, rfl⟩ := List.cons.inj hw
      exact ⟨rfl, rfl⟩
    | cons d w =>
      obtain ⟨rfl, rfl⟩ := List.cons.inj hw
      exact absurd (hv e' (by simp)) he'
  · cases w with
    | nil =>
      obtain ⟨rfl, rfl⟩ := List.cons.inj hw
      exact ⟨rfl, rfl⟩
    | cons d w =>
      obtain ⟨rfl, rfl⟩ := List.cons.inj hw
      exact absurd (hv' e (by simp)) he

lemma releasable_of (he : accepts e ≠ none) (hv : ∀ d ∈ v, accepts d = none)
    (h : Creates e → ∀ d ∈ v, ¬ Records d) :
    Releasable (u ++ e :: v) := by
  rintro u' e' v' heq hcreates hv' ⟨d, hd, hrec⟩
  obtain ⟨rfl, rfl⟩ := last_accepted heq he (creates_accepts hcreates) hv hv'
  exact absurd hrec (h hcreates d hd)

lemma releasable_finished (t : List (Exchange σ)) : Releasable (t ++ [⟨.finish, .ok ()⟩]) := by
  rintro u e v heq hcreates - -
  rcases List.eq_nil_or_concat v with rfl | ⟨v, d, rfl⟩
  · have hlast := (List.append_inj' heq rfl).2
    obtain ⟨info, spec, a, rfl⟩ := hcreates
    cases hlast
  · have heq' : t ++ [⟨.finish, .ok ()⟩] = (u ++ e :: v) ++
        [d] := by rw [heq, List.concat_eq_append]; simp
    obtain ⟨-, hlast⟩ := List.append_inj' heq' rfl
    obtain rfl := (List.singleton_inj.mp hlast).symm
    rw [List.concat_eq_append, List.getLast?_concat]

lemma commits_other {q : Call σ} {r : Call.Result q} (hq : q ≠ .finish ∧ q ≠ .clear) :
    Commits t ⟨q, r⟩ :=
  ⟨fun h => absurd h hq.1, fun h => absurd h hq.2⟩

lemma within_commits {C : Call σ → Prop} {α : Type} {y : Engine σ α} (hy : y.Within C)
    (hC : ∀ q, C q → q ≠ .finish ∧ q ≠ .clear) :
    Proc.Safe Commits y t fun t' r => ∃ w, t' = t ++ w ∧ (∀ d ∈ w, C d.1) ∧ Proc.Runs y w (some r) := by
  have hsafe : Proc.Safe Commits y t fun t' _ => ∃ w, t' = t ++ w ∧ ∀ d ∈ w, C d.1 := by
    refine hy.safe (fun t' => ∃ w, t' = t ++ w ∧ ∀ d ∈ w, C d.1) ?_ ⟨[], by simp, by simp⟩
    rintro t' ⟨q, r⟩ ⟨w, rfl, hw⟩ hq
    refine ⟨commits_other (hC q hq), w ++ [⟨q, r⟩], List.append_assoc t w _, ?_⟩
    intro d hd
    rcases List.mem_append.mp hd with hd | hd
    · exact hw d hd
    · obtain rfl := List.mem_singleton.mp hd
      exact hq
  refine hsafe.ran.mono ?_
  rintro t' r ⟨⟨w, rfl, hw⟩, w', heq, hruns⟩
  obtain rfl := List.append_cancel_left heq
  exact ⟨w, rfl, hw, hruns⟩

end Histories

section Closing

variable {t : List (Exchange σ)} (turns : ℕ)

lemma answer_commits {machine : Machine} {s : State}
    (hm : machine.state.apply (.ofLocal .accept) = .next s) (f : Fpdu) :
    Proc.Safe Commits (answer machine f : Engine σ Machine) t fun t' r =>
      ∀ m, r = .ok m → m.state = s ∧ t' = t ++ [⟨.send f, .ok ()⟩] := by
  rw [answer, applyLocal_next hm]
  intro r
  refine ⟨commits_other ⟨by simp, by simp⟩, ?_⟩
  cases r with
  | error e => exact error_ok_elim
  | ok _ =>
    rintro m hm'
    obtain rfl := Except.ok.inj hm'
    exact ⟨rfl, rfl⟩

lemma checkCounts_ok {f : Fpdu} {dataBytes articles : ℕ}
    (h : checkCounts f dataBytes articles = .ok ()) :
    (∀ b, f.getNum .byteCount = some b → b = dataBytes) ∧
    (∀ a, f.getNum .articleCount = some a → a = articles) := by
  rw [checkCounts] at h
  refine ⟨?_, ?_⟩
  · intro b hb
    by_contra hne
    rw [hb] at h
    simp only [if_pos hne] at h
    cases h
  · intro a ha
    by_contra hne
    rw [ha] at h
    cases hb : f.getNum .byteCount with
    | none =>
      simp only [hb, if_pos hne] at h
      cases h
    | some b =>
      simp only [hb, if_pos hne] at h
      split at h <;> cases h

/-- A TRANS.END without a complaint, and its acknowledgement. -/
def Ended (peerId : UInt8) (data : DataResult) (w : List (Exchange σ)) : Prop :=
  ∃ transEnd, w = [⟨.recv, .ok transEnd⟩,
      ⟨.send (Builder.ackTransEnd peerId .ok (some data.dataBytes) (some data.articles)), .ok ()⟩] ∧
    transEnd.kind = .transEnd ∧ transEnd.diagOrOk.isOk = true ∧
    (∀ b, transEnd.getNum .byteCount = some b → b = data.dataBytes) ∧
    (∀ a, transEnd.getNum .articleCount = some a → a = data.articles)

/-- And a CRF without a complaint. -/
def Closed (peerId : UInt8) (data : DataResult) (w : List (Exchange σ)) : Prop :=
  ∃ v crf, Ended peerId data v ∧ w = v ++
    [⟨.recv, .ok crf⟩, ⟨.send (Builder.ackCrf peerId .ok), .ok ()⟩] ∧
    crf.kind = .crf ∧ crf.diagOrOk.isOk = true

/-- How far the end of a transfer has come, and what has been exchanged for it if
nobody has complained. -/
def Stage (peerId : UInt8) (data : DataResult) (t t' : List (Exchange σ)) (s : Machine × Diagnostic) :
    Prop :=
  s.1.state = .tde07B ∧ t' = t ∧ s.2 = .ok ∨
  s.1.state = .of02 ∧ (s.2.isOk = true → ∃ w, t' = t ++ w ∧ Ended peerId data w) ∨
  s.1.state = .sf03 ∧ (s.2.isOk = true → ∃ w, t' = t ++ w ∧ Closed peerId data w)

lemma stages_next {s s' : State} {kind : FpduKind} {n : Bool}
    (hs : s = .tde07B ∨ s = .of02 ∨ s = .sf03 ∨ s = .tde05B)
    (h : s.apply (.received kind n) = .next s') :
    (kind = .transEnd → s = .tde07B ∧ s' = .tde08B) ∧ (kind = .crf → s = .of02 ∧ s' = .of03B) ∧
      (kind = .deselect → s = .sf03 ∧ s' = .sf04B) := by
  rcases hs with rfl | rfl | rfl | rfl <;> cases kind <;> cases n <;> cases h <;> simp

lemma stages_ignore {s : State} {kind : FpduKind} {n : Bool} (hs : s = .tde07B ∨ s = .of02 ∨ s = .sf03) :
    s.apply (.received kind n) ≠ .ignore := by
  rcases hs with rfl | rfl | rfl <;> cases kind <;> cases n <;> intro h <;> cases h

lemma Stage.state {peerId : UInt8} {data : DataResult} {t t' : List (Exchange σ)}
    {s : Machine × Diagnostic} (h : Stage peerId data t t' s) :
    s.1.state = .tde07B ∨ s.1.state = .of02 ∨ s.1.state = .sf03 :=
  h.imp And.left (Or.imp And.left And.left)

lemma sticky {f : Fpdu} {diag : Diagnostic}
    (h : (if f.diagOrOk.isOk then diag else f.diagOrOk).isOk = true) :
    f.diagOrOk.isOk = true ∧ diag.isOk = true := by
  by_cases hf : f.diagOrOk.isOk = true
  · rw [if_pos hf] at h
    exact ⟨hf, h⟩
  · rw [if_neg hf] at h
    exact absurd h hf

abbrev ClosePost (peerId : UInt8) (data : DataResult) (t : List (Exchange σ)) :
    List (Exchange σ) → Except SessionError ((Machine × Diagnostic) ⊕ (Diagnostic × Machine)) → Prop :=
  Proc.TurnPost (Stage peerId data t) fun t' r =>
    ∀ diag m, r = .ok (diag, m) → diag.isOk = true → ∃ w, t' = t ++ w ∧ Closing peerId data w

lemma closeTurn_stage (c : Conn) (data : DataResult) {t' : List (Exchange σ)} {s : Machine × Diagnostic}
    (hs : Stage c.peerId data t t' s) :
    Proc.Safe Commits (closeTurn c data s) t' (ClosePost c.peerId data t) := by
  obtain ⟨machine, diag⟩ := s
  intro r
  refine ⟨commits_other ⟨by simp, by simp⟩, ?_⟩
  have herr {t₁ : List (Exchange σ)} (e : SessionError) : ClosePost c.peerId data t t₁ (.error e) := by
    intro _ _ h
    cases h
  cases r with
  | error e => exact herr e
  | ok f =>
    have hanswer {m : Machine} {s : State} (hm : m.state.apply (.ofLocal .accept) = .next s) (g : Fpdu)
        (diag : Diagnostic) (hnext : ∀ m' : Machine, m'.state = s →
          Stage c.peerId data t (t' ++ [⟨.recv, .ok f⟩] ++ [⟨.send g, .ok ()⟩]) (m', diag)) :
        Proc.Safe Commits
          (do pure (.inl (← answer m g, diag)) : Engine σ ((Machine × Diagnostic) ⊕ (Diagnostic × Machine)))
          (t' ++ [⟨.recv, .ok f⟩]) (ClosePost c.peerId data t) := by
      refine (answer_commits hm g).bind ?_ fun _ e _ => herr e
      intro t₁ m' hm'
      obtain ⟨hstate, rfl⟩ := hm' m' rfl
      exact hnext m' hstate
    show Proc.Safe Commits (Proc.lift (applyReceived machine f) >>= _) (t' ++ [⟨.recv, .ok f⟩]) _
    cases hr : applyReceived machine f with
    | error e => exact herr e
    | ok v =>
      obtain ⟨ignored, m⟩ := v
      obtain ⟨-, -, hignore⟩ | ⟨rfl, hnext⟩ := applyReceived_state hr
      · exact absurd hignore (stages_ignore hs.state)
      obtain ⟨htransEnd, hcrf, hdeselect⟩ := stages_next (hs.state.imp_right (Or.imp_right .inl)) hnext
      simp only [Proc.lift, Proc.done_bind, Bool.false_eq_true, if_false]
      split
      · rename_i hk
        obtain ⟨hmachine, hm⟩ := htransEnd hk
        obtain ⟨-, rfl, rfl⟩ : machine.state = .tde07B ∧ t' = t ∧ diag = .ok := by
          rcases hs with hs | ⟨hs, -⟩ | ⟨hs, -⟩
          · exact hs
          · exact absurd (hmachine.symm.trans hs) (by decide)
          · exact absurd (hmachine.symm.trans hs) (by decide)
        split
        · rename_i hcounts
          refine hanswer (s := .of02) (by rw [hm]; rfl) _ _ fun m' hm' =>
            .inr (.inl ⟨hm', fun hok => ?_⟩)
          obtain ⟨hbytes, harticles⟩ := checkCounts_ok hcounts
          exact ⟨_, List.append_assoc t' _ _, f, rfl, hk, (sticky hok).1, hbytes, harticles⟩
        · refine hanswer (s := .of02) (by rw [hm]; rfl) _ _ fun m' hm' =>
            .inr (.inl ⟨hm', fun hok => ?_⟩)
          exact absurd (show Diagnostic.invalidCounts.isOk = true from hok) (by decide)
      · rename_i hk
        obtain ⟨hmachine, hm⟩ := hcrf hk
        obtain ⟨-, hended⟩ :
            machine.state = .of02 ∧ (diag.isOk = true → ∃ w, t' = t ++ w ∧ Ended c.peerId data w) := by
          rcases hs with ⟨hs, -⟩ | hs | ⟨hs, -⟩
          · exact absurd (hmachine.symm.trans hs) (by decide)
          · exact hs
          · exact absurd (hmachine.symm.trans hs) (by decide)
        refine hanswer (s := .sf03) (by rw [hm]; rfl) _ _ fun m' hm' => .inr (.inr ⟨hm', fun hok => ?_⟩)
        obtain ⟨hf, hdiag⟩ := sticky hok
        obtain ⟨w, rfl, hw⟩ := hended hdiag
        exact ⟨_, by simp, w, f, hw, rfl, hk, hf⟩
      · rename_i hk
        obtain ⟨hmachine, hm⟩ := hdeselect hk
        obtain ⟨-, hclosed⟩ :
            machine.state = .sf03 ∧ (diag.isOk = true → ∃ w, t' = t ++ w ∧ Closed c.peerId data w) := by
          rcases hs with ⟨hs, -⟩ | ⟨hs, -⟩ | hs
          · exact absurd (hmachine.symm.trans hs) (by decide)
          · exact absurd (hmachine.symm.trans hs) (by decide)
          · exact hs
        refine (answer_commits (s := .cn03) (by rw [hm]; rfl) _).bind ?_ fun _ e _ => herr e
        intro t₁ m' hm' diag' m'' heq hok
        obtain ⟨rfl, rfl⟩ := Prod.mk.inj (Except.ok.inj heq)
        obtain ⟨-, rfl⟩ := hm' m' rfl
        obtain ⟨w, rfl, v, crf, ⟨transEnd, rfl, hended⟩, rfl, hcrf', hcrfOk⟩ := hclosed hok
        refine ⟨_, by
          simp only [List.append_assoc, List.cons_append, List.nil_append], transEnd, crf, f, rfl, ?_⟩
        exact ⟨hended.1, hended.2.1, hended.2.2.1, hended.2.2.2, hcrf', hcrfOk, hk⟩
      · exact herr _

lemma closeTransfer_closing (c : Conn) (data : DataResult) {machine : Machine}
    (hm : machine.state = .tde07B) :
    Proc.Safe Commits (closeTransfer turns c data machine : Engine σ _) t fun t' r =>
      ∀ diag m, r = .ok (diag, m) → diag.isOk = true → ∃ w, t' = t ++ w ∧ Closing c.peerId data w :=
  Proc.Safe.loop (Stage c.peerId data t) (fun _ _ hs => closeTurn_stage c data hs) turns
    (.inl ⟨hm, rfl, rfl⟩)

end Closing

section Transfers

variable {t u : List (Exchange σ)} {e : Exchange σ} (turns : ℕ)

/-- The calls that leave the transfer as fresh as it was. -/
def Quiet : Call σ → Prop
  | .recv | .send _ | .effect (.truncate _) | .event _ _ => True
  | _ => False

def Moving (q : Call σ) : Prop := q.traffic = true ∨ ∃ x ev, q = .event x ev

lemma quiet_silent {q : Call σ} (h : Quiet q) (r : Call.Result q) :
    accepts ⟨q, r⟩ = none ∧ ¬ Records ⟨q, r⟩ := by
  cases q with
  | recv | send | event =>
    refine ⟨rfl, ?_⟩
    rintro ⟨cp, r', hrec⟩
    cases hrec
  | effect w =>
    refine ⟨rfl, ?_⟩
    rintro ⟨cp, r', hrec⟩
    cases hrec
    exact h
  | _ => exact h.elim

lemma quiet_other (q : Call σ) (h : Quiet q) : q ≠ .finish ∧ q ≠ .clear := by
  refine ⟨?_, ?_⟩ <;> rintro rfl <;> exact h

lemma moving_silent {q : Call σ} (h : Moving q) (r : Call.Result q) : accepts ⟨q, r⟩ = none := by
  rcases h with h | ⟨x, ev, rfl⟩
  · exact traffic_accepts h r
  · rfl

lemma moving_traffic (q : Call σ) (h : q.traffic = true) : Moving q := .inl h

lemma moving_other (q : Call σ) (h : Moving q) : q ≠ .finish ∧ q ≠ .clear := by
  rcases h with h | ⟨x, ev, rfl⟩
  · refine ⟨?_, ?_⟩ <;> rintro rfl <;> cases h
  · exact ⟨by simp, by simp⟩

lemma Closing.silent {peerId : UInt8} {data : DataResult} {w : List (Exchange σ)}
    (h : Closing peerId data w) :
    ∀ d ∈ w, accepts d = none := by
  obtain ⟨transEnd, crf, deselect, rfl, -⟩ := h
  intro d hd
  simp only [List.mem_cons, List.not_mem_nil, or_false] at hd
  rcases hd with rfl | rfl | rfl | rfl | rfl | rfl <;> rfl

def Fresh (e : Exchange σ) (t : List (Exchange σ)) : Prop :=
  ∃ u v, t = u ++ e :: v ∧ ∀ d ∈ v, accepts d = none ∧ ¬ Records d

lemma Fresh.append {w : List (Exchange σ)} (h : Fresh e t)
    (hw : ∀ d ∈ w, accepts d = none ∧ ¬ Records d) :
    Fresh e (t ++ w) := by
  obtain ⟨u, v, rfl, hv⟩ := h
  refine ⟨u, v ++ w, by simp, ?_⟩
  intro d hd
  rcases List.mem_append.mp hd with hd | hd
  · exact hv d hd
  · exact hw d hd

lemma Fresh.quiet {α : Type} {y : Engine σ α} (h : Fresh e t) (hy : y.Within Quiet) :
    Proc.Safe Commits y t fun t' r => Fresh e t' ∧ ∃ w, Proc.Runs y w (some r) := by
  refine (within_commits hy quiet_other).mono ?_
  rintro t' r ⟨w, rfl, hw, hruns⟩
  exact ⟨h.append fun d hd => quiet_silent (hw d hd) d.2, w, hruns⟩

lemma Fresh.single (h : Fresh e t) {d : Exchange σ} (ha : accepts d = none) (hr : ¬ Records d) :
    Fresh e (t ++ [d]) :=
  h.append fun d' hd' => by
    obtain rfl := List.mem_singleton.mp hd'
    exact ⟨ha, hr⟩

lemma Fresh.reply (h : Fresh e t) {q : Call σ} (hq : Quiet q) (r : Call.Result q) :
    Fresh e (t ++ [⟨q, r⟩]) :=
  h.single (quiet_silent hq r).1 (quiet_silent hq r).2

lemma Fresh.releasable (h : Fresh e t) (he : accepts e ≠ none) : Releasable t := by
  obtain ⟨u, v, rfl, hv⟩ := h
  exact releasable_of he (fun d hd => (hv d hd).1) fun _ d hd => (hv d hd).2

lemma Fresh.clear (h : Fresh e t) (he : accepts e ≠ none) (c : Prop) [Decidable c] :
    Proc.Safe Commits (when c Engine.clear : Engine σ Unit) t fun t' _ => Fresh e t' := by
  rw [when]
  split
  · intro r
    refine ⟨⟨fun hq => ?_, fun _ => h.releasable he⟩, h.single rfl ?_⟩
    · cases hq
    · rintro ⟨cp, r', hr⟩
      cases hr
  · exact h

lemma write_state {s s' : State} {n : Bool} (h : s.apply (.received .write n) = .next s') :
    s' = .tde01B := by
  cases s <;> cases n <;> cases h
  rfl

lemma expect_write (machine : Machine) :
    ReceiveData.Gives (expect turns .write machine : Engine σ (Fpdu × Machine))
    (fun _ v => v.2.state = .tde01B) t := by
  refine Proc.Safe.loop (fun _ _ => True) ?_ turns trivial
  intro t machine _
  refine (Proc.safe_any _ t).bind (fun t' f _ => ?_) fun _ _ _ => error_ok_elim
  show Proc.Safe _ (Proc.lift (applyReceived machine f) >>= _) t' _
  cases hr : applyReceived machine f with
  | error e => exact error_ok_elim
  | ok v =>
    obtain ⟨ignored, m⟩ := v
    simp only [Proc.lift, Proc.done_bind]
    obtain ⟨rfl, rfl, -⟩ | ⟨rfl, hnext⟩ := applyReceived_state hr
    · exact trivial
    · simp only [Bool.false_eq_true, if_false]
      split
      · exact error_ok_elim
      · rename_i hk
        rintro ⟨f', m'⟩ heq
        obtain ⟨rfl, rfl⟩ := Prod.mk.inj (Except.ok.inj heq)
        rw [not_not.mp hk] at hnext
        exact write_state hnext

lemma runWrite_commits (c : Conn) (machine : Machine) (spec : FileSpec) (a : CreateAccept)
    (maxEntity : UInt16) (transferId : UInt32) (h : Fresh e t) (he : Creates e) :
    Proc.Safe Commits (runWrite turns c machine spec a maxEntity transferId) t fun t' r =>
      ∀ data diag m, r = .ok (data, diag, m) → data.ending = .completed → diag.isOk = true →
        Committed t' := by
  have herr {t₁ : List (Exchange σ)} (x : SessionError) : ∀ data diag m,
      (.error x : Except SessionError (DataResult × Diagnostic × Machine)) = .ok (data, diag, m) →
        data.ending = .completed → diag.isOk = true → Committed t₁ := by
    intro _ _ _ h
    cases h
  refine (h.quiet (openFile_of (C := Quiet) turns trivial (fun _ => trivial) machine)).bind ?_
    fun _ x _ => herr x
  rintro t₁ ⟨compression, machine₁⟩ ⟨h₁, -⟩
  refine (h₁.quiet (expect_of (C := Quiet) turns trivial .write machine₁)).bind ?_ fun _ x _ => herr x
  rintro t₂ ⟨f, machine₂⟩ ⟨h₂, w, hruns⟩
  have hstate : machine₂.state = .tde01B :=
    ((expect_write turns machine₁ (t := [])).runs hruns).2 _ rfl _ rfl
  refine (answer_commits (s := .tde02B) (by rw [hstate]; rfl) _).bind ?_ fun _ x _ => herr x
  intro t₃ machine₃ h₃
  obtain ⟨hstate₃, rfl⟩ := h₃ machine₃ rfl
  have h₄ := h₂.reply
    (q := .send (Builder.ackWrite c.peerId .ok (if spec.restarted then a.restart.getD .default else
    .default).sync)) trivial (.ok ())
  refine (h₄.quiet (y := effect (.truncate _)) ⟨trivial, fun _ => trivial⟩).bind ?_ fun _ x _ => herr x
  rintro t₅ - ⟨h₅, -⟩
  refine (h₅.clear (creates_accepts he) _).bind ?_ fun _ x _ => herr x
  rintro t₆ - h₆
  refine (h₆.quiet (y := notify _ _) (Proc.within_query trivial)).bind ?_ fun _ x _ => herr x
  rintro t₇ - ⟨h₇, -⟩
  refine (within_commits (ReceiveData.receiveData_within moving_traffic (fun _ => ?_) _ turns machine₃ _)
    moving_other).bind ?_ fun _ x _ => herr x
  · exact Proc.within_query (.inr ⟨_, _, rfl⟩)
  rintro t₈ ⟨machine₈, data⟩ ⟨w₈, rfl, hw₈, hruns₈⟩
  have hgives :=
    ((ReceiveData.receiveData_gives _ _ turns hstate₃ _ (t := [])).runs hruns₈).2 _ rfl _ rfl
  by_cases hcompleted : data.ending = .completed
  · obtain ⟨hstate₈, hended⟩ := hgives hcompleted
    refine (closeTransfer_closing turns c data hstate₈).bind ?_ fun _ x _ => herr x
    rintro t₉ ⟨diag, machine₉⟩ hclosing data' diag' machine' heq - hok
    obtain ⟨rfl, hrest⟩ := Prod.mk.inj (Except.ok.inj heq)
    obtain ⟨rfl, rfl⟩ := Prod.mk.inj hrest
    obtain ⟨w₉, rfl, hw₉⟩ := hclosing _ _ rfl hok
    obtain ⟨u, v, rfl, hv⟩ := h₇
    refine ⟨u, e, v, w₈, w₉, by simp, he, ?_, _, _, _, _, _, _, _, _, hruns₈, hcompleted, hended, hw₉⟩
    intro d hd
    rcases List.mem_append.mp hd with hd | hd
    · rcases List.mem_append.mp hd with hd | hd
      · exact (hv d hd).1
      · exact moving_silent (hw₈ d hd) d.2
    · exact hw₉.silent d hd
  · refine (within_commits (closeTransfer_within turns moving_traffic c data machine₈) moving_other).bind
      ?_ fun _ x _ => herr x
    rintro t₉ ⟨diag, machine₉⟩ - data' diag' machine' heq hcompleted'
    obtain ⟨rfl, -⟩ := Prod.mk.inj (Except.ok.inj heq)
    exact absurd hcompleted' hcompleted

lemma handleCreate_commits (c : Conn) (machine : Machine) (f : Fpdu) :
    Proc.Safe Commits (handleCreate turns c machine f) t fun _ _ => True := by
  intro r
  refine ⟨commits_other ⟨by simp, by simp⟩, ?_⟩
  cases r with
  | error r =>
    exact (within_commits (reject_within moving_traffic machine _) moving_other).mono
      fun _ _ _ => trivial
  | ok a =>
    have h : Fresh ⟨.create c.info (FileSpec.fromFpdu f), .ok a⟩
        (t ++ [⟨.create c.info (FileSpec.fromFpdu f), Except.ok (ε := Refusal) a⟩]) :=
        ⟨t, [], rfl, by simp⟩
    refine (h.quiet (answer_of (C := Quiet) trivial machine)).bind ?_ fun _ _ _ => trivial
    rintro t₁ machine₁ ⟨h₁, -⟩
    refine (runWrite_commits turns c machine₁ _ a _ _ h₁ ⟨_, _, a, rfl⟩).attempt_bind ?_
    intro t₂ r h₂
    have hnotify {t : List (Exchange σ)} (ev : TransferEvent) :
        Proc.Safe Commits (notify a.handle ev : Engine σ Unit) t fun _ _ => True :=
      (within_commits (Proc.within_query (.inr ⟨_, _, rfl⟩)) moving_other).mono fun _ _ _ => trivial
    cases r with
    | error e => exact (hnotify (.failed e)).bind (fun _ _ _ => trivial) fun _ _ _ => trivial
    | ok v =>
      obtain ⟨data, diag, machine₂⟩ := v
      have hcommit :
          Proc.Safe Commits (when (data.ending = .completed ∧ diag.isOk = true) (do finish; clear) :
          Engine σ Unit) t₂ fun _ _ => True := by
        rw [when]
        split
        · rename_i hend
          intro r
          refine ⟨⟨fun _ => h₂ data diag machine₂ rfl hend.1 hend.2, fun hq => by cases hq⟩, ?_⟩
          cases r with
          | error e => trivial
          | ok _ => exact fun r => ⟨⟨fun hq => (by cases hq), fun _ => releasable_finished t₂⟩, trivial⟩
        · trivial
      refine hcommit.bind ?_ fun _ _ _ => trivial
      intro t₃ _ _
      exact (hnotify (.ended data diag)).bind (fun _ _ _ => trivial) fun _ _ _ => trivial

def Reading (q : Call σ) : Prop := Moving q ∨ q = .clear

lemma reading_traffic (q : Call σ) (h : q.traffic = true) : Reading q := .inl (.inl h)

lemma reading_notify (x : ℕ) (ev : TransferEvent) : (notify x ev : Engine σ Unit).Within Reading :=
  Proc.within_query (.inl (.inr ⟨x, ev, rfl⟩))

lemma reading_clear : (clear : Engine σ Unit).Within Reading := ⟨.inr rfl, fun _ => trivial⟩

lemma runRead_reading (src : ArticleSource σ) (c : Conn) (machine : Machine) (spec : FileSpec)
    (a : SelectAccept σ) (maxEntity : UInt16) (transferId : UInt32) :
    (runRead turns src c machine spec a maxEntity transferId).Within Reading := by
  refine (openFile_within turns reading_traffic c machine).bind fun _ => ?_
  refine (expect_within turns reading_traffic .read _).bind fun _ => ?_
  refine Proc.Within.bind (Proc.within_query (reading_traffic _ rfl)) fun store => ?_
  dsimp only
  split
  · exact (reject_within reading_traffic _ _).bind fun _ => trivial
  · refine (answer_within reading_traffic _ _).bind fun _ => ?_
    refine (when_within reading_clear).bind fun _ => ?_
    refine (reading_notify _ _).bind fun _ => ?_
    refine (SendData.sendData_within reading_traffic (fun _ => reading_notify _ _) src _ turns _ _
      _).bind fun _ => ?_
    exact (closeTransfer_within turns reading_traffic c _ _).bind fun _ => trivial

lemma reading_commits {α : Type} {y : Engine σ α} (hy : y.Within Reading) (he : accepts e ≠ none)
    (hn : ¬ Creates e) :
    Proc.Safe Commits y (t ++ [e]) fun _ _ => True := by
  have hsafe : Proc.Safe Commits y (t ++ [e]) fun t' _ => ∃ v, t' = t ++ e :: v ∧ ∀ d ∈ v,
      accepts d = none := by
    refine hy.safe (fun t' => ∃ v, t' = t ++ e :: v ∧ ∀ d ∈ v, accepts d = none) ?_ ⟨[], rfl, by simp⟩
    rintro t' ⟨q, r⟩ ⟨v, rfl, hv⟩ hq
    have hsilent : accepts ⟨q, r⟩ = none := by
      rcases hq with hq | rfl
      · exact moving_silent hq r
      · rfl
    refine ⟨⟨?_, fun _ => releasable_of he hv fun h => absurd h hn⟩, v ++ [⟨q, r⟩], by simp, ?_⟩
    · rintro rfl
      rcases hq with hq | hq
      · exact absurd rfl (moving_other _ hq).1
      · cases hq
    · intro d hd
      rcases List.mem_append.mp hd with hd | hd
      · exact hv d hd
      · obtain rfl := List.mem_singleton.mp hd
        exact hsilent
  exact hsafe.mono fun _ _ _ => trivial

lemma handleSelect_commits (src : ArticleSource σ) (c : Conn) (machine : Machine) (f : Fpdu) :
    Proc.Safe Commits (handleSelect turns src c machine f) t fun _ _ => True := by
  intro r
  refine ⟨commits_other ⟨by simp, by simp⟩, ?_⟩
  cases r with
  | error r =>
    exact (within_commits (reject_within moving_traffic machine _) moving_other).mono
      fun _ _ _ => trivial
  | ok a =>
    refine reading_commits ?_ (Option.some_ne_none a.handle) ?_
    · refine (answer_within reading_traffic _ _).bind fun _ => ?_
      refine (runRead_reading turns src c _ _ _ _ _).attempt.bind fun r => ?_
      split
      · refine (when_within reading_clear).bind fun _ => ?_
        exact (reading_notify _ _).bind fun _ => trivial
      · exact (reading_notify _ _).bind fun _ => trivial
    · rintro ⟨info, spec, a, h⟩
      cases h

end Transfers

section Sessions

variable {t : List (Exchange σ)} (turns : ℕ)

def Outside (q : Call σ) : Prop := q ≠ .finish ∧ q ≠ .clear

lemma outside_traffic (q : Call σ) (h : q.traffic = true) : Outside q := moving_other q (.inl h)

lemma outside_commits {α : Type} {y : Engine σ α} (hy : y.Within Outside) :
    Proc.Safe Commits y t fun _ _ => True :=
  (within_commits hy fun _ hq => hq).mono fun _ _ _ => trivial

lemma handleMessage_outside (c : Conn) (machine : Machine) (f : Fpdu) :
    (handleMessage turns c machine f : Engine σ Machine).Within Outside := by
  refine (wholeMessage_within turns outside_traffic _ _).bind fun _ => ?_
  refine Proc.Within.bind (Proc.within_query ⟨by simp, by simp⟩) fun r => ?_
  exact answer_within outside_traffic _ _

lemma selectionTurn_commits (src : ArticleSource σ) (c : Conn) (machine : Machine) :
    Proc.Safe Commits (selectionTurn turns src c machine) t
    (Proc.TurnPost (fun _ _ => True) fun _ _ => True) := by
  have hpost (t' : List (Exchange σ)) (r : Except SessionError (Machine ⊕ Unit)) :
      Proc.TurnPost (fun _ _ => True) (fun _ _ => True) t' r := by
    rcases r with e | m | u <;> trivial
  have hturn {y : Engine σ Machine} {t : List (Exchange σ)}
      (hy : Proc.Safe Commits y t fun _ _ => True) :
      Proc.Safe Commits (do pure (.inl (← y)) : Engine σ (Machine ⊕ Unit)) t
        (Proc.TurnPost (fun _ _ => True) fun _ _ => True) :=
    hy.bind (fun _ _ _ => trivial) fun _ _ _ => trivial
  refine (outside_commits (y := recv) ⟨⟨by simp, by simp⟩, fun _ => trivial⟩).bind ?_ fun t' e _ =>
    hpost t' (.error e)
  intro t₁ f _
  dsimp only
  cases applyReceived machine f with
  | error e => exact hpost t₁ (.error e)
  | ok v =>
    obtain ⟨ignored, m⟩ := v
    simp only [Proc.lift, Proc.done_bind]
    split
    · split
      · exact hturn (handleCreate_commits turns c m f)
      · exact hturn (outside_commits (reject_within outside_traffic m _))
    · split
      · exact hturn (handleSelect_commits turns src c m f)
      · exact hturn (outside_commits (reject_within outside_traffic m _))
    · exact hturn (outside_commits (handleMessage_outside turns c m f))
    · exact hturn (outside_commits (handleMessage_outside turns c m f))
    · exact (outside_commits (answer_within outside_traffic m _)).bind (fun _ _ _ => trivial)
        fun _ _ _ => trivial
    · split <;> exact hpost t₁ _

lemma selectionPhase_commits (src : ArticleSource σ) (c : Conn) (machine : Machine) :
    Proc.Safe Commits (selectionPhase turns src c machine) t fun _ _ => True := by
  refine (outside_commits (answer_within outside_traffic machine _)).bind ?_ fun _ _ _ => trivial
  intro t₁ m _
  exact Proc.Safe.loop (fun _ _ => True) (fun _ s _ => selectionTurn_commits turns src c s) turns trivial

lemma authenticate_outside (cfg : ResponderConfig) (entity : Bytes) (connect : Fpdu)
    (req : ConnectRequest) (machine : Machine) :
    (authenticate cfg entity connect req machine : Engine σ Conn).Within Outside := by
  change Proc.Within Outside (if _ then _ else _)
  split
  · trivial
  · refine Proc.Within.bind (Proc.within_query ⟨by simp, by simp⟩) fun r => ?_
    cases r with
    | error r => exact (reject_within outside_traffic machine _).bind fun _ => trivial
    | ok a => trivial

lemma serve_commits (src : ArticleSource σ) (cfg : ResponderConfig) :
    Proc.Safe Commits (serve turns src cfg) [] fun _ _ => True := by
  refine (outside_commits (awaitConnect_within outside_traffic)).bind ?_ fun _ _ _ => trivial
  rintro t₁ ⟨entity, preconnect⟩ -
  dsimp only
  cases readRequest cfg entity preconnect with
  | error e => trivial
  | ok v =>
    obtain ⟨connect, req, machine⟩ := v
    refine (outside_commits (authenticate_outside cfg entity connect req machine)).attempt_bind ?_
    intro t₂ r _
    cases r with
    | error e =>
      exact (outside_commits (abortOn_within outside_traffic _ _ e)).bind (fun _ _ _ => trivial)
        fun _ _ _ => trivial
    | ok c =>
      refine (selectionPhase_commits turns src c machine).attempt_bind ?_
      intro t₃ r _
      cases r with
      | ok u =>
        intro r
        exact ⟨commits_other ⟨by simp, by simp⟩, trivial⟩
      | error e =>
        intro r
        refine ⟨commits_other ⟨by simp, by simp⟩, ?_⟩
        exact (outside_commits (abortOn_within outside_traffic _ _ e)).bind (fun _ _ _ => trivial)
          fun _ _ _ => trivial

end Sessions

/-- The server finishes the sink of a CREATE only when its transfer is complete and has been closed
without a complaint, and until then it forgets no checkpoint that the transfer has recorded. -/
theorem serve_finishes (src : ArticleSource σ) (cfg : ResponderConfig) (turns : ℕ)
    {t u v : List (Exchange σ)} {e : Exchange σ} {o : Option (Except SessionError Unit)}
    (hruns : Proc.Runs (serve turns src cfg) t o) (ht : t = u ++ e :: v) :
    (e.1 = .finish → Committed u) ∧ (e.1 = .clear → Releasable u) :=
  ((serve_commits turns src cfg).runs hruns).1 u e v ht

def writtenLink : ℕ → Except SessionError Fpdu
  | 3 => .ok (sampleFile.create 9)
  | 6 => .ok (Builder.orf 9 .none)
  | 8 => .ok (Builder.write 9)
  | 14 => .ok { (Fpdu.new .dtf).withIds 9 0 with data := [1, 2] }
  | 19 => .ok (Builder.dtfEnd 9 .ok)
  | 22 => .ok (Builder.transEnd 9 (some 2) (some 1))
  | 24 => .ok (Builder.crf 9 .ok)
  | 26 => .ok (Builder.deselect 9 .ok)
  | 31 => .ok (Builder.release 9 0 .ok)
  | _ => .error (.transport .closed)

@[irreducible] def writtenSession : List (Exchange VecSource) × Option (Except SessionError Unit) :=
  Proc.play (world sampleConnectEntity sampleAccept sampleCreate writtenLink
    (fun _ => .ok ()) (.ok ())) 0 (serve 6 VecSource.ops sampleServer)

theorem serve_finishes_written :
    ∃ u e v, writtenSession.1 = u ++ e :: v ∧ e.1 = .finish ∧ (e.1 = .finish → Committed u) ∧
      (e.1 = .clear → Releasable u) := by
  have hruns : Proc.Runs (serve 6 VecSource.ops sampleServer) writtenSession.1 writtenSession.2 := by
    rw [writtenSession]
    exact Proc.play_runs _ 0 _
  have hfinish :
      writtenSession.1[28]?.map (fun e => e.1 matches .finish) = some true := by decide +kernel
  obtain ⟨e, he, hq⟩ := Option.map_eq_some_iff.mp hfinish
  obtain ⟨hlen, rfl⟩ := List.getElem?_eq_some_iff.mp he
  have hsplit :
      writtenSession.1 = writtenSession.1.take 28 ++ writtenSession.1[28] ::
      writtenSession.1.drop 29 := by
    rw [← List.drop_eq_getElem_cons hlen, List.take_append_drop]
  refine ⟨_, _, _, hsplit, ?_, serve_finishes VecSource.ops sampleServer 6 hruns hsplit⟩
  split at hq
  · assumption
  · cases hq

end Responder

end PesitWizard.Io
