import PesitWizard.Io.Calm

/-! The file that a server has received is committed after its sender has been told that the
transfer is complete. -/

namespace PesitWizard.Io

open PesitWizard.Core Library Engine Exchange

variable {σ τ : Type}

/-- The acknowledgements that a requester takes its transfer for complete by. -/
def final (f : Fpdu) : Bool :=
  match f.kind with
  | .ackTransEnd | .ackDeselect => true
  | _ => false

def Deselected (t : List (Exchange σ)) : Prop :=
  ∃ f, (⟨.send f, .ok ()⟩ : Exchange σ) ∈ t ∧ f.kind = .ackDeselect

def JustDeselected (t : List (Exchange σ)) : Prop :=
  ∃ u f, t = u ++ [⟨.send f, .ok ()⟩] ∧ f.kind = .ackDeselect

def Finishing (t : List (Exchange σ)) : Prop := ∃ r, (⟨.finish, r⟩ : Exchange σ) ∈ t

def Accepted (t : List (Exchange σ)) : Prop :=
  ∃ f, (⟨.send f, .ok ()⟩ : Exchange σ) ∈ t ∧ f.kind = .ackTransEnd ∧ f.isNegative = false

/-- What a server does in a transfer of which the requester does not complain. It commits the file when
it has answered the last request, and then it says nothing more. -/
structure Orderly (crc : Bool) (h : List (Exchange σ)) (e : Exchange σ) : Prop where
  composed : ∀ f, e.1 = .send f → f.Composed
  data : ∀ entity, e.1 = .effect (.send entity) → ∀ g ∈ Link.fpdusOf crc entity, final g = false
  last : e.1.silent = false → ¬ Deselected h ∧ ¬ Finishing h
  once : e.1 = .finish → ¬ Finishing h
  next : JustDeselected h → e.1 = .finish ∨ ¬ Accepted h

/-- The same as long as what has been heard is calm. -/
def Following (crc : Bool) (h : List (Exchange σ)) (e : Exchange σ) : Prop := Gentle h → Orderly crc h e

section Traces

variable {crc : Bool} {t w : List (Exchange σ)} {e : Exchange σ}

lemma JustDeselected.deselected (h : JustDeselected t) : Deselected t := by
  obtain ⟨u, f, rfl, hk⟩ := h
  exact ⟨f, List.mem_append_right u (List.mem_singleton_self _), hk⟩

lemma justDeselected_concat :
    JustDeselected (t ++ [e]) ↔ ∃ f, e = ⟨.send f, .ok ()⟩ ∧ f.kind = .ackDeselect := by
  constructor
  · rintro ⟨u, f, heq, hk⟩
    obtain ⟨-, hlast⟩ := List.append_inj' heq rfl
    exact ⟨f, List.singleton_inj.mp hlast, hk⟩
  · rintro ⟨f, rfl, hk⟩
    exact ⟨t, f, rfl, hk⟩

lemma not_just_silent {q : Call σ} {r : Call.Result q} (hq : q.silent = true) :
    ¬ JustDeselected (t ++ [⟨q, r⟩]) := by
  rw [justDeselected_concat]
  rintro ⟨f, hf, -⟩
  cases hf
  cases hq

lemma deselected_append : Deselected (t ++ w) ↔ Deselected t ∨ Deselected w := by
  simp only [Deselected, List.mem_append, or_and_right, exists_or]

lemma finishing_append : Finishing (t ++ w) ↔ Finishing t ∨ Finishing w := by
  simp only [Finishing, List.mem_append, exists_or]

lemma accepted_append : Accepted (t ++ w) ↔ Accepted t ∨ Accepted w := by
  simp only [Accepted, List.mem_append, or_and_right, exists_or]

/-- Nothing of what ends a transfer has been said or done. -/
def Early (t : List (Exchange σ)) : Prop := ¬ Deselected t ∧ ¬ Finishing t ∧ ¬ Accepted t

/-- The calls before the end of a transfer. -/
def Leading (crc : Bool) : Call σ → Prop
  | .send f => f.Composed ∧ final f = false
  | .effect (.send entity) => ∀ g ∈ Link.fpdusOf crc entity, final g = false
  | .finish => False
  | _ => True

lemma orderly_silent {q : Call σ} {r : Call.Result q} (hq : q.silent = true)
    (honce : q = .finish → ¬ Finishing t) (hnext : JustDeselected t → q = .finish ∨ ¬ Accepted t) :
    Orderly crc t ⟨q, r⟩ where
  composed f hf := by
    obtain rfl := hf
    cases hq
  data entity hentity := by
    obtain rfl := hentity
    cases hq
  last h := by
    have hsilent : q.silent = false := h
    rw [hq] at hsilent
    cases hsilent
  once := honce
  next := hnext

lemma orderly_send {f : Fpdu} {r : Call.Result (.send f : Call σ)} (hf : f.Composed)
    (hd : ¬ Deselected t) (hfin : ¬ Finishing t) : Orderly crc t ⟨.send f, r⟩ where
  composed g hg := by
    obtain rfl := Call.send.inj hg
    exact hf
  data entity hentity := by cases hentity
  last _ := ⟨hd, hfin⟩
  once h := by cases h
  next h := absurd h.deselected hd

lemma Early.orderly (h : Early t) (hq : Leading crc e.1) : Orderly crc t e := by
  obtain ⟨q, r⟩ := e
  refine ⟨?_, ?_, fun _ => ⟨h.1, h.2.1⟩, fun _ => h.2.1, fun hjust => absurd hjust.deselected h.1⟩
  · rintro f rfl
    exact hq.1
  · rintro entity rfl
    exact hq

lemma Early.concat (h : Early t) (hq : Leading crc e.1) : Early (t ++ [e]) := by
  rw [Early, deselected_append, finishing_append, accepted_append]
  refine ⟨not_or.mpr ⟨h.1, ?_⟩, not_or.mpr ⟨h.2.1, ?_⟩, not_or.mpr ⟨h.2.2, ?_⟩⟩
  · rintro ⟨f, hf, hk⟩
    obtain rfl := List.mem_singleton.mp hf
    have hlate := hq.2
    rw [final, hk] at hlate
    cases hlate
  · rintro ⟨r, hr⟩
    obtain rfl := List.mem_singleton.mp hr
    exact hq
  · rintro ⟨f, hf, hk, -⟩
    obtain rfl := List.mem_singleton.mp hf
    have hlate := hq.2
    rw [final, hk] at hlate
    cases hlate

lemma Early.leading {α : Type} {y : Engine σ α} (h : Early t) (hy : y.Within (Leading crc)) :
    Proc.Safe (Following crc) y t fun t' _ => Early t' ∧ ∃ w, t' = t ++ w := by
  refine hy.safe (fun t' => Early t' ∧ ∃ w, t' = t ++ w) ?_ ⟨h, [], (List.append_nil t).symm⟩
  rintro u e ⟨hu, w, rfl⟩ hq
  exact ⟨fun _ => hu.orderly hq, hu.concat hq, w ++ [e], List.append_assoc t w _⟩

end Traces

section Receiving

variable {crc : Bool}

lemma sendFpdu_leading {f : Fpdu} (hf : f.Composed) (hfinal : final f = false) :
    (sendFpdu crc f).All fun w => Leading crc (.effect w : Call σ) := by
  rw [sendFpdu]
  cases he : Frame.singleEntity f crc with
  | error e => exact Act.all_lift _
  | ok entity =>
    obtain ⟨henc, rfl⟩ := Frame.singleEntity_iff.mp he
    refine Act.all_emit fun g hg => ?_
    obtain rfl := Link.fpdusOf_image hf henc hg
    exact hfinal

namespace ReceiveData

variable (p : DataParams)

lemma takeArticles_leading (s : RecvState) (as : List Bytes) :
    (takeArticles s as).All fun w => Leading crc (.effect w : Call σ) := by
  induction as generalizing s with
  | nil => exact Act.all_pure s
  | cons a as ih =>
    refine Act.All.bind ?_ ih
    rw [takeArticle]
    have hwrite (plain : Bytes) :
        (Act.emit (.write plain) : Io.Run Unit).All fun w => Leading crc (.effect w : Call σ) :=
      Act.all_emit trivial
    split
    · exact Act.All.bind (Act.all_pure _) fun v => Act.All.bind (hwrite _) fun _ => Act.all_pure _
    · refine Act.All.bind (Act.all_lift _) fun v => ?_
      exact Act.All.bind (Act.all_pure _) fun v => Act.All.bind (hwrite _) fun _ => Act.all_pure _

lemma interruptRecv_leading (machine : Machine) (f : Fpdu) :
    (interruptRecv p machine f).All fun w => Leading p.crc (.effect w : Call σ) := by
  refine Act.All.bind (Act.all_lift _) fun m => ?_
  split
  · exact Act.all_pure _
  · refine Act.All.bind (sendFpdu_leading (Builder.ackIdt_composed _) rfl) fun _ => ?_
    split <;> exact Act.all_pure _
  · exact Act.all_pure _

lemma cancel_leading (s : RecvState) : (cancel p s).All fun w => Leading p.crc (.effect w : Call σ) := by
  refine Act.All.bind ?_ fun m => Act.all_pure _
  refine Act.All.bind (Act.all_lift _) fun m => ?_
  exact Act.All.bind (sendFpdu_leading (Builder.idt_composed _ _ _) rfl) fun _ => Act.all_pure _

lemma handle_leading (store : MemoryCheckpoints) (pos : Position) (s : RecvState) (f : Fpdu) :
    (handle p store pos s f).All fun w => Leading p.crc (.effect w : Call σ) := by
  refine Act.All.bind (Act.all_lift _) fun m => ?_
  split
  · exact Act.All.bind (Act.all_lift _) fun v => Act.All.bind (takeArticles_leading _ _)
      fun _ => Act.all_pure _
  · split
    · refine Act.All.bind (Act.all_emit trivial) fun _ => ?_
      split
      · refine Act.All.bind (sendFpdu_leading (Builder.ackSyn_composed _ _) rfl) fun _ => ?_
        exact Act.All.bind (Act.all_lift _) fun _ => Act.all_pure _
      · exact Act.all_pure _
    · exact Act.all_pure _
    · refine Act.All.bind (Act.all_emit trivial) fun _ => ?_
      refine Act.All.bind (sendFpdu_leading (Builder.ackResyn_composed _ _) rfl) fun _ => ?_
      exact Act.All.bind (Act.all_lift _) fun _ => Act.all_pure _
    · refine Act.All.bind (sendFpdu_leading (Builder.ackIdt_composed _) rfl) fun _ => ?_
      exact Act.All.bind (Act.all_lift _) fun _ => Act.all_pure _
    · exact Act.all_pure _

lemma react_leading {store : MemoryCheckpoints} {pos : Position} {phase : RecvPhase}
    {r : Except SessionError Fpdu} {x : Io.Run RecvPhase} (h : react p store pos phase r = some x) :
    x.All fun w => Leading p.crc (.effect w : Call σ) := by
  cases phase with
  | receiving s =>
    cases r with
    | ok f =>
      obtain rfl := Option.some.inj h
      exact handle_leading p store pos s f
    | error e =>
      obtain rfl := Option.some.inj h
      cases e with
      | decode err =>
        rw [handleError]
        split
        · refine Act.All.bind (Act.all_lift _) fun m => ?_
          exact Act.All.bind (sendFpdu_leading (Builder.resyn_composed _ _ _) rfl)
            fun _ => Act.all_pure _
        · exact Act.all_lift _
      | _ => exact Act.all_lift _
  | awaitingAckResyn s =>
    cases r with
    | error e =>
      obtain rfl := Option.some.inj h
      exact Act.all_lift _
    | ok f =>
      obtain rfl := Option.some.inj h
      rw [awaitAckResyn]
      split
      · refine Act.All.bind (Act.all_lift _) fun m => ?_
        have htruncate (pos : Position) : (Act.emit (.truncate pos) : Io.Run Unit).All fun w =>
            Leading p.crc (.effect w : Call σ) := Act.all_emit trivial
        dsimp only
        split
        · exact Act.All.bind (Act.all_pure _) fun cp =>
            Act.All.bind (htruncate _) fun _ => Act.all_pure _
        · split
          · exact Act.All.bind (Act.all_pure _) fun cp =>
              Act.All.bind (htruncate _) fun _ => Act.all_pure _
          · exact Act.All.bind (Act.all_lift _) fun cp =>
              Act.All.bind (htruncate _) fun _ => Act.all_pure _
      · split
        · exact Act.All.bind (Act.all_lift _) fun _ => Act.all_pure _
        · exact Act.all_pure _
  | interrupting s =>
    cases r with
    | error e =>
      obtain rfl := Option.some.inj h
      exact Act.all_lift _
    | ok f =>
      obtain rfl := Option.some.inj h
      refine Act.All.bind (interruptRecv_leading p _ f) fun v => ?_
      dsimp only
      split
      · exact Act.all_pure _
      · exact Act.all_pure _
  | ended m res => cases h
  | failed e => cases h

lemma receiveData_leading {report : Progress → Engine σ Unit}
    (hreport : ∀ x, (report x).Within (Leading p.crc)) (turns : ℕ)
    (machine : Machine) (start : Checkpoint) :
    (receiveData p report turns machine start).Within (Leading p.crc) :=
  receiveData_of hreport p trivial trivial trivial trivial (cancel_leading p)
    (fun _ _ _ _ _ h => react_leading p h) turns machine start

def Complained (t : List (Exchange σ)) : Prop := ∃ r, Complains r ∧ (⟨.recv, r⟩ : Exchange σ) ∈ t

lemma Complained.noisy {t : List (Exchange σ)} (h : Complained t) : ¬ Gentle t := by
  rintro hcalm
  obtain ⟨r, ⟨f, rfl, hk, hdiag⟩, hmem⟩ := h
  have hf := hcalm _ hmem f (List.mem_singleton_self f)
  simp only [calm, hk] at hf
  rw [hf] at hdiag
  cases hdiag

lemma receiveData_settled (report : Progress → Engine σ Unit) (turns : ℕ) {machine : Machine}
    (hm : machine.state = .tde02B) (start : Checkpoint) {t : List (Exchange σ)} :
    Gives (receiveData p report turns machine start)
      (fun t' v => Settled True (Complained t') (.ended v.1 v.2)) t := by
  have happend {t w : List (Exchange σ)} (h : Complained t) : Complained (t ++ w) := by
    obtain ⟨r, hr, hmem⟩ := h
    exact ⟨r, hr, List.mem_append_left w hmem⟩
  refine receiveData_keeps p report (I := fun t phase => Settled True (Complained t) phase) turns
    start ?_ ?_ ?_ hm
  · exact fun t w phase h => h.mono id happend
  · exact fun t s hs phase hphase => (cancel_settles p hs).ok hphase
  · intro t store pos phase r x h hreact next hnext
    refine ((react_settles p store pos h hreact).ok hnext).mono (fun _ => trivial) fun hr => ?_
    exact ⟨r, hr, List.mem_append_right t (List.mem_singleton_self _)⟩

end ReceiveData

end Receiving

namespace Responder

section Closing

variable {crc : Bool} {t : List (Exchange σ)} (turns : ℕ)

/-- How a transfer stands that is being closed: if its end has been accepted, then because its
data was complete. -/
structure Closable (data : DataResult) (t : List (Exchange σ)) (s : Machine × Diagnostic) : Prop where
  state : s.1.state = .tde07B ∨ s.1.state = .of02 ∨ s.1.state = .sf03 ∨ s.1.state = .tde05B
  complete : s.1.state = .tde07B ∨ Accepted t → data.ending = .completed ∧ s.2.isOk = true
  unaccepted : s.1.state = .tde07B → ¬ Accepted t
  undone : ¬ Deselected t ∧ ¬ Finishing t

lemma undone_recv (h : ¬ Deselected t ∧ ¬ Finishing t) (r : Except SessionError Fpdu) :
    ¬ Deselected (t ++ [⟨.recv, r⟩]) ∧ ¬ Finishing (t ++ [⟨.recv, r⟩]) := by
  rw [deselected_append, finishing_append]
  refine ⟨not_or.mpr ⟨h.1, ?_⟩, not_or.mpr ⟨h.2, ?_⟩⟩
  · rintro ⟨f, hf, -⟩
    cases List.mem_singleton.mp hf
  · rintro ⟨r, hr⟩
    cases List.mem_singleton.mp hr

lemma undone_send (h : ¬ Deselected t ∧ ¬ Finishing t) {f : Fpdu} {r : Except SessionError Unit}
    (hf : r = .ok () → f.kind ≠ .ackDeselect) :
    ¬ Deselected (t ++ [⟨.send f, r⟩]) ∧ ¬ Finishing (t ++ [⟨.send f, r⟩]) := by
  rw [deselected_append, finishing_append]
  refine ⟨not_or.mpr ⟨h.1, ?_⟩, not_or.mpr ⟨h.2, ?_⟩⟩
  · rintro ⟨g, hg, hk⟩
    cases List.mem_singleton.mp hg
    exact hf rfl hk
  · rintro ⟨r, hr⟩
    cases List.mem_singleton.mp hr

lemma accepted_recv {r : Except SessionError Fpdu} : Accepted (t ++ [⟨.recv, r⟩]) ↔ Accepted t := by
  rw [accepted_append, or_iff_left]
  rintro ⟨f, hf, -⟩
  cases List.mem_singleton.mp hf

lemma accepted_send {f : Fpdu} {r : Except SessionError Unit}
    (hf : f.kind = .ackTransEnd → f.isNegative = true) :
    Accepted (t ++ [⟨.send f, r⟩]) ↔ Accepted t := by
  rw [accepted_append, or_iff_left]
  rintro ⟨g, hg, hk, hpos⟩
  cases List.mem_singleton.mp hg
  rw [hf hk] at hpos
  cases hpos

lemma invalidCounts_negative (peerId : UInt8) (bytes articles : ℕ) :
    (Builder.ackTransEnd peerId .invalidCounts (some bytes) (some articles)).isNegative = true := by
  have hdiag :
      (Builder.ackTransEnd peerId .invalidCounts (some bytes) (some articles)).diag =
      some .invalidCounts := by
    rw [Fpdu.diag, Builder.ackTransEnd_get_diag]
    rfl
  rw [Fpdu.isNegative, hdiag]
  rfl

lemma guarded {α : Type} {y : Engine σ α} {P : List (Exchange σ) → Except SessionError α → Prop}
    (hnoisy : ∀ t' r, ¬ Gentle t' → P t' r) (h : Gentle t → Proc.Safe (Following crc) y t P) :
    Proc.Safe (Following crc) y t P :=
  Proc.Safe.guarded (G := Gentle) (fun _ _ h => h.left) hnoisy h

lemma answer_following {machine : Machine} {s : State}
    (hm : machine.state.apply (.ofLocal .accept) = .next s) {f : Fpdu}
    (hf : f.Composed) (h : ¬ Deselected t ∧ ¬ Finishing t) :
    Proc.Safe (Following crc) (answer machine f : Engine σ Machine) t fun t' r =>
      match r with
      | .ok m => m.state = s ∧ t' = t ++ [⟨.send f, .ok ()⟩]
      | .error _ => ¬ Deselected t' := by
  rw [answer, applyLocal_next hm]
  intro r
  refine ⟨fun _ => orderly_send hf h.1 h.2, ?_⟩
  cases r with
  | error e => exact (undone_send h (by intro hr; cases hr)).1
  | ok _ => exact ⟨rfl, rfl⟩

/-- What a transfer has come to that has been closed, or has failed while it was. -/
def Resolved (data : DataResult) (t : List (Exchange σ))
    (r : Except SessionError (Diagnostic × Machine)) : Prop :=
  Gentle t →
    match r with
    | .ok (diag, _) => ¬ Finishing t ∧ (Accepted t → data.ending = .completed ∧ diag.isOk = true)
    | .error _ => ¬ Deselected t

abbrev ResolvedTurn (data : DataResult) :
    List (Exchange σ) → Except SessionError ((Machine × Diagnostic) ⊕ (Diagnostic × Machine)) → Prop :=
  Proc.TurnPost (fun t s => Gentle t → Closable data t s) (Resolved data)

lemma resolvedTurn_noisy (data : DataResult) (t : List (Exchange σ))
    (r : Except SessionError ((Machine × Diagnostic) ⊕ (Diagnostic × Machine))) (h : ¬ Gentle t) :
    ResolvedTurn data t r := by
  rcases r with e | s | v
  · exact fun hcalm => absurd hcalm h
  · exact fun hcalm => absurd hcalm h
  · exact fun hcalm => absurd hcalm h

lemma closeTurn_following (c : Conn) (data : DataResult) {s : Machine × Diagnostic}
    (h : Gentle t → Closable data t s) :
    Proc.Safe (Following crc) (closeTurn c data s) t (ResolvedTurn data) := by
  refine guarded (resolvedTurn_noisy data) fun hcalm => ?_
  replace h := h hcalm
  obtain ⟨machine, diag⟩ := s
  intro r
  refine ⟨fun _ => orderly_silent rfl (by intro hq; cases hq) fun hjust =>
    absurd hjust.deselected h.undone.1, ?_⟩
  refine guarded (resolvedTurn_noisy data) fun hcalm₁ => ?_
  have hundone := undone_recv h.undone r
  cases r with
  | error e => exact fun _ => hundone.1
  | ok f =>
    have hf : calm f = true := hcalm₁.recv
    have hanswer {m : Machine} {s : State} (hm : m.state.apply (.ofLocal .accept) = .next s) {g : Fpdu}
        (hg : g.Composed) (diag : Diagnostic)
        (hnext : ∀ m' : Machine, m'.state = s →
          Closable data (t ++ [⟨.recv, .ok f⟩] ++ [⟨.send g, .ok ()⟩]) (m', diag)) :
        Proc.Safe (Following crc)
          (do pure (.inl (← answer m g, diag)) : Engine σ ((Machine × Diagnostic) ⊕ (Diagnostic × Machine)))
          (t ++ [⟨.recv, .ok f⟩]) (ResolvedTurn data) := by
      refine (answer_following hm hg hundone).bind ?_ fun t' e ht' => fun _ => ht'
      rintro _ m' ⟨hstate, rfl⟩ -
      exact hnext m' hstate
    show Proc.Safe (Following crc) (Proc.lift (applyReceived machine f) >>= _) (t ++ [⟨.recv, .ok f⟩]) _
    cases hr : applyReceived machine f with
    | error e => exact fun _ => hundone.1
    | ok v =>
      obtain ⟨ignored, m⟩ := v
      obtain ⟨rfl, rfl, -⟩ | ⟨rfl, hnext⟩ := applyReceived_state hr
      · refine fun _ => ⟨h.state, fun hs => h.complete ?_, fun hs => ?_, hundone⟩
        · rwa [accepted_recv] at hs
        · rw [accepted_recv]
          exact h.unaccepted hs
      obtain ⟨htransEnd, hcrf, hdeselect⟩ := stages_next h.state hnext
      simp only [Proc.lift, Proc.done_bind, Bool.false_eq_true, if_false]
      split
      · rename_i hk
        obtain ⟨hmachine, hm⟩ := htransEnd hk
        obtain ⟨hcompleted, hdiag⟩ := h.complete (.inl hmachine)
        have hok : f.diagOrOk.isOk = true := by simpa only [calm, hk] using hf
        rw [if_pos hok]
        split
        · refine hanswer (s := .of02) (by rw [hm]; rfl) (Builder.ackTransEnd_composed _ _ _ _)
            _ fun m' hm' => ?_
          refine ⟨.inr (.inl hm'), fun _ => ⟨hcompleted, hdiag⟩, fun hs =>
            absurd (hs.symm.trans hm') (by decide), ?_⟩
          exact undone_send hundone fun _ hk => by cases hk
        · refine hanswer (s := .of02) (by rw [hm]; rfl) (Builder.ackTransEnd_composed _ _ _ _)
            _ fun m' hm' => ?_
          have hnot : ¬ Accepted
              (t ++ [⟨.recv, .ok f⟩] ++ [⟨.send (Builder.ackTransEnd c.peerId .invalidCounts
              (some data.dataBytes) (some data.articles)), .ok ()⟩]) := by
            rw [accepted_send fun _ => invalidCounts_negative _ _ _, accepted_recv]
            exact h.unaccepted hmachine
          refine ⟨.inr (.inl hm'), ?_, fun _ => hnot, undone_send hundone fun _ hk => by cases hk⟩
          rintro (hs | hs)
          · exact absurd (hs.symm.trans hm') (by decide)
          · exact absurd hs hnot
      · rename_i hk
        obtain ⟨hmachine, hm⟩ := hcrf hk
        have hok : f.diagOrOk.isOk = true := by simpa only [calm, hk] using hf
        rw [if_pos hok]
        refine hanswer (s := .sf03) (by rw [hm]; rfl) (Builder.diagnosed_composed rfl _ _ _)
          _ fun m' hm' => ?_
        refine ⟨.inr (.inr (.inl hm')), ?_, fun hs => absurd (hs.symm.trans hm') (by decide),
          undone_send hundone fun _ hk => by cases hk⟩
        rintro (hs | hs)
        · exact absurd (hs.symm.trans hm') (by decide)
        · exact h.complete (.inr (accepted_recv.mp ((accepted_send fun hk => by cases hk).mp hs)))
      · rename_i hk
        obtain ⟨hmachine, hm⟩ := hdeselect hk
        refine (answer_following (s := .cn03) (by rw [hm]; rfl)
          (Builder.diagnosed_composed rfl _ _ _) hundone).bind ?_ fun t' e ht' => fun _ => ht'
        rintro _ m' ⟨-, rfl⟩ -
        refine ⟨(finishing_append.not.mpr (not_or.mpr ⟨hundone.2, ?_⟩)), fun hs => ?_⟩
        · rintro ⟨r, hr⟩
          cases List.mem_singleton.mp hr
        · exact h.complete (.inr (accepted_recv.mp ((accepted_send fun hk => by cases hk).mp hs)))
      · exact fun _ => hundone.1

lemma closeTransfer_following (c : Conn) (data : DataResult) {machine : Machine}
    (h : Gentle t → Closable data t (machine, .ok)) :
    Proc.Safe (Following crc) (closeTransfer turns c data machine) t (Resolved data) :=
  Proc.Safe.loop (fun t s => Gentle t → Closable data t s)
    (fun _ _ hs => closeTurn_following c data hs) turns h

end Closing

section Writing

variable {t : List (Exchange σ)} (turns : ℕ) (c : Conn)

abbrev crc (c : Conn) : Bool := c.info.negotiated.crc

lemma leading_notify (x : ℕ) (ev : TransferEvent) :
    (notify x ev : Engine σ Unit).Within (Leading (crc c)) :=
  Proc.within_query trivial

lemma leading_ackCreate (diag : Diagnostic) (id : Option UInt32) (size : UInt16)
    (message : Option String) :
    Leading (crc c) (.send (Builder.ackCreate c.peerId diag id size message) : Call σ) := by
  refine ⟨(Builder.ackCreate_built _ _ _ _ _).composed, ?_⟩
  rw [(Builder.ackCreate_laid _ _ _ _ _).eq]
  rfl

lemma leading_ackOrf (x : Compression) :
    Leading (crc c) (.send (Builder.ackOrf c.peerId .ok x) : Call σ) := by
  refine ⟨(Builder.ackOrf_built _ _ _).composed, ?_⟩
  rw [(Builder.ackOrf_laid _ _ _).eq]
  rfl

lemma leading_ackWrite (n : ℕ) : Leading (crc c) (.send (Builder.ackWrite c.peerId .ok n) : Call σ) :=
  ⟨((((Fpdu.Built.new .ackWrite rfl).withIds _ 0).withValue _ _).withNum _ _).composed, rfl⟩

def Ran (t : List (Exchange σ)) (r : Except SessionError (DataResult × Diagnostic × Machine)) : Prop :=
  Gentle t →
    match r with
    | .ok (data, diag, _) => ¬ Finishing t ∧ (Accepted t → data.ending = .completed ∧ diag.isOk = true)
    | .error _ => ¬ Deselected t

lemma runWrite_following (machine : Machine) (spec : FileSpec) (a : CreateAccept) (maxEntity : UInt16)
    (transferId : UInt32) (h : Early t) :
    Proc.Safe (Following (crc c)) (runWrite turns c machine spec a maxEntity transferId) t Ran := by
  have herr {t' : List (Exchange σ)} {P : Prop} (e : SessionError) (h : Early t' ∧ P) :
      Ran t' (.error e) := fun _ => h.1.1
  refine (h.leading (openFile_of turns trivial (leading_ackOrf c) machine)).bind ?_ fun _ e => herr e
  rintro t₁ ⟨compression, machine₁⟩ ⟨h₁, -⟩
  refine (h₁.leading (expect_of turns (C := Leading (crc c)) trivial .write machine₁)).ran.bind ?_
    fun _ e h => herr e h.1
  rintro _ ⟨f, machine₂⟩ ⟨⟨h₂, w, rfl⟩, w', heq, hruns⟩
  obtain rfl := List.append_cancel_left heq
  have hstate : machine₂.state = .tde01B :=
    ((expect_write turns machine₁ (t := [])).runs hruns).2 _ rfl _ rfl
  have hwrite :=
    leading_ackWrite (σ := σ) c (if spec.restarted then a.restart.getD .default else .default).sync
  refine Proc.Safe.bind (answer_following (s := .tde02B) (by rw [hstate]; rfl) hwrite.1 ⟨h₂.1, h₂.2.1⟩)
    ?_ fun _ e hd _ => hd
  rintro _ machine₃ ⟨hstate₃, rfl⟩
  have h₃ := h₂.concat (e := ⟨.send _, .ok ()⟩) hwrite
  refine (h₃.leading (y := effect (.truncate _)) ⟨trivial, fun _ => trivial⟩).bind ?_ fun _ e => herr e
  rintro t₄ - ⟨h₄, -⟩
  refine (h₄.leading (when_within (x := clear) ⟨trivial, fun _ => trivial⟩)).bind ?_ fun _ e => herr e
  rintro t₅ - ⟨h₅, -⟩
  refine (h₅.leading (leading_notify c _ _)).bind ?_ fun _ e => herr e
  rintro t₆ - ⟨h₆, -⟩
  refine (h₆.leading (ReceiveData.receiveData_leading (dataParams c _ _ _)
    (fun _ => leading_notify c _ _) turns machine₃ _)).ran.bind ?_ fun _ e h => herr e h.1
  rintro _ ⟨machine₇, data⟩ ⟨⟨h₇, w₇, rfl⟩, w', heq, hruns₇⟩
  obtain rfl := List.append_cancel_left heq
  have hsettled : ReceiveData.Settled True (ReceiveData.Complained w₇) (.ended machine₇ data) :=
    ((ReceiveData.receiveData_settled _ _ turns hstate₃ _ (t := [])).runs hruns₇).2 _ rfl _ rfl
  refine (closeTransfer_following turns c data fun hcalm => ?_).bind ?_ fun _ _ h => h
  · rw [ReceiveData.Settled] at hsettled
    have hundone : ¬ Deselected (t₆ ++ w₇) ∧ ¬ Finishing (t₆ ++ w₇) := ⟨h₇.1, h₇.2.1⟩
    cases hending : data.ending with
    | completed =>
      simp only [hending, and_true] at hsettled
      exact ⟨.inl hsettled, fun _ => ⟨hending, rfl⟩, fun _ => h₇.2.2, hundone⟩
    | endedWithError d =>
      simp only [hending] at hsettled
      exact absurd (gentle_append.mp hcalm).2 hsettled.noisy
    | interrupted code d byPeer =>
      simp only [hending] at hsettled
      have hnot : machine₇.state ≠ .tde07B := by rcases hsettled with hs | hs <;> simp [hs]
      refine ⟨?_, fun hs => absurd hs (not_or.mpr ⟨hnot, h₇.2.2⟩), fun hs => absurd hs hnot, hundone⟩
      exact hsettled.elim (fun hs => .inr (.inl hs)) fun hs => .inr (.inr (.inr hs))
  · rintro t₈ ⟨diag, machine₈⟩ hresolved
    exact hresolved

lemma handleCreate_following (machine : Machine) (f : Fpdu) (h : Early t) :
    Proc.Safe (Following (crc c)) (handleCreate turns c machine f) t fun _ _ => True := by
  intro r
  refine ⟨fun _ => h.orderly trivial, ?_⟩
  have h₁ : Early (t ++ [(⟨.create c.info (FileSpec.fromFpdu f), r⟩ : Exchange σ)]) :=
    h.concat (show Leading (crc c) (.create c.info (FileSpec.fromFpdu f)) from trivial)
  cases r with
  | error r =>
    exact (h₁.leading (reject_of (leading_ackCreate c _ _ _ _) machine)).mono fun _ _ _ => trivial
  | ok a =>
    refine (h₁.leading (answer_of (leading_ackCreate c _ _ _ _) machine)).bind ?_ fun _ _ _ => trivial
    rintro t₂ machine₂ ⟨h₂, -⟩
    refine (runWrite_following turns c machine₂ _ a _ _ h₂).attempt_bind ?_
    intro t₃ r h₃
    have hnotify {t : List (Exchange σ)} (ev : TransferEvent) (k : Except SessionError Machine)
        (h : Gentle t → JustDeselected t → ¬ Accepted t) :
        Proc.Safe (Following (crc c)) (do notify a.handle ev; Proc.lift k : Engine σ Machine) t
          fun _ _ => True :=
      fun u => ⟨fun hcalm => orderly_silent rfl (by intro hq; cases hq) fun hjust =>
        .inr (h hcalm hjust), trivial⟩
    cases r with
    | error e =>
      exact hnotify (.failed e) (.error e) fun hcalm hjust => absurd hjust.deselected (h₃ hcalm)
    | ok v =>
      obtain ⟨data, diag, machine₃⟩ := v
      change Proc.Safe _ (when (data.ending = .completed ∧ diag.isOk = true) _ >>= _) _ _
      rw [when]
      split
      · intro r
        refine ⟨fun hcalm => orderly_silent rfl (fun _ => (h₃ hcalm).1) fun _ => .inl rfl, ?_⟩
        cases r with
        | error e => trivial
        | ok _ =>
          intro r
          refine ⟨fun _ => orderly_silent rfl (by intro hq; cases hq) fun hjust =>
            absurd hjust (not_just_silent rfl), ?_⟩
          cases r with
          | error e => trivial
          | ok _ =>
            exact hnotify (.ended data diag) (.ok machine₃) fun _ hjust =>
              absurd hjust (not_just_silent rfl)
      · rename_i hcond
        refine hnotify (.ended data diag) (.ok machine₃) fun hcalm _ haccepted => hcond ?_
        exact (h₃ hcalm).2 haccepted

lemma selectionTurn_following (src : ArticleSource σ) (machine : Machine) (h : Early t) :
    Proc.Safe (Following (crc c)) (selectionTurn turns src c machine) t fun _ _ => True := by
  intro r
  refine ⟨fun _ => h.orderly trivial, ?_⟩
  have h₁ : Early (t ++ [(⟨.recv, r⟩ : Exchange σ)]) :=
    h.concat (show Leading (crc c) .recv from trivial)
  refine guarded (fun _ _ _ => trivial) fun hcalm => ?_
  cases r with
  | error e => trivial
  | ok f =>
    have hf : calm f = true := hcalm.recv
    show Proc.Safe _ (Proc.lift (applyReceived machine f) >>= _) (t ++ [⟨.recv, .ok f⟩]) _
    cases applyReceived machine f with
    | error e => trivial
    | ok v =>
      obtain ⟨ignored, m⟩ := v
      simp only [Proc.lift, Proc.done_bind]
      split
      · split
        · exact (handleCreate_following turns c m f h₁).bind (fun _ _ _ => trivial) fun _ _ _ => trivial
        · refine (h₁.leading (reject_of (leading_ackCreate c _ _ _ _) m)).bind (fun _ _ _ => trivial)
            fun _ _ _ => trivial
      · rename_i hk
        simp [calm, hk] at hf
      · rename_i hk
        simp [calm, hk] at hf
      · rename_i hk
        simp [calm, hk] at hf
      · rename_i hk
        simp [calm, hk] at hf
      · split <;> trivial

end Writing

end Responder

section Histories

variable {crc : Bool} {t u v : List (Exchange σ)}

/-- Every step of the history is one of a transfer of which the requester does not complain. -/
def Regular (crc : Bool) (t : List (Exchange σ)) : Prop := ∀ u e v, t = u ++ e :: v → Orderly crc u e

lemma Regular.said_final (h : Regular crc t) {e : Exchange σ} (he : e ∈ t) {g : Fpdu}
    (hg : g ∈ e.said crc) (hfinal : final g = true) : e = ⟨.send g, .ok ()⟩ := by
  obtain ⟨u, v, ht⟩ := List.append_of_mem he
  have horderly := h u e v ht
  obtain ⟨q, r⟩ := e
  cases hq : q.silent with
  | true =>
    rw [said_silent hq] at hg
    cases hg
  | false =>
    cases q with
    | send f =>
      obtain ⟨rfl, rfl⟩ := said_send (horderly.composed f rfl) hg
      rfl
    | effect w =>
      cases w with
      | send entity =>
        rw [horderly.data entity rfl g (said_entity hg)] at hfinal
        cases hfinal
      | _ => cases hq
    | _ => cases hq

/-- After its ACK(DESELECT) a server says nothing more, and so it has accepted the transfer
before or not at all. -/
lemma Regular.accepted_before {f : Fpdu} (h : Regular crc (u ++ ⟨.send f, .ok ()⟩ :: v))
    (hk : f.kind = .ackDeselect) (haccepted : Accepted (u ++ ⟨.send f, .ok ()⟩ :: v)) :
    Accepted (u ++ [⟨.send f, .ok ()⟩]) := by
  have hsplit : u ++ ⟨.send f, .ok ()⟩ :: v = (u ++ [(⟨.send f, .ok ()⟩ : Exchange σ)]) ++ v := by simp
  rw [hsplit, accepted_append] at haccepted
  refine haccepted.resolve_right ?_
  rintro ⟨g, hg, -⟩
  obtain ⟨v₁, v₂, rfl⟩ := List.append_of_mem hg
  have horderly := h (u ++ ⟨.send f, .ok ()⟩ :: v₁) ⟨.send g, .ok ()⟩ v₂ (by simp)
  exact (horderly.last rfl).1 ⟨f, by simp, hk⟩

/-- A server that has accepted a transfer and deselected its file commits the file in its next
step, and only then. -/
lemma Regular.finishes_iff (h : Regular crc t) (haccepted : Accepted t) (hdeselected : Deselected t) :
    (⟨.finish, .ok ()⟩ : Exchange σ) ∈ t ↔ (∀ r, (⟨.finish, r⟩ : Exchange σ) ∈ t → r = .ok ()) ∧
    ¬ JustDeselected t := by
  constructor
  · intro hfinish
    refine ⟨fun r hr => ?_, ?_⟩
    · obtain ⟨u, v, rfl⟩ := List.append_of_mem hfinish
      rcases List.mem_append.mp hr with hr | hr
      · exact absurd ⟨r, hr⟩ ((h u _ v rfl).once rfl)
      · rcases List.mem_cons.mp hr with hr | hr
        · cases hr
          rfl
        · obtain ⟨v₁, v₂, rfl⟩ := List.append_of_mem hr
          exact absurd ⟨.ok (), by simp⟩
            ((h (u ++ ⟨.finish, .ok ()⟩ :: v₁) ⟨.finish, r⟩ v₂ (by simp)).once rfl)
    · rintro ⟨u, f, rfl, -⟩
      refine ((h u _ [] rfl).last rfl).2 ⟨.ok (), ?_⟩
      rcases List.mem_append.mp hfinish with hu | hlast
      · exact hu
      · cases List.mem_singleton.mp hlast
  · rintro ⟨hok, hjust⟩
    obtain ⟨f, hmem, hk⟩ := hdeselected
    obtain ⟨u, v, rfl⟩ := List.append_of_mem hmem
    cases v with
    | nil => exact absurd ⟨u, f, rfl, hk⟩ hjust
    | cons e v =>
      have horderly := h (u ++ [⟨.send f, .ok ()⟩]) e v (by simp)
      have hnext :=
        (horderly.next ⟨u, f, rfl, hk⟩).resolve_right (not_not.mpr (h.accepted_before hk haccepted))
      obtain ⟨q, r⟩ := e
      obtain rfl : q = .finish := hnext
      obtain rfl := hok r (by simp)
      simp

end Histories

/-- A write transfer of a requester and a server that have a session, and so agree on the check bytes. -/
structure WriteTransfer (σ τ : Type) where
  turns : ℕ
  requester : Requester
  src : ArticleSource σ
  source : σ
  spec : TransferSpec
  serverTurns : ℕ
  files : ArticleSource τ
  conn : Conn
  agreed : conn.info.negotiated.crc = requester.negotiated.crc

namespace WriteTransfer

variable (w : WriteTransfer σ τ)

/-- A run of both sides up to a point, from the state in which no file is selected. -/
structure Run (d : Dialogue σ τ) (o : Option (Except SessionError (TransferOutcome × Machine)))
    (o' : Option (Except SessionError (Machine ⊕ Unit))) : Prop where
  requester : Proc.Runs
    (w.requester.sendFile w.turns w.src w.spec w.source ⟨.requester, .cn03⟩) d.requester o
  server : Proc.Runs (Responder.selectionTurn w.serverTurns w.files w.conn ⟨.server, .cn03⟩) d.server o'
  inOrder : d.InOrder w.requester.negotiated.crc [] []

variable {w} {d : Dialogue σ τ} {outcome : TransferOutcome} {m : Machine}
    {o' : Option (Except SessionError (Machine ⊕ Unit))}

lemma early_nil : Early ([] : List (Exchange σ)) := by simp [Early, Deselected, Finishing, Accepted]

lemma Run.regular {o : Option (Except SessionError (TransferOutcome × Machine))} (h : w.Run d o o') :
    Regular w.requester.negotiated.crc d.server := by
  have hsaid :=
    ((Requester.sendFile_calmly w.turns w.src w.requester w.spec w.source _
      (t := [])).runs h.requester).1
  have hcalm : Gentle d.server := by
    intro e he g hg
    obtain ⟨e', he', hg'⟩ := h.inOrder.said_to_server he hg
    obtain ⟨u, v, hd⟩ := List.append_of_mem he'
    exact hsaid u e' v hd g hg'
  intro u e v hd
  rw [← w.agreed]
  refine ((Responder.selectionTurn_following w.serverTurns w.conn w.files _ early_nil).runs
    h.server).1 u e v hd ?_
  rw [hd] at hcalm
  exact hcalm.left

/-- A requester that takes its transfer for complete has been told so by the server before the server
commits the file. The file has been committed once the server has made the step after its last answer,
unless that step has failed. -/
theorem committed_iff (h : w.Run d (some (.ok (outcome, m))) o') (hcomplete : outcome.isComplete) :
    (⟨.finish, .ok ()⟩ : Exchange τ) ∈ d.server ↔
      (∀ r, (⟨.finish, r⟩ : Exchange τ) ∈ d.server → r = .ok ()) ∧ ¬ JustDeselected d.server := by
  have hresult :=
    (Requester.sendFile_calmly w.turns w.src w.requester w.spec w.source _ (t := [])).runs h.requester
  obtain ⟨⟨e, he, g, hg, hk, hpos⟩, e₁, he₁, g₁, hg₁, hk₁⟩ := hresult.2 _ rfl _ rfl hcomplete
  have haccepted : Accepted d.server := by
    obtain ⟨e', he', hg'⟩ := h.inOrder.said_to_requester he hg
    obtain rfl := h.regular.said_final he' hg' (by rw [final, hk])
    exact ⟨g, he', hk, hpos⟩
  have hdeselected : Deselected d.server := by
    obtain ⟨e', he', hg'⟩ := h.inOrder.said_to_requester he₁ hg₁
    obtain rfl := h.regular.said_final he' hg' (by rw [final, hk₁])
    exact ⟨g₁, he', hk₁⟩
  exact h.regular.finishes_iff haccepted hdeselected

def sampleTerms : Negotiated := ⟨.e, ⟨0, 0⟩, false, false⟩

def sampleWrite : WriteTransfer VecSource VecSource where
  turns := 6
  requester := ⟨{ sampleRequester with compression := .none }, 9, sampleTerms⟩
  src := VecSource.ops
  source := .new [[1, 2]]
  spec := ⟨sampleFile, none⟩
  serverTurns := 6
  files := VecSource.ops
  conn := ⟨9, 1, .mixed, ⟨"S", "PW", "CX", "", sampleTerms⟩, sampleAccept⟩
  agreed := rfl

def arriving (fs : List (ℕ × Fpdu)) (n : ℕ) : Except SessionError Fpdu :=
  match fs.lookup n with
  | some f => .ok f
  | none => .error (.transport .closed)

def sampleAnswers : List (ℕ × Fpdu) :=
  [(1, Builder.ackCreate 1 .ok (some 7) 2048 none), (3, Builder.ackOrf 1 .ok .none),
    (5, Builder.ackWrite 1 .ok 0), (16, Builder.ackTransEnd 1 .ok (some 2) (some 1)),
    (18, Builder.ackCrf 1 .ok), (20, Builder.ackDeselect 1 .ok)]

def sampleRequests : List (ℕ × Fpdu) :=
  [(0, (Requester.proposal sampleRequester sampleFile).create 9), (3, Builder.orf 9 .none),
    (5, Builder.write 9), (11, { (Fpdu.new .dtf).withIds 9 0 with data := [1, 2] }),
    (16, Builder.dtfEnd 9 .ok), (19, Builder.transEnd 9 (some 2) (some 1)), (21, Builder.crf 9 .ok),
    (23, Builder.deselect 9 .ok)]

@[irreducible] def requesterPlay :
    List (Exchange VecSource) × Option (Except SessionError (TransferOutcome × Machine)) :=
  Proc.play (world [] sampleAccept Responder.sampleCreate (arriving sampleAnswers)
    (fun _ => .ok ()) (.ok ())) 0 (sampleWrite.requester.sendFile sampleWrite.turns sampleWrite.src
    sampleWrite.spec sampleWrite.source
      ⟨.requester, .cn03⟩)

@[irreducible] def serverPlay (finish : Except SessionError Unit) :
    List (Exchange VecSource) × Option (Except SessionError (Machine ⊕ Unit)) :=
  Proc.play (world [] sampleAccept Responder.sampleCreate (arriving sampleRequests)
    (fun _ => .ok ()) finish) 0 (Responder.selectionTurn sampleWrite.serverTurns sampleWrite.files
    sampleWrite.conn ⟨.server, .cn03⟩)

def writtenDialogue (finish : Except SessionError Unit) : Dialogue VecSource VecSource :=
  .inTurns [(1, 3), (2, 2), (2, 2), (11, 14), (2, 2), (2, 2)] requesterPlay.1 (serverPlay finish).1

lemma written_run {finish : Except SessionError Unit}
    (h : (writtenDialogue finish).InOrder false [] []) :
    sampleWrite.Run (writtenDialogue finish) requesterPlay.2 (serverPlay finish).2 := by
  refine ⟨?_, ?_, h⟩
  · rw [writtenDialogue, Dialogue.inTurns_requester, requesterPlay]
    exact Proc.play_runs _ 0 _
  · rw [writtenDialogue, Dialogue.inTurns_server, serverPlay]
    exact Proc.play_runs _ 0 _

def completes : Option (Except SessionError (TransferOutcome × Machine)) → Bool
  | some (.ok v) => decide v.1.isComplete
  | _ => false

def commits : Exchange σ → Bool
  | ⟨.finish, r⟩ => (r : Except SessionError Unit).isOk
  | _ => false

lemma written_complete :
    ∃ outcome m, requesterPlay.2 = some (.ok (outcome, m)) ∧ outcome.isComplete := by
  have h : completes requesterPlay.2 = true := by decide +kernel
  rw [completes.eq_def] at h
  split at h
  · rename_i v heq
    exact ⟨v.1, v.2, heq, of_decide_eq_true h⟩
  · cases h

theorem committed_iff_written :
    ∃ outcome m o', sampleWrite.Run (writtenDialogue (.ok ())) (some (.ok (outcome, m))) o' ∧
    outcome.isComplete ∧
      ((⟨.finish, .ok ()⟩ : Exchange VecSource) ∈ (writtenDialogue (.ok ())).server ↔
        (∀ r, (⟨.finish, r⟩ : Exchange VecSource) ∈ (writtenDialogue (.ok ())).server → r = .ok ()) ∧
          ¬ JustDeselected (writtenDialogue (.ok ())).server) := by
  obtain ⟨outcome, m, heq, hcomplete⟩ := written_complete
  have hrun := written_run (show (writtenDialogue (.ok ())).InOrder false [] [] by decide +kernel)
  rw [heq] at hrun
  exact ⟨outcome, m, _, hrun, hcomplete, committed_iff hrun hcomplete⟩

/-- The requester takes the transfer for complete, and the file has not been committed:
the sink has failed. -/
theorem committed_iff_failed :
    ∃ outcome m o', sampleWrite.Run (writtenDialogue (.error .io)) (some (.ok (outcome, m))) o' ∧
    outcome.isComplete ∧
      (⟨.finish, .ok ()⟩ : Exchange VecSource) ∉ (writtenDialogue (.error .io)).server := by
  obtain ⟨outcome, m, heq, hcomplete⟩ := written_complete
  have hrun := written_run (show (writtenDialogue (.error .io)).InOrder false [] [] by decide +kernel)
  rw [heq] at hrun
  refine ⟨outcome, m, _, hrun, hcomplete, ?_⟩
  have hfailed : (serverPlay (.error .io)).1.any commits = false := by decide +kernel
  rw [writtenDialogue, Dialogue.inTurns_server]
  intro hmem
  exact absurd (List.any_eq_true.mpr ⟨_, hmem, rfl⟩) (by rw [hfailed]; decide)

end WriteTransfer

end PesitWizard.Io
