import PesitWizard.Io.Endings

/-! What a handler learns of a session as a whole. -/

namespace PesitWizard.Io

open PesitWizard.Core Library Engine Exchange

variable {σ : Type}

namespace Responder

/-- What the handler is asked and told about while a session lasts is about this session. -/
def Serves (info : SessionInfo) : Call σ → Prop
  | .create i _ | .select i _ _ | .message i _ _ _ => i = info
  | .authenticate _ | .sessionClosed _ _ => False
  | _ => True

lemma serves_traffic {info : SessionInfo} (q : Call σ) (h : q.traffic = true) : Serves info q := by
  cases q with
  | create | select | message | authenticate | sessionClosed => cases h
  | _ => trivial

section Within

variable (turns : ℕ) {C : Call σ → Prop} (hC : ∀ q : Call σ, q.traffic = true → C q)
    (hevent : ∀ x ev, C (.event x ev))
  (hclear : C .clear) (hfinish : C .finish)
include hC hevent hclear

lemma runWrite_of (c : Conn) (machine : Machine) (spec : FileSpec) (a : CreateAccept)
    (maxEntity : UInt16) (transferId : UInt32) :
    (runWrite turns c machine spec a maxEntity transferId : Engine σ _).Within C := by
  refine (openFile_within turns hC c machine).bind fun _ => ?_
  refine (expect_within turns hC .write _).bind fun _ => ?_
  refine (answer_within hC _ _).bind fun _ => ?_
  refine Proc.Within.bind (traffic_within hC rfl fun _ => trivial) fun _ => ?_
  have hclears : (clear : Engine σ Unit).Within C := ⟨hclear, fun _ => trivial⟩
  refine (when_within hclears).bind fun _ => ?_
  refine Proc.Within.bind (Proc.within_query (hevent _ _)) fun _ => ?_
  refine (ReceiveData.receiveData_within hC (fun _ => Proc.within_query (hevent _ _)) _ turns _
    _).bind fun _ => ?_
  exact (closeTransfer_within turns hC c _ _).bind fun _ => trivial

lemma runRead_of (src : ArticleSource σ) (c : Conn) (machine : Machine) (spec : FileSpec)
    (a : SelectAccept σ) (maxEntity : UInt16) (transferId : UInt32) :
    (runRead turns src c machine spec a maxEntity transferId).Within C := by
  refine (openFile_within turns hC c machine).bind fun _ => ?_
  refine (expect_within turns hC .read _).bind fun _ => ?_
  refine Proc.Within.bind (Proc.within_query (hC _ rfl)) fun store => ?_
  dsimp only
  split
  · exact (reject_within hC _ _).bind fun _ => trivial
  · have hclears : (clear : Engine σ Unit).Within C := ⟨hclear, fun _ => trivial⟩
    refine (answer_within hC _ _).bind fun _ => ?_
    refine (when_within hclears).bind fun _ => ?_
    refine Proc.Within.bind (Proc.within_query (hevent _ _)) fun _ => ?_
    refine (SendData.sendData_within hC (fun _ => Proc.within_query (hevent _ _)) src _ turns _ _
      _).bind fun _ => ?_
    exact (closeTransfer_within turns hC c _ _).bind fun _ => trivial

include hfinish

/-- The calls of the phase in which transfers are asked for, one after the other. -/
lemma selectionPhase_of (src : ArticleSource σ) (c : Conn) (hcreate : ∀ file, C (.create c.info file))
    (hselect : ∀ file attrs, C (.select c.info file attrs))
    (hmessage : ∀ file m reply, C (.message c.info file m reply))
    (machine : Machine) : (selectionPhase turns src c machine).Within C := by
  have hclears : (clear : Engine σ Unit).Within C := ⟨hclear, fun _ => trivial⟩
  have hcommits : (do finish; clear : Engine σ Unit).Within C := ⟨hfinish, fun a => by cases a with
    | ok _ => exact hclears
    | error _ => trivial⟩
  have hnotify (x : ℕ) (ev : TransferEvent) : (notify x ev : Engine σ Unit).Within C :=
    Proc.within_query (hevent x ev)
  have hinl {y : Engine σ Machine} (hy : y.Within C) :
      (do pure (.inl (← y)) : Engine σ (Machine ⊕ Unit)).Within C :=
    hy.bind fun _ => trivial
  have hcreates (machine : Machine) (f : Fpdu) :
      (handleCreate turns c machine f : Engine σ Machine).Within C := by
    refine Proc.Within.bind (Proc.within_query (hcreate _)) fun r => ?_
    cases r with
    | error r => exact reject_within hC _ _
    | ok a =>
      refine (answer_within hC _ _).bind fun _ => ?_
      refine (runWrite_of turns hC hevent hclear c _ _ a _ _).attempt.bind fun r => ?_
      split
      · refine (when_within hcommits).bind fun _ => ?_
        exact (hnotify _ _).bind fun _ => trivial
      · exact (hnotify _ _).bind fun _ => trivial
  have hselects (machine : Machine) (f : Fpdu) : (handleSelect turns src c machine f).Within C := by
    refine Proc.Within.bind (Proc.within_query (hselect _ _)) fun r => ?_
    cases r with
    | error r => exact reject_within hC _ _
    | ok a =>
      refine (answer_within hC _ _).bind fun _ => ?_
      refine (runRead_of turns hC hevent hclear src c _ _ a _ _).attempt.bind fun r => ?_
      split
      · refine (when_within hclears).bind fun _ => ?_
        exact (hnotify _ _).bind fun _ => trivial
      · exact (hnotify _ _).bind fun _ => trivial
  have hmessages (machine : Machine) (f : Fpdu) :
      (handleMessage turns c machine f : Engine σ Machine).Within C := by
    refine (wholeMessage_within turns hC _ _).bind fun _ => ?_
    exact Proc.Within.bind (Proc.within_query (hmessage _ _ _)) fun r => answer_within hC _ _
  refine (answer_within hC machine _).bind fun machine => ?_
  refine Proc.Within.loop (fun machine => ?_) turns machine
  refine Proc.Within.bind (traffic_within hC rfl fun _ => trivial) fun f => ?_
  refine Proc.Within.bind trivial fun r => ?_
  obtain ⟨ignored, m⟩ := r
  dsimp only
  split
  · split
    · exact hinl (hcreates m f)
    · exact hinl (reject_within hC m _)
  · split
    · exact hinl (hselects m f)
    · exact hinl (reject_within hC m _)
  · exact hinl (hmessages m f)
  · exact hinl (hmessages m f)
  · exact (answer_within hC m _).bind fun _ => trivial
  · split <;> trivial

end Within

def failure : Except SessionError Unit → Option SessionError
  | .ok _ => none
  | .error e => some e

/-- After the session nothing is exchanged but an ABORT, if the peer is owed one for the error. -/
def Farewell (r : Except SessionError Unit) (rest : List (Exchange σ)) : Prop :=
  match r with
  | .ok _ => rest = []
  | .error e =>
    if abortDue e then ∃ idDst idSrc a,
      rest = [⟨.send (Builder.abort idDst idSrc e.abortDiag), a⟩] else rest = []

lemma Farewell.traffic {r : Except SessionError Unit} {rest : List (Exchange σ)} (h : Farewell r rest) :
    ∀ e ∈ rest, e.1.traffic = true := by
  intro d hd
  cases r with
  | ok u =>
    rw [Farewell] at h
    rw [h] at hd
    cases hd
  | error e =>
    simp only [Farewell] at h
    split at h
    · obtain ⟨idDst, idSrc, a, rfl⟩ := h
      obtain rfl := List.mem_singleton.mp hd
      rfl
    · rw [h] at hd
      cases hd

/-- A session from the point of view of its handler. If it does not admit the session it hears no more of
it. If it does, it is asked for the transfers of this session only, and is told once that the session is
over and why, when no transfer is open but one whose end has been lost. -/
inductive Course (t : List (Exchange σ)) (r : Except SessionError Unit) : Prop
  | refused (h : ∀ e ∈ t, e.1.traffic = true ∨ ∃ req x,
      e = ⟨.authenticate req, Except.error (α := ConnectAccept) x⟩)
  | served (u v rest : List (Exchange σ)) (req : ConnectRequest) (a : ConnectAccept) (info : SessionInfo)
    (ht : t = u ++ ⟨.authenticate req, Except.ok (ε := Refusal) a⟩ :: v ++
    ⟨.sessionClosed info (failure r), ()⟩ :: rest) (hu : ∀ e ∈ u, e.1.traffic = true)
    (hv : ∀ e ∈ v, Serves info e.1) (hinfo : info.requester = req.requester ∧ info.server = req.server)
      (hrest : Farewell r rest)
    (hopen : Idle (u ++ ⟨.authenticate req, Except.ok (ε := Refusal) a⟩ :: v) ∨
      Broken (u ++ ⟨.authenticate req, Except.ok (ε := Refusal) a⟩ :: v))

variable (turns : ℕ) {t : List (Exchange σ)}

lemma authenticate_course (cfg : ResponderConfig) (entity : Bytes) (connect : Fpdu)
    (req : ConnectRequest) (machine : Machine) (h : Idle t) (ht : ∀ e ∈ t, e.1.traffic = true) :
    Proc.Safe (fun _ _ => True)
    (authenticate cfg entity connect req machine : Engine σ Conn) t fun t' r =>
      match r with
      | .ok c => Idle t' ∧ (c.info.requester = req.requester ∧ c.info.server = req.server) ∧
          ∃ a, t' = t ++ [⟨.authenticate req, Except.ok (ε := Refusal) a⟩]
      | .error _ => ∀ e ∈ t', e.1.traffic = true ∨ ∃ req x,
        e = ⟨.authenticate req, Except.error (α := ConnectAccept) x⟩ := by
  change Proc.Safe _ (if _ then _ else _) t _
  split
  · exact fun e he => .inl (ht e he)
  · intro r
    refine ⟨trivial, ?_⟩
    cases r with
    | ok a =>
      exact ⟨(h.other (e := ⟨.authenticate req, .ok a⟩) rfl rfl fun hl => hl.2).2, ⟨rfl, rfl⟩, a, rfl⟩
    | error x =>
      have hstart : ∀ e ∈ t ++ [⟨.authenticate req, Except.error (α := ConnectAccept) x⟩],
          e.1.traffic = true ∨ ∃ req x,
          e = (⟨.authenticate req, Except.error (α := ConnectAccept) x⟩ : Exchange σ) := by
        intro e he
        rcases List.mem_append.mp he with he | he
        · exact .inl (ht e he)
        · exact .inr ⟨req, x, List.mem_singleton.mp he⟩
      have hreject :
          (reject machine (Builder.rconnect connect.idSrc x.diag x.message) : Engine σ Machine).Within
          fun q => q.traffic = true := reject_within (fun _ hq => hq) machine _
      refine (hreject.safe (fun t' => ∀ e ∈ t', e.1.traffic = true ∨
        ∃ req x, e = ⟨.authenticate req, Except.error (α := ConnectAccept) x⟩) ?_ hstart).bind ?_ ?_
      · intro t' e ht' he
        refine ⟨trivial, fun d hd => ?_⟩
        rcases List.mem_append.mp hd with hd | hd
        · exact ht' d hd
        · obtain rfl := List.mem_singleton.mp hd
          exact .inl he
      · exact fun t' _ ht' => ht'
      · exact fun t' _ ht' => ht'

/-- It does not fail itself, and the error is that of the session. -/
lemma abortOn_leaves (connId peerId : UInt8) (e : SessionError)
    (h : ∀ rest, Farewell (.error e) rest → Course (t ++ rest) (.error e)) :
    Proc.Safe (fun _ _ => True) (do abortOn connId peerId e; Proc.lift (.error e) : Engine σ Unit) t
    fun t' r => Course t' r := by
  refine Proc.Safe.bind (P := fun t' r => r = .ok () ∧ ∃ rest, t' = t ++ rest ∧
    Farewell (.error e) rest) ?_ ?_ ?_
  · rw [abortOn]
    simp only [Farewell]
    split
    · intro a
      refine ⟨trivial, ?_⟩
      cases a <;> exact ⟨rfl, _, rfl, _, _, _, rfl⟩
    · exact ⟨rfl, [], (List.append_nil t).symm, rfl⟩
  · rintro t' _ ⟨-, rest, rfl, hrest⟩
    exact h rest hrest
  · rintro t' x ⟨hx, -⟩
    cases hx

/-- The course of a session for its handler, up to the end of the run. -/
theorem serve_course (src : ArticleSource σ) (cfg : ResponderConfig) {r : Except SessionError Unit}
    (hruns : Proc.Runs (serve turns src cfg) t (some r)) : Course t r := by
  suffices h :
      Proc.Safe (fun _ _ => True) (serve turns src cfg) [] fun t r =>
      Course t r from (h.runs hruns).2 r rfl
  have htraffic {α : Type} {y : Engine σ α} (hy : y.Within fun q => q.traffic = true)
      {t : List (Exchange σ)} {o : Option (Except SessionError α)} (hrun : Proc.Runs y t o) : ∀ e ∈ t,
      e.1.traffic = true := hy.calls hrun
  have hidle : Idle ([] : List (Exchange σ)) := ⟨rfl, loses_nil⟩
  have hawait : (awaitConnect : Engine σ _).Within fun q => q.traffic = true :=
    awaitConnect_within fun _ hq => hq
  refine ((idle_safe hawait hidle).weaken fun _ _ _ => trivial).ran.bind ?_ ?_
  · rintro t₁ ⟨entity, preconnect⟩ ⟨h₁, w, rfl, hw⟩
    dsimp only
    cases hr : readRequest cfg entity preconnect with
    | error e => exact .refused fun e he => .inl (htraffic hawait hw e he)
    | ok v =>
      obtain ⟨connect, req, machine⟩ := v
      obtain ⟨-, -, -, hm⟩ := readRequest_ok hr
      refine (authenticate_course cfg entity connect req machine h₁ (htraffic hawait hw)).attempt_bind ?_
      intro t₂ r h₂
      cases r with
      | error e =>
        refine abortOn_leaves cfg.connId connect.idSrc e fun rest hrest => .refused fun d hd => ?_
        rcases List.mem_append.mp hd with hd | hd
        · exact h₂ d hd
        · exact .inl (hrest.traffic d hd)
      | ok c =>
        obtain ⟨h₂, hinfo, a, rfl⟩ := h₂
        have hserves : (selectionPhase turns src c machine).Within (Serves c.info) :=
          selectionPhase_of turns serves_traffic (fun _ _ => trivial) trivial trivial src c
            (fun _ => rfl) (fun _ _ => rfl) (fun _ _ _ => rfl) machine
        refine ((selectionPhase_safe turns src c hm h₂).weaken fun _ _ _ => trivial).ran.attempt_bind ?_
        rintro t₃ r ⟨h₃, v, rfl, hv⟩
        have hserved {r : Except SessionError Unit} {w : List (Exchange σ)} (hrest : Farewell r w) :
            Course (t₁ ++ [⟨.authenticate req, .ok a⟩] ++ v ++
            [⟨.sessionClosed c.info (failure r), ()⟩] ++ w) r := by
          have hcons : t₁ ++ [⟨.authenticate req, .ok a⟩] ++ v =
              t₁ ++ (⟨.authenticate req, Except.ok (ε := Refusal) a⟩ : Exchange σ) :: v := by simp
          rw [hcons] at h₃ ⊢
          refine .served t₁ v w req a c.info ?_ (htraffic hawait hw) (hserves.calls hv) hinfo hrest h₃
          simp
        cases r with
        | ok u =>
          intro x
          refine ⟨trivial, ?_⟩
          have h := hserved (r := .ok ()) (w := []) rfl
          rwa [List.append_nil] at h
        | error e =>
          intro x
          exact ⟨trivial, abortOn_leaves c.connId c.peerId e fun rest hrest => hserved hrest⟩
  · rintro t' e ⟨-, w, rfl, hw⟩
    exact .refused fun e he => .inl (htraffic hawait hw e he)

theorem serve_course_reported : ∃ r, reportedSession.2 = some r ∧ Course reportedSession.1 r := by
  have hsome : reportedSession.2.isSome = true := by decide +kernel
  obtain ⟨r, hr⟩ := Option.isSome_iff_exists.mp hsome
  have hruns := reportedSession_runs
  rw [hr] at hruns
  exact ⟨r, hr, serve_course 2 VecSource.ops sampleServer hruns⟩

end Responder

end PesitWizard.Io
