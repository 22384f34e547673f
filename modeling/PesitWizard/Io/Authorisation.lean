import PesitWizard.Io.TransferEvents

/-! What the handler of a server is asked for, and for whom. -/

namespace PesitWizard.Io

open PesitWizard.Core Library Engine

variable {σ : Type}

/-- The access that a call of the handler takes. -/
def Call.needs : Call σ → Option (AccessType → Bool)
  | .create _ _ => some AccessType.allowsWrite
  | .select _ _ _ => some AccessType.allowsRead
  | .message _ _ _ _ => some fun _ => true
  | _ => none

/-- The calls that a connection with the access may make, and no other authentication. -/
def Call.Within (access : AccessType) (q : Call σ) : Prop :=
  ∀ need, q.needs = some need → need access = true

namespace Responder

section Within

variable {access : AccessType}

lemma needless {q : Call σ} (hq : q.needs = none) : q.Within access := by
  intro need hneed
  rw [hq] at hneed
  cases hneed

lemma traffic_needless (q : Call σ) (hq : q.traffic = true) : q.Within access := by
  refine needless ?_
  cases q <;> first | rfl | cases hq

lemma notify_allowed (handle : ℕ) (e : TransferEvent) :
    (notify handle e : Engine σ Unit).Within (Call.Within access) :=
  Proc.within_query (needless rfl)

lemma clear_allowed : (clear : Engine σ Unit).Within (Call.Within access) :=
  ⟨needless rfl, fun _ => trivial⟩

lemma finish_allowed : (finish : Engine σ Unit).Within (Call.Within access) :=
  ⟨needless rfl, fun _ => trivial⟩

variable (turns : ℕ)

lemma runWrite_allowed (c : Conn) (machine : Machine) (spec : FileSpec) (a : CreateAccept)
    (maxEntity : UInt16) (transferId : UInt32) :
    (runWrite turns c machine spec a maxEntity transferId : Engine σ _).Within (Call.Within access) := by
  refine (openFile_within turns traffic_needless c machine).bind fun _ => ?_
  refine (expect_within turns traffic_needless .write _).bind fun _ => ?_
  refine (answer_within traffic_needless _ _).bind fun _ => ?_
  refine Proc.Within.bind (traffic_within traffic_needless rfl fun _ => trivial) fun _ => ?_
  refine (when_within clear_allowed).bind fun _ => ?_
  refine (notify_allowed _ _).bind fun _ => ?_
  refine (ReceiveData.receiveData_within traffic_needless (fun _ => notify_allowed _ _) _ turns _
    _).bind fun _ => ?_
  exact (closeTransfer_within turns traffic_needless c _ _).bind fun _ => trivial

lemma runRead_allowed (src : ArticleSource σ) (c : Conn) (machine : Machine) (spec : FileSpec)
    (a : SelectAccept σ) (maxEntity : UInt16) (transferId : UInt32) :
    (runRead turns src c machine spec a maxEntity transferId).Within (Call.Within access) := by
  refine (openFile_within turns traffic_needless c machine).bind fun _ => ?_
  refine (expect_within turns traffic_needless .read _).bind fun _ => ?_
  refine Proc.Within.bind (Proc.within_query (needless rfl)) fun store => ?_
  dsimp only
  split
  · exact (reject_within traffic_needless _ _).bind fun _ => trivial
  · refine (answer_within traffic_needless _ _).bind fun _ => ?_
    refine (when_within clear_allowed).bind fun _ => ?_
    refine (notify_allowed _ _).bind fun _ => ?_
    refine (SendData.sendData_within traffic_needless (fun _ => notify_allowed _ _) src _ turns _ _
      _).bind fun _ => ?_
    exact (closeTransfer_within turns traffic_needless c _ _).bind fun _ => trivial

lemma handleCreate_allowed (c : Conn) (machine : Machine) (f : Fpdu) (h : access.allowsWrite = true) :
    (handleCreate turns c machine f : Engine σ Machine).Within (Call.Within access) := by
  refine Proc.Within.bind (Proc.within_query ?_) fun r => ?_
  · rintro need ⟨⟩
    exact h
  · dsimp only
    split
    · exact reject_within traffic_needless _ _
    · refine (answer_within traffic_needless _ _).bind fun _ => ?_
      refine (runWrite_allowed turns c _ _ _ _ _).attempt.bind fun r => ?_
      split
      · refine (when_within (finish_allowed.bind fun _ => clear_allowed)).bind fun _ => ?_
        exact (notify_allowed _ _).bind fun _ => trivial
      · exact (notify_allowed _ _).bind fun _ => trivial

lemma handleSelect_allowed (src : ArticleSource σ) (c : Conn) (machine : Machine) (f : Fpdu)
    (h : access.allowsRead = true) :
    (handleSelect turns src c machine f).Within (Call.Within access) := by
  refine Proc.Within.bind (Proc.within_query ?_) fun r => ?_
  · rintro need ⟨⟩
    exact h
  · dsimp only
    split
    · exact reject_within traffic_needless _ _
    · refine (answer_within traffic_needless _ _).bind fun _ => ?_
      refine (runRead_allowed turns src c _ _ _ _ _).attempt.bind fun r => ?_
      split
      · refine (when_within clear_allowed).bind fun _ => ?_
        exact (notify_allowed _ _).bind fun _ => trivial
      · exact (notify_allowed _ _).bind fun _ => trivial

lemma handleMessage_allowed (c : Conn) (machine : Machine) (f : Fpdu) :
    (handleMessage turns c machine f : Engine σ Machine).Within (Call.Within access) := by
  refine (wholeMessage_within turns traffic_needless _ _).bind fun _ => ?_
  refine Proc.Within.bind (Proc.within_query ?_) fun r => ?_
  · rintro need ⟨⟩
    rfl
  · exact answer_within traffic_needless _ _

lemma selectionPhase_allowed (src : ArticleSource σ) (c : Conn) (machine : Machine) :
    (selectionPhase turns src c machine).Within (Call.Within c.access) := by
  refine (answer_within traffic_needless _ _).bind fun _ => ?_
  refine Proc.Within.loop (fun machine => ?_) turns _
  refine Proc.Within.bind (traffic_within traffic_needless rfl fun _ => trivial) fun f => ?_
  refine Proc.Within.bind trivial fun r => ?_
  dsimp only
  split
  · split
    · exact (handleCreate_allowed turns c _ f ‹_›).bind fun _ => trivial
    · exact (reject_within traffic_needless _ _).bind fun _ => trivial
  · split
    · exact (handleSelect_allowed turns src c _ f ‹_›).bind fun _ => trivial
    · exact (reject_within traffic_needless _ _).bind fun _ => trivial
  · exact (handleMessage_allowed turns c _ f).bind fun _ => trivial
  · exact (handleMessage_allowed turns c _ f).bind fun _ => trivial
  · exact (answer_within traffic_needless _ _).bind fun _ => trivial
  · split
    · trivial
    · trivial

end Within

/-- The handler has authenticated a CONNECT of this connection, which asked for the access; a CONNECT
that does not name a known one asks for both. -/
def Granted (cfg : ResponderConfig) (access : AccessType) (t : List (Exchange σ)) : Prop :=
  ∃ entity connect preconnect accept,
    (⟨.recvEntity, .ok entity⟩ : Exchange σ) ∈ t ∧ readConnect entity = .ok connect ∧
    connect.kind = .connect ∧
      (⟨.authenticate (connectRequest connect preconnect cfg.remoteAddr), .ok accept⟩ : Exchange σ) ∈ t ∧
      access = connect.accessType.getD .mixed

def Authorised (cfg : ResponderConfig) (t : List (Exchange σ)) (e : Exchange σ) : Prop :=
  ∀ need, e.1.needs = some need → ∃ access, Granted cfg access t ∧ need access = true

section Authorised

variable {cfg : ResponderConfig} {t : List (Exchange σ)}

lemma needless_authorised {q : Call σ} {r : Call.Result q} (hq : q.needs = none) :
    Authorised cfg t ⟨q, r⟩ := by
  intro need hneed
  rw [hq] at hneed
  cases hneed

lemma traffic_authorised {α : Type} {y : Engine σ α} (hy : y.Within (fun q => q.traffic = true)) :
    Proc.Safe (Authorised cfg) y t (fun _ _ => True) := by
  refine hy.safe (fun _ => True) ?_ trivial
  rintro t ⟨q, r⟩ - hq
  refine ⟨needless_authorised ?_, trivial⟩
  cases q <;> first | rfl | cases hq

lemma Granted.mono {access : AccessType} (h : Granted cfg access t) (e : Exchange σ) :
    Granted cfg access (t ++ [e]) := by
  obtain ⟨entity, connect, preconnect, accept, hentity, hconnect, hkind, haccept, haccess⟩ := h
  exact ⟨entity, connect, preconnect, accept, List.mem_append_left _ hentity, hconnect, hkind,
    List.mem_append_left _ haccept, haccess⟩

lemma recvEntity_authorised : Proc.Safe (Authorised cfg) (recvEntity : Engine σ Bytes) t (fun t' r =>
    ∀ entity, r = .ok entity → (⟨.recvEntity, .ok entity⟩ : Exchange σ) ∈ t') := by
  intro r
  refine ⟨needless_authorised rfl, ?_⟩
  rintro entity hr
  cases hr
  simp

lemma awaitConnect_authorised : Proc.Safe (Authorised cfg) (awaitConnect : Engine σ _) t (fun t' r =>
    ∀ v, r = .ok v → (⟨.recvEntity, .ok v.1⟩ : Exchange σ) ∈ t') := by
  refine recvEntity_authorised.bind ?_ fun _ _ _ => error_ok_elim
  intro t₁ entity hentity
  split
  · refine (traffic_authorised ⟨rfl, fun _ => trivial⟩ : Proc.Safe _ (sendEntity _) _ _).bind ?_
      fun _ _ _ => error_ok_elim
    intro t₂ _ _
    refine recvEntity_authorised.bind ?_ fun _ _ _ => error_ok_elim
    intro t₃ connect hconnect v hv
    obtain rfl := Except.ok.inj hv
    exact hconnect connect rfl
  · intro v hv
    obtain rfl := Except.ok.inj hv
    exact hentity entity rfl

lemma authenticate_authorised {entity : Bytes} {connect : Fpdu} {preconnect : Option (String × String)}
    (hentity : (⟨.recvEntity, .ok entity⟩ : Exchange σ) ∈ t)
    (hconnect : readConnect entity = .ok connect) (hkind : connect.kind = .connect) (machine : Machine) :
    Proc.Safe (Authorised cfg)
      (authenticate cfg entity connect (connectRequest connect preconnect cfg.remoteAddr)
        machine : Engine σ Conn) t
      (fun t' r => ∀ c, r = .ok c → Granted cfg c.access t') := by
  change Proc.Safe (Authorised cfg) (if _ then _ else _) t _
  split
  · exact error_ok_elim
  · intro r
    refine ⟨needless_authorised rfl, ?_⟩
    cases r with
    | error r =>
      refine (traffic_authorised (reject_within (fun _ hq => hq) machine _)).bind ?_
        fun _ _ _ => error_ok_elim
      exact fun _ _ _ => error_ok_elim
    | ok accept =>
      intro c hc
      obtain rfl := Except.ok.inj hc
      exact ⟨entity, connect, preconnect, accept, List.mem_append_left _ hentity, hconnect,
        hkind, by simp, rfl⟩

lemma allowed_safe {access : AccessType} {α : Type} {y : Engine σ α} (hy : y.Within (Call.Within access))
    (h : Granted cfg access t) : Proc.Safe (Authorised cfg) y t (fun _ _ => True) := by
  refine (hy.safe (Granted cfg access) ?_ h).mono fun _ _ _ => trivial
  intro t e ht hq
  exact ⟨fun need hneed => ⟨access, ht, hq need hneed⟩, ht.mono e⟩

variable (turns : ℕ) (src : ArticleSource σ) (cfg)

lemma serve_authorised : Proc.Safe (Authorised cfg) (serve turns src cfg) [] (fun _ _ => True) := by
  refine awaitConnect_authorised.bind ?_ fun _ _ _ => trivial
  rintro t₁ ⟨entity, preconnect⟩ hentity
  dsimp only
  cases hr : readRequest cfg entity preconnect with
  | error e => trivial
  | ok v =>
    obtain ⟨connect, req, machine⟩ := v
    obtain ⟨hconnect, hkind, rfl, -⟩ := readRequest_ok hr
    refine (authenticate_authorised (hentity _ rfl) hconnect hkind machine).attempt_bind ?_
    intro t₂ r hgranted
    cases r with
    | error e =>
      refine (traffic_authorised (abortOn_within (fun _ hq => hq) _ _ e)).bind ?_ fun _ _ _ => trivial
      exact fun _ _ _ => trivial
    | ok c =>
      refine (allowed_safe (selectionPhase_allowed turns src c machine) (hgranted c rfl)).attempt_bind ?_
      intro t₃ r _
      cases r with
      | ok u => exact fun r => ⟨needless_authorised rfl, trivial⟩
      | error e =>
        refine fun r => ⟨needless_authorised rfl, ?_⟩
        refine (traffic_authorised (abortOn_within (fun _ hq => hq) _ _ e)).bind ?_ fun _ _ _ => trivial
        exact fun _ _ _ => trivial

/-- For every peer, the handler is asked for a transfer or a message only after it has authenticated the
connection, for a transfer only if the access of the CONNECT allows it, and the transfers of a connection
come one after the other. -/
theorem responder_authorisation {t : List (Exchange σ)} {o : Option (Except SessionError Unit)}
    (h : Proc.Runs (serve turns src cfg) t o) :
    (∀ u e v, t = u ++ e :: v → Authorised cfg u e) ∧
      ∀ u e v e' w x, t = u ++ e :: v ++ e' :: w → e.accepts = some x → e'.accepts ≠ none →
        ∃ d ∈ v, d.reports = some x ∧ d.terminates = true := by
  refine ⟨((serve_authorised cfg turns src).runs h).1, ?_⟩
  intro u e v e' w x ht he he'
  subst ht
  have horder : transfers.InOrder (u ++ e :: v ++ e' :: w) := ((serve_safe turns src cfg).runs h).1
  exact horder.between transfers_lawful he he'

theorem responder_authorisation_sample :
    ∃ u e v, reportedSession.1 = u ++ e :: v ∧ e.1.needs.isSome = true ∧
    Authorised sampleServer u e := by
  have hneeds : reportedSession.1[4]?.map (fun e => e.1.needs.isSome) = some true := by decide +kernel
  obtain ⟨e, he, hneed⟩ := Option.map_eq_some_iff.mp hneeds
  obtain ⟨hlen, rfl⟩ := List.getElem?_eq_some_iff.mp he
  have hsplit : reportedSession.1 = reportedSession.1.take 4 ++ reportedSession.1[4] ::
      reportedSession.1.drop 5 := by
    rw [← List.drop_eq_getElem_cons hlen, List.take_append_drop]
  exact ⟨_, _, _, hsplit, hneed,
    (responder_authorisation sampleServer 2 VecSource.ops reportedSession_runs).1 _ _ _ hsplit⟩

end Authorised

end Responder

end PesitWizard.Io
