import PesitWizard.Io.Closing

/-! When a requester commits the file that it has asked for. -/

namespace PesitWizard.Io

open PesitWizard.Core Library Engine Exchange

variable {σ : Type}

namespace ReceiveData

variable {ends : Prop}

/-- A phase that has completed takes a reason. -/
def Completes (ends : Prop) : RecvPhase → Prop
  | .ended _ res => res.ending = .completed → ends
  | _ => True

abbrev Brings (ends : Prop) (x : Io.Run RecvPhase) : Prop :=
  x.Meets (fun _ => True) fun _ phase => Completes ends phase

lemma brings_any {α : Type} {x : Io.Run α} {k : α → Io.Run RecvPhase} (hk : ∀ a, Brings ends (k a)) :
    Brings ends (x >>= k) :=
  Act.Meets.bind (Q := fun _ _ => True) (by rw [Act.Meets]; split <;> trivial) fun _ a _ => hk a

lemma handle_completes (p : DataParams) (store : MemoryCheckpoints) (pos : Position)
    (s : RecvState) (f : Fpdu) :
    Brings (f.kind = .dtfEnd ∧ f.diagOrOk.isOk = true) (handle p store pos s f) := by
  rw [handle]
  refine brings_any fun m => ?_
  split
  · exact brings_any fun v => brings_any fun s' => trivial
  · split
    · refine brings_any fun _ => ?_
      split
      · exact brings_any fun _ => brings_any fun m => trivial
      · trivial
    · rename_i hk
      intro hcompleted
      refine ⟨hk, ?_⟩
      by_contra hbad
      simp only [result, if_neg hbad] at hcompleted
      cases hcompleted
    · exact brings_any fun _ => brings_any fun _ => brings_any fun m => trivial
    · refine brings_any fun _ => brings_any fun m => ?_
      intro hcompleted
      cases hcompleted
    · trivial

lemma handleError_completes (p : DataParams) (s : RecvState) (e : SessionError) :
    Brings ends (handleError p s e) := by
  cases e with
  | decode err =>
    rw [handleError]
    split
    · exact brings_any fun m => brings_any fun _ => trivial
    · trivial
  | _ => trivial

lemma awaitAckResyn_completes (p : DataParams) (store : MemoryCheckpoints) (s : RecvState) (f : Fpdu) :
    Brings ends (awaitAckResyn p store s f) := by
  rw [awaitAckResyn]
  split
  · refine brings_any fun m => ?_
    dsimp only
    split
    · exact brings_any fun _ => trivial
    · split
      · exact brings_any fun _ => trivial
      · trivial
  · split
    · exact brings_any fun m => trivial
    · trivial

lemma interrupted_completes (p : DataParams) (s : RecvState) (f : Fpdu) :
    Brings ends (interrupted p s f) := by
  rw [interrupted]
  refine brings_any fun v => ?_
  dsimp only
  split
  · exact fun hcompleted => by cases hcompleted
  · trivial

lemma react_completes {p : DataParams} {store : MemoryCheckpoints} {pos : Position} {phase : RecvPhase}
    {r : Except SessionError Fpdu} {x : Io.Run RecvPhase} (h : react p store pos phase r = some x) :
    Brings (EndsData r) x := by
  cases phase with
  | receiving s =>
    cases r with
    | ok f =>
      obtain rfl := Option.some.inj h
      refine (handle_completes p store pos s f).mono fun _ phase hp => ?_
      cases phase with
      | ended m res => exact fun hcompleted => ⟨f, rfl, hp hcompleted⟩
      | _ => trivial
    | error e =>
      obtain rfl := Option.some.inj h
      exact handleError_completes p s e
  | awaitingAckResyn s =>
    cases r with
    | ok f =>
      obtain rfl := Option.some.inj h
      exact awaitAckResyn_completes p store s f
    | error e =>
      obtain rfl := Option.some.inj h
      trivial
  | interrupting s =>
    cases r with
    | ok f =>
      obtain rfl := Option.some.inj h
      exact interrupted_completes p s f
    | error e =>
      obtain rfl := Option.some.inj h
      trivial
  | ended m res => cases h
  | failed e => cases h

/-- Whoever receives the data, the reception completes only with the end of the data and no complaint. -/
lemma receiveData_ends (p : DataParams) (report : Progress → Engine σ Unit) (turns : ℕ)
    (machine : Machine) (start : Checkpoint) {t : List (Exchange σ)} :
    Gives (receiveData p report turns machine start)
    (fun t' v => v.2.ending = .completed → DataEnded t') t := by
  refine receiveData_keeps p report (I := fun t phase => Completes (DataEnded t) phase) turns
    start ?_ ?_ ?_ trivial
  · intro t w phase h
    cases phase with
    | ended m res =>
      intro hcompleted
      obtain ⟨r, hends, hmem⟩ := h hcompleted
      exact ⟨r, hends, List.mem_append_left w hmem⟩
    | _ => trivial
  · intro t s _ phase hphase
    have hcancel : Brings False (cancel p s) := brings_any fun m => trivial
    have hp := hcancel.ok hphase
    cases phase with
    | ended m res => exact fun hcompleted => (hp hcompleted).elim
    | _ => trivial
  · intro t store pos phase r x _ hreact next hnext
    have hp := (react_completes hreact).ok hnext
    cases next with
    | ended m res => exact fun hcompleted => ⟨r, hp hcompleted, by simp⟩
    | _ => trivial

end ReceiveData

namespace Requester

variable (turns : ℕ) (r : Requester) {t : List (Exchange σ)}

/-- The answers to the end of a transfer: the server takes it for good with the same counts. -/
def Approved (data : DataResult) (t : List (Exchange σ)) : Prop :=
  ∃ g ∈ heardIn t, g.kind = .ackTransEnd ∧ g.isNegative = false ∧ Counted data g

/-- A data phase has completed with the end of the data, and right after it the transfer has been
closed and approved. -/
def Fetched (turns : ℕ) (r : Requester) (t : List (Exchange σ)) : Prop :=
  ∃ u v w p report machine start m data diag m', t = u ++ v ++ w ∧
    Proc.Runs (ReceiveData.receiveData p report turns machine start) v (some (.ok (m, data))) ∧
      data.ending = .completed ∧ ReceiveData.DataEnded v ∧
        Proc.Runs (closeTransfer turns r data m) w (some (.ok (diag, m'))) ∧ Approved data w

def Call.alters : Call σ → Bool
  | .effect _ | .finish | .clear => true
  | _ => false

/-- The sink and the checkpoints are as they were before the transfer. -/
def Untouched (t : List (Exchange σ)) : Prop := ∀ e ∈ t, Call.alters e.1 = false

def Commits (turns : ℕ) (r : Requester) (t : List (Exchange σ)) (e : Exchange σ) : Prop :=
  (e.1 = .finish → Fetched turns r t) ∧
    (e.1 = .clear → Untouched t ∨ t.getLast? = some ⟨.finish, .ok ()⟩)

lemma commits_other {e : Exchange σ} (h : e.1 ≠ .finish ∧ e.1 ≠ .clear) : Commits turns r t e :=
  ⟨fun hq => absurd hq h.1, fun hq => absurd hq h.2⟩

lemma untouched_commits {α : Type} {y : Engine σ α} (hy : y.Within fun q => Call.alters q = false)
    (ht : Untouched t) :
    Proc.Safe (Commits turns r) y t fun t' _ => Untouched t' := by
  refine hy.safe Untouched ?_ ht
  intro t e ht he
  refine ⟨commits_other turns r ⟨?_, ?_⟩, ?_⟩
  · intro hq
    rw [hq] at he
    cases he
  · intro hq
    rw [hq] at he
    cases he
  · intro d hd
    rcases List.mem_append.mp hd with hd | hd
    · exact ht d hd
    · obtain rfl := List.mem_singleton.mp hd
      exact he

lemma traffic_commits {α : Type} {y : Engine σ α} (hy : y.Within fun q => q.traffic = true) :
    Proc.Safe (Commits turns r) y t fun _ _ => True := by
  refine hy.safe (fun _ => True) (fun t e _ he => ⟨commits_other turns r ⟨?_, ?_⟩, trivial⟩) trivial
  · intro hq
    rw [hq] at he
    cases he
  · intro hq
    rw [hq] at he
    cases he

lemma request_within {C : Call σ → Prop} (hrecv : C .recv) {f : Fpdu} (hsend : C (.send f))
    (event : LocalEvent) (expected : FpduKind) (machine : Machine) :
    (request turns f event expected machine : Engine σ _).Within C :=
  (exchange_of turns hrecv hsend event expected machine).bind fun _ =>
    Proc.Within.bind trivial fun _ => trivial

lemma receiveStart_within {C : Call σ → Prop} (hstore : C .checkpoints) (spec : TransferSpec) :
    (receiveStart spec : Engine σ Checkpoint).Within C := by
  change Proc.Within C (if _ then _ else _)
  split
  · trivial
  · refine Proc.Within.bind (Proc.within_query hstore) fun store => ?_
    split <;> trivial

lemma finish_commits (ht : Fetched turns r t) :
    Proc.Safe (Commits turns r) (do finish; clear : Engine σ Unit) t fun _ _ => True := by
  intro a
  refine ⟨⟨fun _ => ht, fun hq => by cases hq⟩, ?_⟩
  cases a with
  | error e => trivial
  | ok _ =>
    intro b
    refine ⟨⟨fun hq => (by cases hq), fun _ => .inr ?_⟩, trivial⟩
    exact List.getLast?_concat ..

lemma receiveFile_commits (spec : TransferSpec) (machine : Machine) :
    Proc.Safe (Commits turns r) (receiveFile turns r spec machine : Engine σ _) [] fun _ _ => True := by
  have hnil : Untouched ([] : List (Exchange σ)) := by rintro e ⟨⟩
  have hrequest (f : Fpdu) (event : LocalEvent) (expected : FpduKind) (m : Machine) :
      (request turns f event expected m : Engine σ _).Within fun q => Call.alters q = false :=
    request_within turns (C := fun q => Call.alters q = false) rfl rfl event expected m
  refine (untouched_commits turns r (hrequest _ _ _ machine) hnil).bind ?_ fun _ _ _ => trivial
  rintro t₁ ⟨selected, m₁⟩ h₁
  refine (untouched_commits turns r (hrequest _ _ _ m₁) h₁).bind ?_ fun _ _ _ => trivial
  rintro t₂ ⟨opened, m₂⟩ h₂
  refine (untouched_commits turns r (receiveStart_within (C := fun q => Call.alters q = false) rfl spec)
    h₂).bind ?_ fun _ _ _ => trivial
  intro t₃ start h₃
  refine (untouched_commits turns r (hrequest _ _ _ m₂) h₃).bind ?_ fun _ _ _ => trivial
  rintro t₄ ⟨read, m₄⟩ h₄
  have hclear :
      Proc.Safe (Commits turns r) (when (start.sync = 0) clear : Engine σ Unit) t₄ fun _ _ => True := by
    rw [when]
    split
    · exact fun a => ⟨⟨fun hq => (by cases hq), fun _ => .inl h₄⟩, trivial⟩
    · trivial
  refine hclear.bind ?_ fun _ _ _ => trivial
  intro t₅ _ _
  refine (traffic_commits turns r (y := effect _) ⟨rfl, fun _ => trivial⟩).bind ?_ fun _ _ _ => trivial
  intro t₆ _ _
  have hreport (_ : Progress) : (pure () : Engine σ Unit).Within fun q => q.traffic = true := trivial
  have hdata (p : DataParams) :
      (ReceiveData.receiveData p (fun _ => pure () : Progress → Engine σ Unit) turns m₄ start).Within
      fun q => q.traffic = true := ReceiveData.receiveData_within (fun _ h => h) hreport p turns m₄ start
  refine (traffic_commits turns r (hdata _)).ran.bind ?_ fun _ _ _ => trivial
  rintro t₇ ⟨m₇, data⟩ ⟨-, v, rfl, hv⟩
  have hclose : (closeTransfer turns r data m₇ : Engine σ _).Within fun q => q.traffic = true :=
    @closeTransfer_of σ turns r data (fun q => q.traffic = true) rfl (fun _ _ => rfl) m₇
  refine (traffic_commits turns r hclose).ran.bind ?_ fun _ _ _ => trivial
  rintro t₈ ⟨diag, m₈⟩ ⟨-, w, rfl, hw⟩
  have hcommit :
      Proc.Safe (Commits turns r) (when (data.ending = .completed ∧ diag.isOk = true)
      (do finish; clear) :
      Engine σ Unit) (t₆ ++ v ++ w) fun _ _ => True := by
    rw [when]
    split
    · rename_i hend
      have hended := ((@closeTransfer_ended σ r.negotiated.crc turns r data [] m₇).runs hw).2 _ rfl _ rfl
      obtain ⟨g, hg, hk, hgood⟩ := hended.acknowledged (by rw [hend.1]; rfl)
      obtain ⟨hpositive, hcounted⟩ := hgood hend.2
      have hdataEnded :=
        ((ReceiveData.receiveData_ends _ _ turns m₄ start (t := [])).runs hv).2 _ rfl _ rfl hend.1
      exact finish_commits turns r
        ⟨t₆, v, w, _, _, m₄, start, m₇, data, diag, m₈, rfl, hv, hend.1, hdataEnded, hw, g, hg, hk,
        hpositive, hcounted⟩
    · trivial
  exact hcommit.bind (fun _ _ _ => trivial) fun _ _ _ => trivial

/-- The requester finishes its sink only when the data has come to its end and the server has approved
its counts, and it forgets checkpoints only before it touches the sink, when it starts anew, and when the
sink has been finished. -/
theorem receiveFile_finishes (spec : TransferSpec) (machine : Machine)
    {t u v : List (Exchange σ)} {e : Exchange σ}
    {o : Option (Except SessionError (TransferOutcome × Machine))}
    (hruns : Proc.Runs (receiveFile turns r spec machine) t o) (ht : t = u ++ e :: v) :
    (e.1 = .finish → Fetched turns r u) ∧
    (e.1 = .clear → Untouched u ∨ u.getLast? = some ⟨.finish, .ok ()⟩) :=
  ((receiveFile_commits turns r spec machine).runs hruns).1 u e v ht

def fetchedLink : ℕ → Except SessionError Fpdu :=
  WriteTransfer.arriving
    [(1, sampleFile.ackSelect 1 .all), (3, Builder.ackOrf 1 .ok .none), (5, Builder.ackRead 1 .ok),
      (9, { (Fpdu.new .dtf).withIds 1 0 with data := [1, 2] }), (13, Builder.dtfEnd 1 .ok),
      (16, Builder.ackTransEnd 1 .ok (some 2) (some 1)), (18, Builder.ackCrf 1 .ok),
      (20, Builder.ackDeselect 1 .ok)]

@[irreducible] def fetchedSession :
    List (Exchange VecSource) × Option (Except SessionError (TransferOutcome × Machine)) :=
  Proc.play (world [] sampleAccept Responder.sampleCreate fetchedLink (fun _ => .ok ()) (.ok ())) 0
    (receiveFile 6 WriteTransfer.sampleWrite.requester ⟨sampleFile, none⟩ ⟨.requester, .cn03⟩)

def commits : Call σ → Bool
  | .finish => true
  | _ => false

theorem receiveFile_finishes_fetched :
    ∃ u e v, fetchedSession.1 = u ++ e :: v ∧ e.1 = .finish ∧
      (e.1 = .finish → Fetched 6 WriteTransfer.sampleWrite.requester u) ∧
        (e.1 = .clear → Untouched u ∨ u.getLast? = some ⟨.finish, .ok ()⟩) := by
  have hruns :
      Proc.Runs (receiveFile 6 WriteTransfer.sampleWrite.requester ⟨sampleFile, none⟩
      ⟨.requester, .cn03⟩) fetchedSession.1 fetchedSession.2 := by
    rw [fetchedSession]
    exact Proc.play_runs _ 0 _
  have hfinish : fetchedSession.1[21]?.map (fun e => commits e.1) = some true := by decide +kernel
  obtain ⟨e, he, hq⟩ := Option.map_eq_some_iff.mp hfinish
  obtain ⟨hlen, rfl⟩ := List.getElem?_eq_some_iff.mp he
  have hsplit :
      fetchedSession.1 = fetchedSession.1.take 21 ++ fetchedSession.1[21] ::
      fetchedSession.1.drop 22 := by
    rw [← List.drop_eq_getElem_cons hlen, List.take_append_drop]
  refine ⟨_, _, _, hsplit, ?_, receiveFile_finishes 6 _ _ _ hruns hsplit⟩
  unfold commits at hq
  split at hq
  · assumption
  · cases hq

end Requester

end PesitWizard.Io
