import PesitWizard.Client.Retry

/-! The records of the transfers that a node starts itself, and the stores that they
write their points to. -/

namespace PesitWizard.Client

open App PesitWizard.Core Io Library

namespace Phase

def job : Phase → Job
  | queued job | running job _ | messaging job | ended job _ _ => job

def isEnded : Phase → Bool
  | ended _ _ _ => true
  | _ => false

/-- A message has no points. -/
def hasStore : Phase → Bool
  | queued _ | running _ _ => true
  | messaging _ | ended _ _ _ => false

end Phase

namespace TransferHistory

/-- A transfer goes on from one that was cut after a point: the same file, with the same partner. -/
structure Resumes (h prev : TransferHistory) : Prop where
  direction : h.direction = prev.direction
  partner : h.partnerId = prev.partnerId
  localName : h.localFilename = prev.localFilename
  remoteName : h.remoteFilename = prev.remoteFilename
  cut : prev.status.isCut = true
  point : 0 < prev.lastSyncPoint

structure SameTransfer (h h' : TransferHistory) : Prop where
  id : h'.id = h.id
  direction : h'.direction = h.direction
  partner : h'.partnerId = h.partnerId
  localName : h'.localFilename = h.localFilename
  remoteName : h'.remoteFilename = h.remoteFilename

lemma SameTransfer.refl (h : TransferHistory) : h.SameTransfer h := ⟨rfl, rfl, rfl, rfl, rfl⟩

lemma SameTransfer.trans {h₁ h₂ h₃ : TransferHistory} (h : h₁.SameTransfer h₂)
    (h' : h₂.SameTransfer h₃) :
    h₁.SameTransfer h₃ where
  id := h'.id.trans h.id
  direction := h'.direction.trans h.direction
  partner := h'.partner.trans h.partner
  localName := h'.localName.trans h.localName
  remoteName := h'.remoteName.trans h.remoteName

lemma SameTransfer.symm {h₁ h₂ : TransferHistory} (h : h₁.SameTransfer h₂) : h₂.SameTransfer h₁ where
  id := h.id.symm
  direction := h.direction.symm
  partner := h.partner.symm
  localName := h.localName.symm
  remoteName := h.remoteName.symm

lemma Resumes.congr {h h' prev : TransferHistory} (hr : h.Resumes prev) (hs : h.SameTransfer h') :
    h'.Resumes prev where
  direction := hs.direction.trans hr.direction
  partner := hs.partner.trans hr.partner
  localName := hs.localName.trans hr.localName
  remoteName := hs.remoteName.trans hr.remoteName
  cut := hr.cut
  point := hr.point

end TransferHistory

/-- The store that a transfer writes its points to, or is about to open. -/
def Transfer.store (id : String) (t : Transfer) : Option String :=
  match t.phase with
  | .queued job => some (Engine.storeName id job)
  | .running _ a => some a.store
  | .messaging _ | .ended _ _ _ => none

namespace Engine

open TransferRequest (given)

/-- The record of a transfer says whether it is over, and which file it concerns. -/
structure Truthful (settings : EngineSettings) (id : String) (t : Transfer) : Prop where
  named : t.history.id = id
  job : t.phase.job.history.SameTransfer t.history
  settled : t.history.status.isFinal = t.phase.isEnded
  partner : t.history.direction ≠ .message →
    t.history.partnerId = some ((given t.history.partnerId).getD settings.requesterId)
  remoteName : t.history.direction ≠ .message → ∃ r, given t.history.remoteFilename = some r
  message : t.history.direction = .message → t.history.localFilename = none
  store : t.store id = if t.phase.hasStore then some (storeName id t.phase.job) else none

structure Succeeds (e : Engine) (h prev : TransferHistory) : Prop where
  closed : ∃ t, e.transfers.find prev.id = some t ∧ t.history = prev ∧ t.phase.isEnded = true
  resumes : h.Resumes prev

structure Consistent (settings : EngineSettings) (e : Engine) : Prop where
  truthful : ∀ id t, e.transfers.find id = some t → Truthful settings id t
  resumed : ∀ id t prev, e.transfers.find id = some t → t.phase.job.resume = some prev →
    prev.id ∈ e.transfers.keys ∧ prev.id ≠ id
  lineage : ∀ id t prev, e.transfers.find id = some t → t.phase.job.retried = true →
    t.phase.job.resume = some prev →
    Succeeds e t.history prev

/-- No two transfers write to one store. -/
def Exclusive (e : Engine) : Prop :=
  ∀ i j t u n, e.transfers.find i = some t → e.transfers.find j = some u → t.store i = some n →
    u.store j = some n → i = j

def Free (e : Engine) (n : String) : Prop := ∀ i t, e.transfers.find i = some t → t.store i ≠ some n

/-- The store that a move makes its transfer take over. A restart that is refused leaves the
transfer with its own. -/
def claimed (e : Engine) : EngineMove → Option String
  | .submit _ req _ => (e.resume req).map TransferHistory.id
  | .retry id _ => (e.get id).bind fun prev => (e.resume (retryRequest prev id)).map TransferHistory.id
  | .refuse id => (e.transfers.find id).bind fun t => t.phase.job.resume.map fun _ => id
  | _ => none

/-- What a move does to the transfers. -/
inductive Change (settings : EngineSettings) (e : Engine) (m : EngineMove) (e' : Engine) : Prop
  | none (ht : e'.transfers = e.transfers) (hclaimed : e.claimed m = none)
  | enter (i : String) (t : Transfer) (hnew : i ∉ e.transfers.keys)
    (ht : e'.transfers = e.transfers.put i t) (htruthful : Truthful settings i t)
    (hresumed : ∀ prev, t.phase.job.resume = some prev → prev.id ∈ e.transfers.keys)
    (hlineage : ∀ prev, t.phase.job.retried = true → t.phase.job.resume = some prev →
      Succeeds e t.history prev)
    (hclaimed : e.claimed m = if t.phase.hasStore then
      t.phase.job.resume.map TransferHistory.id else none)
  | advance (i : String) (t t' : Transfer) (hfind : e.transfers.find i = some t)
    (hopen : t.phase.isEnded = false) (hstores : t'.phase.hasStore = true → t.phase.hasStore = true)
    (ht : e'.transfers = e.transfers.put i t') (hsame : t.history.SameTransfer t'.history)
    (hsettled : t'.history.status.isFinal = t'.phase.isEnded)
    (hstore : t'.store i = if t'.phase.hasStore then some (storeName i t'.phase.job) else none)
    (hjob : t'.phase.job = t.phase.job ∧ e.claimed m = none ∨
      t'.phase.hasStore = true ∧ t'.phase.job = { t.phase.job with resume := none } ∧
      t.phase.job.resume ≠ none ∧
        e.claimed m = some i)

variable {settings : EngineSettings} {disk : FileSystem} {e e' : Engine} {m : EngineMove}

section Requests

lemma given_given (s : Option String) : given (given s) = given s := by
  rw [given, given, Option.filter_filter]
  simp

lemma given_getD (s : Option String) (d : String) :
    (given (some ((given s).getD d))).getD d = (given s).getD d := by
  cases hs : given s with
  | none =>
    rw [Option.getD_none, given, Option.filter_some]
    split <;> rfl
  | some r => rw [Option.getD_some, ← hs, given_given, hs, Option.getD_some]

lemma given_eq {s : Option String} {r : String} (h : given s = some r) : s = some r :=
  (Option.filter_eq_some_iff.mp h).1

lemma Consistent.resume_mem (h : Consistent settings e) {req : TransferRequest} {prev : TransferHistory}
    (hresume : e.resume req = some prev) :
    ∃ t, e.transfers.find prev.id = some t ∧ t.history = prev := by
  obtain ⟨id, -, hget⟩ := Option.bind_eq_some_iff.mp hresume
  obtain ⟨t, ht, rfl⟩ := Option.map_eq_some_iff.mp hget
  rw [(h.truthful id t ht).named]
  exact ⟨t, ht, rfl⟩

lemma truthful_submitted {req : TransferRequest} {o : Submission} {retried : Bool}
    {direction : TransferDirection} {history : TransferHistory}
    (hs : Submitted e req o retried direction e' history) (hf : Filed settings e req direction history)
    (hdirection : direction ≠ .message) :
    Truthful settings o.id ⟨history, .queued ⟨history, e.resume req, retried⟩⟩ := by
  refine ⟨hs.id, .refl _, ?_, fun _ => ?_, fun _ => ?_, fun hmessage => ?_, rfl⟩
  · dsimp only [Phase.isEnded]
    rw [hs.status]
    rfl
  · change history.partnerId = some ((given history.partnerId).getD settings.requesterId)
    rw [hf.partner, given_getD]
  · obtain ⟨hremote, r, hr⟩ := hf.remoteName
    refine ⟨r, ?_⟩
    change given history.remoteFilename = some r
    rw [hremote, TransferRequest.remote, given_given, ← TransferRequest.remote, hr]
  · exact absurd (hs.direction.symm.trans hmessage) hdirection

lemma change_submitted (h : Consistent settings e) {req : TransferRequest}
    {o : Submission} {retried : Bool} {direction : TransferDirection} {history : TransferHistory}
    (hnew : o.id ∉ e.transfers.keys) (hs : Submitted e req o retried direction e' history)
    (hf : Filed settings e req direction history) (hdirection : direction ≠ .message)
    (hclaimed : e.claimed m = (e.resume req).map TransferHistory.id)
    (hlineage : ∀ prev, retried = true → e.resume req = some prev → Succeeds e history prev) :
    Change settings e m e' := by
  refine .enter o.id ⟨history, .queued ⟨history, e.resume req, retried⟩⟩ hnew ?_
    (truthful_submitted hs hf hdirection) ?_ hlineage hclaimed
  · rw [hs.engine, Engine.put, hs.id]
  · intro prev hprev
    obtain ⟨t, ht, -⟩ := h.resume_mem hprev
    exact Table.mem_keys.mpr ⟨t, ht⟩

/-- What is retried is over, and it is retried with the same file. -/
lemma retry_succeeds (h : Consistent settings e) {id : String} {prev p : TransferHistory}
    (hget : e.get id = some prev) (hfinal : prev.status.isFinal = true) {o : Submission}
    {direction : TransferDirection} {history : TransferHistory}
    (hdirection : direction = if prev.direction = .receive then .receive else .send)
    (hs : Submitted e (retryRequest prev id) o true direction e' history)
    (hf : Filed settings e (retryRequest prev id) direction history)
    (hp : e.resume (retryRequest prev id) = some p) : Succeeds e history p := by
  obtain ⟨rfl, hpoint, hcut⟩ := retryRequest_resume hget hp
  obtain ⟨t, ht, rfl⟩ := h.resume_mem hp
  have htruthful := h.truthful _ t ht
  have hmessage : t.history.direction ≠ .message := by
    intro hmessage
    obtain ⟨-, f, hf⟩ := hf.sent (by rw [hdirection, hmessage]; decide)
    have hnone : (retryRequest t.history id).filename = none := htruthful.message hmessage
    rw [hnone] at hf
    cases hf
  refine ⟨⟨t, ht, rfl, htruthful.settled.symm.trans hfinal⟩, ?_, ?_, ?_, ?_, hcut, hpoint⟩
  · rw [hs.direction, hdirection]
    cases hd : t.history.direction with
    | send => rfl
    | receive => rfl
    | message => exact absurd hd hmessage
  · exact hf.partner.trans (htruthful.partner hmessage).symm
  · by_cases hreceive : direction = .receive
    · exact hf.received hreceive _ hp
    · obtain ⟨hlocal, f, hgiven⟩ := hf.sent hreceive
      rw [hlocal, hgiven, given_eq (s := t.history.localFilename) hgiven]
  · obtain ⟨r, hr⟩ := htruthful.remoteName hmessage
    have hremote : (retryRequest t.history id).remoteFilename = some r := given_eq hr
    rw [hf.remoteName.1, TransferRequest.remote, hremote, Option.some_or, ← given_eq hr, hr, given_eq hr]

lemma change_retry (h : Consistent settings e) {id : String} {o : Submission}
    (hnew : o.id ∉ e.transfers.keys) (hretry : Engine.retry settings e id o = .ok e') :
    Change settings e (.retry id o) e' := by
  rw [Engine.retry] at hretry
  split at hretry
  · cases hretry
  · rename_i prev hget
    have hclaimed :
        e.claimed (.retry id o) = (e.resume (retryRequest prev id)).map TransferHistory.id := by
      rw [claimed, hget]
      rfl
    split at hretry
    · cases hretry
    · rename_i hfinal
      have hfinal : prev.status.isFinal = true := by simpa using hfinal
      split at hretry
      · rename_i hreceive
        obtain ⟨history, hs, hf⟩ := submitReceive_filed hretry
        exact change_submitted h hnew hs hf (by decide) hclaimed fun p _ hp =>
          retry_succeeds h hget hfinal (if_pos hreceive).symm hs hf hp
      · rename_i hsend
        obtain ⟨history, hs, hf⟩ := submitSend_filed hretry
        exact change_submitted h hnew hs hf (by decide) hclaimed fun p _ hp =>
          retry_succeeds h hget hfinal (if_neg hsend).symm hs hf hp

lemma change_submit (h : Consistent settings e) {direction : TransferDirection}
    {req : TransferRequest} {o : Submission} (hm : step settings e (.submit direction req o) = some e') :
    Change settings e (.submit direction req o) e' := by
  simp only [step] at hm
  split at hm
  · cases hm
  · rename_i hnew
    cases direction with
    | receive =>
      obtain ⟨history, hs, hf⟩ := submitReceive_filed (toOption_some hm)
      exact change_submitted h hnew hs hf (by decide) rfl (by simp)
    | send | message =>
      obtain ⟨history, hs, hf⟩ := submitSend_filed (toOption_some hm)
      exact change_submitted h hnew hs hf (by decide) rfl (by simp)

end Requests

section Sessions

lemma sameTransfer_noteProgress (h : TransferHistory) (a : Attempt) (p : Progress) :
    h.SameTransfer (noteProgress h a p) := by
  rw [noteProgress]
  split <;> exact ⟨rfl, rfl, rfl, rfl, rfl⟩

lemma endStatus_final (outcome : Option (DataEnd × Diagnostic)) :
    (endStatus outcome).isFinal = true := by
  obtain _ | ⟨e, diag⟩ := outcome
  · rfl
  · cases e with
    | completed =>
      rw [endStatus]
      split <;> rfl
    | interrupted reason diag byPeer =>
      rw [endStatus]
      split <;> rfl
    | endedWithError diag => rfl

lemma put_transfers {i : String} {t : Transfer} (h : t.history.id = i) :
    (e.put t).transfers = e.transfers.put i t := by
  rw [← h]
  rfl

/-- A transfer goes on with its job, or comes to its end. -/
lemma change_advance {i : String} {t t' : Transfer} (hnamed : t.history.id = i)
    (hfind : e.transfers.find i = some t) (hopen : t.phase.isEnded = false)
    (hstores : t'.phase.hasStore = true → t.phase.hasStore = true)
    (ht : e'.transfers = (e.put t').transfers) (hsame : t.history.SameTransfer t'.history)
    (hsettled : t'.history.status.isFinal = t'.phase.isEnded)
    (hstore : t'.store i = if t'.phase.hasStore then some (storeName i t'.phase.job) else none)
    (hjob : t'.phase.job = t.phase.job) (hclaimed : e.claimed m = none) : Change settings e m e' :=
  .advance i t t' hfind hopen hstores (ht.trans (put_transfers (hsame.id.trans hnamed))) hsame hsettled
    hstore (.inl ⟨hjob, hclaimed⟩)

lemma change_running (h : Consistent settings e) {i : String} {t : Transfer} {job : Job} {a a' : Attempt}
    {history : TransferHistory} (hfind : e.transfers.find i = some t) (hphase : t.phase = .running job a)
    (hsame : t.history.SameTransfer history) (hstatus : history.status = t.history.status)
    (hstore : a'.store = a.store) (hclaimed : e.claimed m = none) :
    Change settings e m (e.put ⟨history, .running job a'⟩) := by
  have htruthful := h.truthful i t hfind
  have hopen : t.phase.isEnded = false := by rw [hphase]; rfl
  have hold := htruthful.store
  rw [Transfer.store, hphase] at hold
  refine change_advance htruthful.named hfind hopen (fun _ => by rw [hphase]; rfl) rfl hsame ?_
    ((congrArg some hstore).trans hold) (by rw [hphase]; rfl) hclaimed
  exact (congrArg _ hstatus).trans (htruthful.settled.trans hopen)

lemma change_start (h : Consistent settings e) {i : String} {t : Transfer} {job : Job}
    (hfind : e.transfers.find i = some t) (hphase : t.phase = .queued job) :
    Change settings e (.start i) (e.start t job) := by
  have htruthful := h.truthful i t hfind
  have hopen : t.phase.isEnded = false := by rw [hphase]; rfl
  have hjob : t.phase.job = job := by rw [hphase]; rfl
  have hstore : (e.opening job).store = storeName i job := by
    rw [storeName, ← htruthful.named, htruthful.job.id, hjob]
    rfl
  have hsettled : t.history.status.isFinal = false := htruthful.settled.trans hopen
  have hstores : t.phase.hasStore = true := by rw [hphase]; rfl
  rw [start]
  split
  · exact change_advance htruthful.named hfind hopen (fun _ => hstores) rfl (.refl _) hsettled
      (congrArg some hstore) hjob.symm rfl
  · exact change_advance htruthful.named hfind hopen (fun _ => hstores) rfl ⟨rfl, rfl, rfl, rfl, rfl⟩
      hsettled (congrArg some hstore) hjob.symm rfl

/-- A restart that is refused leaves the transfer to begin again, with its own store. -/
lemma change_refuse (h : Consistent settings e) {i : String} {t : Transfer} {job : Job} {a : Attempt}
    (hfind : e.transfers.find i = some t) (hphase : t.phase = .running job a) :
    Change settings e (.refuse i) (if job.resume.isSome then e.resetForFullRetry t job else e) := by
  have htruthful := h.truthful i t hfind
  have hopen : t.phase.isEnded = false := by rw [hphase]; rfl
  have hjob : t.phase.job = job := by rw [hphase]; rfl
  have hclaimed : e.claimed (.refuse i) = job.resume.map fun _ => i := by
    rw [claimed, hfind, Option.bind_some, hjob]
  split
  · rename_i hresume
    obtain ⟨prev, hprev⟩ := Option.isSome_iff_exists.mp hresume
    refine .advance i t ⟨{ t.history with lastSyncPoint := 0 }, .queued { job with
      resume := none }⟩ hfind hopen (fun _ => by rw [hphase]; rfl) (put_transfers htruthful.named)
        ⟨rfl, rfl, rfl, rfl, rfl⟩ (htruthful.settled.trans hopen) rfl (.inr ⟨rfl, ?_, ?_, ?_⟩)
    · rw [hjob]
      rfl
    · rw [hjob, hprev]
      exact Option.some_ne_none _
    · rw [hclaimed, hprev]
      rfl
  · rename_i hresume
    refine .none rfl ?_
    rw [hclaimed, Option.not_isSome_iff_eq_none.mp hresume]
    rfl

lemma messageStatus_final (outcome : Option Diagnostic) : (messageStatus outcome).isFinal = true := by
  cases outcome with
  | none => rfl
  | some diag =>
    rw [messageStatus]
    split <;> rfl

lemma change_messageEnd (h : Consistent settings e) {i : String} {t : Transfer} {job : Job}
    (hfind : e.transfers.find i = some t) (hphase : t.phase = .messaging job)
    (outcome : Option Diagnostic) :
    Change settings e (.messageEnd i outcome)
      (e.put ⟨{ job.history with status := messageStatus outcome },
        .ended job none outcome.isSome⟩) := by
  have htruthful := h.truthful i t hfind
  have hopen : t.phase.isEnded = false := by rw [hphase]; rfl
  have hjob : t.phase.job = job := by rw [hphase]; rfl
  have hsame : t.history.SameTransfer { job.history with status := messageStatus outcome } := by
    refine .trans htruthful.job.symm ?_
    rw [hjob]
    exact ⟨rfl, rfl, rfl, rfl, rfl⟩
  exact change_advance htruthful.named hfind hopen (by simp [Phase.hasStore]) rfl hsame
    (messageStatus_final outcome) rfl hjob.symm rfl

lemma change_step (h : Consistent settings e) (hm : step settings e m = some e') :
    Change settings e m e' := by
  cases m with
  | submit direction req o => exact change_submit h hm
  | retry id o =>
    simp only [step] at hm
    split at hm
    · cases hm
    · exact change_retry h ‹_› (toOption_some hm)
  | start id =>
    obtain ⟨t, job, hfind, hphase, rfl⟩ := whileQueued_eq hm
    exact change_start h hfind hphase
  | abandon id =>
    obtain ⟨t, job, hfind, hphase, rfl⟩ := whileQueued_eq hm
    have hopen : t.phase.isEnded = false := by rw [hphase]; rfl
    exact change_advance (h.truthful id t hfind).named hfind hopen (by simp [Phase.hasStore]) rfl
      ⟨rfl, rfl, rfl, rfl, rfl⟩ rfl rfl (by rw [hphase]; rfl) rfl
  | acknowledge id number =>
    obtain ⟨t, job, a, hfind, hphase, rfl⟩ := whileRunning_eq hm
    exact change_running h hfind hphase (.refl _) rfl rfl rfl
  | progress id p =>
    obtain ⟨t, job, a, hfind, hphase, rfl⟩ := whileRunning_eq hm
    refine change_running h hfind hphase (sameTransfer_noteProgress t.history a p) ?_ rfl rfl
    rw [noteProgress]
    split <;> rfl
  | points id store =>
    obtain ⟨t, job, a, hfind, hphase, rfl⟩ := whileRunning_eq hm
    exact .none rfl rfl
  | refuse id =>
    obtain ⟨t, job, a, hfind, hphase, rfl⟩ := whileRunning_eq hm
    exact change_refuse h hfind hphase
  | finish id outcome =>
    obtain ⟨t, job, a, hfind, hphase, rfl⟩ := whileRunning_eq hm
    have hopen : t.phase.isEnded = false := by rw [hphase]; rfl
    exact change_advance (h.truthful id t hfind).named hfind hopen (by simp [Phase.hasStore]) rfl
      ⟨rfl, rfl, rfl, rfl, rfl⟩ (endStatus_final outcome) rfl (by rw [hphase]; rfl) rfl
  | message req o =>
    simp only [step] at hm
    split at hm
    · cases hm
    · rename_i hnew
      obtain ⟨server, -, rfl⟩ := sendMessage_eq (toOption_some hm)
      exact .enter o.id ⟨messageHistory settings req o server,
        .messaging ⟨messageHistory settings req o server, none, false⟩⟩
        hnew rfl ⟨rfl, .refl _, rfl, fun hne => absurd rfl hne, fun hne => absurd rfl hne,
          fun _ => rfl, rfl⟩
        (by simp [Phase.job]) (by simp [Phase.job]) rfl
  | messageNumber id =>
    obtain ⟨t, job, hfind, hphase, rfl⟩ := whileMessaging_eq hm
    exact .none rfl rfl
  | messageEnd id outcome =>
    obtain ⟨t, job, hfind, hphase, rfl⟩ := whileMessaging_eq hm
    exact change_messageEnd h hfind hphase outcome
  | files disk =>
    cases hm
    exact .none rfl rfl

end Sessions

section Runs

/-- What is over stays as it is. -/
lemma Change.closed (h : Change settings e m e') {k : String} {u : Transfer}
    (hu : e.transfers.find k = some u) (hended : u.phase.isEnded = true) :
    e'.transfers.find k = some u := by
  cases h with
  | none ht => rw [ht, hu]
  | enter i t hnew ht =>
    have hk : k ≠ i := by
      rintro rfl
      exact hnew (Table.mem_keys.mpr ⟨u, hu⟩)
    rw [ht, Table.find_put, if_neg hk, hu]
  | advance i t t' hfind hopen hstores ht =>
    have hk : k ≠ i := by
      rintro rfl
      obtain rfl := Option.some.inj (hu.symm.trans hfind)
      exact absurd (hended.symm.trans hopen) (by decide)
    rw [ht, Table.find_put, if_neg hk, hu]

lemma Succeeds.change {h prev : TransferHistory} (hs : Succeeds e h prev) (hc : Change settings e m e') :
    Succeeds e' h prev := by
  obtain ⟨⟨u, hu, heq, hended⟩, hresumes⟩ := hs
  exact ⟨⟨u, hc.closed hu hended, heq, hended⟩, hresumes⟩

lemma mem_keys_put {k i : String} (t : Transfer) (h : k ∈ e.transfers.keys) :
    k ∈ (e.transfers.put i t).keys := by
  obtain ⟨u, hu⟩ := Table.mem_keys.mp h
  refine Table.mem_keys.mpr ?_
  rw [Table.find_put]
  split
  · exact ⟨t, rfl⟩
  · exact ⟨u, hu⟩

lemma Truthful.advance {i : String} {t t' : Transfer} (h : Truthful settings i t)
    (hsame : t.history.SameTransfer t'.history) (hsettled : t'.history.status.isFinal = t'.phase.isEnded)
    (hstore : t'.store i = if t'.phase.hasStore then some (storeName i t'.phase.job) else none)
    (hjob : t'.phase.job.history = t.phase.job.history) : Truthful settings i t' := by
  refine ⟨hsame.id.trans h.named, ?_, hsettled, ?_, ?_, ?_, hstore⟩
  · rw [hjob]
    exact h.job.trans hsame
  · rw [hsame.direction, hsame.partner]
    exact h.partner
  · rw [hsame.direction, hsame.remoteName]
    exact h.remoteName
  · rw [hsame.direction, hsame.localName]
    exact h.message

lemma Consistent.change (h : Consistent settings e) (hc : Change settings e m e') :
    Consistent settings e' := by
  have hlineage {h' prev : TransferHistory} (hs : Succeeds e h' prev) : Succeeds e' h' prev :=
    hs.change hc
  cases hc with
  | none ht =>
    refine ⟨fun id t hid => h.truthful id t (ht ▸ hid), fun id t prev hid hprev => ?_,
      fun id t prev hid hretried hprev => ?_⟩
    · rw [ht]
      exact h.resumed id t prev (ht ▸ hid) hprev
    · exact hlineage (h.lineage id t prev (ht ▸ hid) hretried hprev)
  | enter i t hnew ht htruthful hresumed hown =>
    refine ⟨fun id u hid => ?_, fun id u prev hid hprev => ?_, fun id u prev hid hretried hprev =>
      ?_⟩ <;> rw [ht] at hid <;> rcases Table.find_put_some hid with ⟨rfl, rfl⟩ | ⟨-, hold⟩
    · exact htruthful
    · exact h.truthful id u hold
    · rw [ht]
      refine ⟨mem_keys_put u (hresumed prev hprev), ?_⟩
      rintro rfl
      exact hnew (hresumed prev hprev)
    · rw [ht]
      obtain ⟨hmem, hne⟩ := h.resumed id u prev hold hprev
      exact ⟨mem_keys_put t hmem, hne⟩
    · exact hlineage (hown prev hretried hprev)
    · exact hlineage (h.lineage id u prev hold hretried hprev)
  | advance i t t' hfind hopen hstores ht hsame hsettled hstore hjob =>
    have hhistory : t'.phase.job.history = t.phase.job.history := by
      obtain ⟨hjob, -⟩ | ⟨-, hjob, -⟩ := hjob <;> rw [hjob]
    have hresume {prev : TransferHistory} (hprev : t'.phase.job.resume = some prev) :
        t'.phase.job = t.phase.job := by
      obtain ⟨hjob, -⟩ | ⟨-, hjob, -⟩ := hjob
      · exact hjob
      · rw [hjob] at hprev
        cases hprev
    refine ⟨fun id u hid => ?_, fun id u prev hid hprev => ?_, fun id u prev hid hretried hprev =>
      ?_⟩ <;> rw [ht] at hid <;> rcases Table.find_put_some hid with ⟨rfl, rfl⟩ | ⟨-, hold⟩
    · exact (h.truthful id t hfind).advance hsame hsettled hstore hhistory
    · exact h.truthful id u hold
    · rw [ht]
      obtain ⟨hmem, hne⟩ := h.resumed id t prev hfind (hresume hprev ▸ hprev)
      exact ⟨mem_keys_put u hmem, hne⟩
    · rw [ht]
      obtain ⟨hmem, hne⟩ := h.resumed id u prev hold hprev
      exact ⟨mem_keys_put t' hmem, hne⟩
    · have hjob := hresume hprev
      obtain ⟨hclosed, hresumes⟩ := hlineage (h.lineage id t prev hfind (hjob ▸ hretried) (hjob ▸ hprev))
      exact ⟨hclosed, hresumes.congr hsame⟩
    · exact hlineage (h.lineage id u prev hold hretried hprev)

lemma initial_consistent (disk : FileSystem) : Consistent settings (initial disk) where
  truthful id t h := by cases h
  resumed id t prev h := by cases h
  lineage id t prev h := by cases h

/-- The record of a transfer is final as soon as the transfer is over, and stays as it is. A transfer
that a retry goes on with is one of the same file that was cut after a point, and is over. -/
theorem records_final (h : Moves (step settings) (fun _ _ => True) (initial disk) e) :
    (∀ id t, e.transfers.find id = some t → t.history.id = id ∧
      t.history.status.isFinal = t.phase.isEnded) ∧
    (∀ id t prev, e.transfers.find id = some t → t.phase.job.retried = true →
      t.phase.job.resume = some prev →
      t.history.Resumes prev ∧ prev.id ≠ id ∧ e.get prev.id = some prev) ∧
    ∀ e', Moves (step settings) (fun _ _ => True) e e' → ∀ id r, e.get id = some r →
    r.status.isFinal = true →
      e'.get id = some r := by
  have hstep (s : Engine) (m : EngineMove) (s' : Engine) (hs : Consistent settings s) (_ : True)
      (hm : step settings s m = some s') : Consistent settings s' := hs.change (change_step hs hm)
  have hconsistent : Consistent settings e := h.invariant hstep (initial_consistent disk)
  refine ⟨?_, ?_, ?_⟩
  · intro id t hid
    have htruthful := hconsistent.truthful id t hid
    exact ⟨htruthful.named, htruthful.settled⟩
  · intro id t prev hid hretried hprev
    obtain ⟨⟨u, hu, heq, -⟩, hresumes⟩ := hconsistent.lineage id t prev hid hretried hprev
    refine ⟨hresumes, (hconsistent.resumed id t prev hid hprev).2, ?_⟩
    rw [get, hu, ← heq]
    rfl
  · intro e' hmoves id r hr hfinal
    obtain ⟨t, ht, rfl⟩ := Option.map_eq_some_iff.mp hr
    have hended := (hconsistent.truthful id t ht).settled.symm.trans hfinal
    have hkept : Consistent settings e' ∧ e'.transfers.find id = some t :=
      hmoves.invariant (I := fun s => Consistent settings s ∧ s.transfers.find id = some t)
        (fun s m s' hs hok hm => ⟨hstep s m s' hs.1 hok hm, (change_step hs.1 hm).closed hs.2 hended⟩)
        ⟨hconsistent, ht⟩
    rw [get, hkept.2]
    rfl

theorem records_final_retried :
    secondHistory.Resumes firstHistory ∧ "1" ≠ "2" ∧ retriedOnce.get "1" = some firstHistory := by
  have hrun : Moves (step sampleSettings) (fun _ _ => True) (initial (.blank [])) retriedOnce :=
    moves_foldl _ _
  exact (records_final hrun).2.1 "2" _ firstHistory retriedOnce_queued rfl rfl

lemma Exclusive.put_iff (h : Exclusive e) {i : String} {t : Transfer}
    (ht : e'.transfers = e.transfers.put i t) :
    Exclusive e' ↔ ∀ n, t.store i = some n → ∀ j u, j ≠ i → e.transfers.find j = some u →
    u.store j ≠ some n := by
  constructor
  · intro h' n hn j u hj hu hstore
    refine hj (h' j i u t n ?_ ?_ hstore hn)
    · rw [ht, Table.find_put, if_neg hj, hu]
    · rw [ht, Table.find_put, if_pos rfl]
  · intro h' j k u v n hu hv hj hk
    rw [ht] at hu hv
    rcases Table.find_put_some hu with ⟨rfl, rfl⟩ | ⟨hju, hfind⟩ <;>
      rcases Table.find_put_some hv with ⟨rfl, rfl⟩ | ⟨hkv, hfind'⟩
    · rfl
    · exact absurd hk (h' n hj k v hkv hfind')
    · exact absurd hj (h' n hk j u hju hfind)
    · exact h j k u v n hfind hfind' hj hk

lemma Consistent.store_mem (h : Consistent settings e) {i n : String} {t : Transfer}
    (hfind : e.transfers.find i = some t) (hn : t.store i = some n) : n ∈ e.transfers.keys := by
  rw [(h.truthful i t hfind).store] at hn
  split at hn
  case isFalse => cases hn
  case isTrue =>
    obtain rfl := Option.some.inj hn
    rw [storeName]
    cases hresume : t.phase.job.resume with
    | none => exact Table.mem_keys.mpr ⟨t, hfind⟩
    | some prev => exact (h.resumed i t prev hfind hresume).1

lemma Change.exclusive_iff (hc : Change settings e m e') (h : Consistent settings e)
    (hex : Exclusive e) :
    Exclusive e' ↔ ∀ n, e.claimed m = some n → e.Free n := by
  cases hc with
  | none ht hclaimed =>
    refine iff_of_true ?_ (by simp [hclaimed])
    intro i j t u n hi hj
    exact hex i j t u n (ht ▸ hi) (ht ▸ hj)
  | enter i t hnew ht htruthful hresumed hlineage hclaimed =>
    have hothers (j : String) (u : Transfer) (hu : e.transfers.find j = some u) : j ≠ i := by
      rintro rfl
      exact hnew (Table.mem_keys.mpr ⟨u, hu⟩)
    rw [hex.put_iff ht, htruthful.store, hclaimed]
    split
    case isFalse => simp
    case isTrue =>
      rw [storeName]
      cases hresume : t.phase.job.resume with
      | none =>
        refine iff_of_true ?_ (by simp)
        rintro n hn j u - hu hstore
        obtain rfl : i = n := Option.some.inj hn
        exact hnew (h.store_mem hu hstore)
      | some prev =>
        constructor
        · intro h' n hn j u hu
          exact h' n hn j u (hothers j u hu) hu
        · intro h' n hn j u _ hu
          exact h' n hn j u hu
  | advance i t t' hfind hopen hstores ht hsame hsettled hstore hjob =>
    have hold (hn : t'.phase.hasStore = true) : t.store i = some (storeName i t.phase.job) := by
      rw [(h.truthful i t hfind).store, if_pos (hstores hn)]
    rw [hex.put_iff ht, hstore]
    obtain ⟨hjob, hclaimed⟩ | ⟨hopen', hjob, hresume, hclaimed⟩ := hjob
    · refine iff_of_true ?_ (by simp [hclaimed])
      intro n hn j u hj hu hstore
      split at hn
      case isFalse => cases hn
      case isTrue hheld =>
        rw [hjob] at hn
        exact hj (hex j i u t n hu hfind hstore ((hold hheld).trans hn))
    · have hown : storeName i t'.phase.job = i := by
        rw [hjob]
        rfl
      rw [hopen', hclaimed, hown]
      constructor
      · rintro h' n hn j u hu
        obtain rfl : i = n := Option.some.inj hn
        by_cases hj : j = i
        · subst hj
          obtain rfl := Option.some.inj (hu.symm.trans hfind)
          obtain ⟨prev, hprev⟩ := Option.ne_none_iff_exists'.mp hresume
          have hother := (h.resumed j u prev hfind hprev).2
          simpa [hold hopen', storeName, hprev] using hother
        · exact h' i rfl j u hj hu
      · intro h' n hn j u _ hu
        exact h' n hn j u hu

/-- Two transfers never write to one store, exactly if no transfer takes over a store, be it that of the
transfer that it resumes or, after a refused restart, its own, that another one has at the time. -/
theorem stores_exclusive_iff (ms : List EngineMove) :
    (∀ js, js <+: ms → Exclusive (js.foldl (after (step settings)) (initial disk))) ↔
      Each (after (step settings))
      (fun e m => (step settings e m).isSome = true → ∀ n, e.claimed m = some n → e.Free n)
        (initial disk) ms := by
  refine prefixes_iff (Consistent settings) Exclusive ?_ ?_ ms (initial_consistent disk) ?_
  · intro s m hs
    rw [after]
    cases hm : step settings s m with
    | none => exact hs
    | some s' => exact hs.change (change_step hs hm)
  · intro s m hs hex
    rw [after]
    cases hm : step settings s m with
    | none => exact iff_of_true hex (by simp)
    | some s' =>
      refine ((change_step hs hm).exclusive_iff hs hex).trans ?_
      simp
  · intro i j t u n hi
    cases hi

end Runs

end Engine

end PesitWizard.Client
