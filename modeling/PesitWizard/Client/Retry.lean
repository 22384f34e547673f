import PesitWizard.Client.Engine

/-! From where the transfers of a chain of retries go on, and under which number. -/

namespace PesitWizard.Client.Engine

open App PesitWizard.Core Io Library
open TransferRequest (given)

def attempted (e : Engine) (id : String) : Option Attempt :=
  (e.transfers.find id).bind fun t => match t.phase with
    | .queued _ | .messaging _ => none
    | .running _ a => some a
    | .ended _ a _ => a

/-- A transfer goes on from the last usable point that another one left in its store, with the
number of that one. -/
structure Continues (e : Engine) (job : Job) (a : Attempt) : Prop where
  store : (e.opening job).store = a.store
  point : ∃ cp, e.usable job.history a.store = some cp ∧ (e.opening job).restart = some cp
  number : (e.opening job).sent = a.identifier

/-- The transfer that is retried did not itself resume another one, its store offers a point, and if it
was to receive, its session returned or the server gave it no number. -/
def FirstTry (e : Engine) (job : Job) (prev : TransferHistory) : Prop :=
  ∃ job₀ a returned, e.transfers.find prev.id = some ⟨prev, .ended job₀ (some a) returned⟩ ∧
    job₀.resume = none ∧
    (e.usable job.history prev.id).isSome = true ∧
    (prev.direction = .receive → returned = true ∨ a.identifier = 0)

/-- No restart is refused. -/
def Unrefused (_ : Engine) : EngineMove → Prop
  | .refuse _ => False
  | _ => True

def storeName (id : String) (job : Job) : String := (job.resume.map TransferHistory.id).getD id

/-- The number in the record of a transfer that resumes none: that of a file to send is there from the
start, that of a file to receive is missing until its session has returned. -/
structure Numbered (h : TransferHistory) (a : Attempt) (returned : Bool) : Prop where
  send : h.direction = .send → h.pesitTransferId = a.sent ∧ a.sent ≠ 0
  receive : h.direction = .receive → a.sent = 0 ∧ h.pesitTransferId = if returned then
    a.identifier else 0

structure Good (id : String) (t : Transfer) : Prop where
  named : t.history.id = id
  queued : ∀ job, t.phase = .queued job → t.history = job.history ∧ t.history.status = .inProgress ∧
    t.history.direction ≠ .message ∧ (job.resume = none → t.history.pesitTransferId = 0) ∧
    ∀ prev, job.resume = some prev → prev.id ≠ id
  running : ∀ job a, t.phase = .running job a → t.history.status = .inProgress ∧
    t.history.direction ≠ .message ∧
    a.store = storeName id job ∧ (job.resume = none → Numbered t.history a false) ∧
    ∀ prev, job.resume = some prev → prev.id ≠ id
  messaging : ∀ job, t.phase = .messaging job → t.history = job.history ∧
    t.history.status = .inProgress ∧
    t.history.lastSyncPoint = 0 ∧ job.resume = none
  ended : ∀ job a returned, t.phase = .ended job a returned →
    (t.history.direction = .message → t.history.lastSyncPoint = 0) ∧
    (∀ prev, job.resume = some prev → prev.id ≠ id) ∧
    ∀ b, a = some b → b.store = storeName id job ∧ (job.resume = none → Numbered t.history b returned)

structure Linked (e : Engine) (job : Job) (prev : TransferHistory) : Prop where
  ended : ∃ job₀ a returned, e.transfers.find prev.id = some ⟨prev, .ended job₀ a returned⟩
  direction : job.history.direction = prev.direction
  number : job.history.pesitTransferId = prev.pesitTransferId

structure Sound (e : Engine) : Prop where
  good : ∀ id t, e.transfers.find id = some t → Good id t
  linked : ∀ id t job prev, e.transfers.find id = some t → t.phase = .queued job → job.retried = true →
    job.resume = some prev → Linked e job prev

section Steps

variable {settings : EngineSettings} {e e' : Engine}

lemma initial_sound (disk : FileSystem) : (initial disk).Sound where
  good id t h := by cases h
  linked id t job prev h := by cases h

lemma Sound.congr (h : e.Sound) (ht : e'.transfers = e.transfers) : e'.Sound where
  good id t hid := h.good id t (ht ▸ hid)
  linked id t job prev hid hphase hretried hresume := by
    obtain ⟨hended, hdirection, hnumber⟩ := h.linked id t job prev (ht ▸ hid) hphase hretried hresume
    exact ⟨by rwa [ht], hdirection, hnumber⟩

lemma Sound.put (h : e.Sound) {id : String} {t : Transfer} (ht : e'.transfers = e.transfers.put id t)
    (hold : ∀ t', e.transfers.find id = some t' → ∀ job a returned, t'.phase ≠ .ended job a returned)
    (hgood : Good id t)
    (hlinked : ∀ job prev, t.phase = .queued job → job.retried = true → job.resume = some prev →
      Linked e job prev) :
    e'.Sound := by
  -- what has ended stays as it is
  have hkept : ∀ job prev, Linked e job prev → Linked e' job prev := by
    rintro job prev ⟨⟨job₀, a, returned, hprev⟩, hdirection, hnumber⟩
    refine ⟨⟨job₀, a, returned, ?_⟩, hdirection, hnumber⟩
    have hne : prev.id ≠ id := by
      rintro rfl
      exact hold _ hprev job₀ a returned rfl
    rw [ht, Table.find_put, if_neg hne, hprev]
  refine ⟨fun j t' hj => ?_, fun j t' job prev hj hphase hretried hresume => ?_⟩
  · rw [ht] at hj
    rcases Table.find_put_some hj with ⟨rfl, rfl⟩ | ⟨-, hj⟩
    · exact hgood
    · exact h.good j t' hj
  · rw [ht] at hj
    rcases Table.find_put_some hj with ⟨rfl, rfl⟩ | ⟨-, hj⟩
    · exact hkept job prev (hlinked job prev hphase hretried hresume)
    · exact hkept job prev (h.linked j t' job prev hj hphase hretried hresume)

lemma whileQueued_eq {id : String} {f : Transfer → Job → Engine} (h : e.whileQueued id f = some e') :
    ∃ t job, e.transfers.find id = some t ∧ t.phase = .queued job ∧ e' = f t job := by
  rw [whileQueued] at h
  split at h
  · rename_i t hfind
    split at h
    · rename_i job hphase
      exact ⟨t, job, hfind, hphase, (Option.some.inj h).symm⟩
    · cases h
  · cases h

lemma whileMessaging_eq {id : String} {f : Job → Engine} (h : e.whileMessaging id f = some e') :
    ∃ t job, e.transfers.find id = some t ∧ t.phase = .messaging job ∧ e' = f job := by
  rw [whileMessaging] at h
  split at h
  · rename_i t hfind
    split at h
    · rename_i job hphase
      exact ⟨t, job, hfind, hphase, (Option.some.inj h).symm⟩
    · cases h
  · cases h

lemma whileRunning_eq {id : String} {f : Transfer → Job → Attempt → Engine}
    (h : e.whileRunning id f = some e') :
    ∃ t job a, e.transfers.find id = some t ∧ t.phase = .running job a ∧ e' = f t job a := by
  rw [whileRunning] at h
  split at h
  · rename_i t hfind
    split at h
    · rename_i job a hphase
      exact ⟨t, job, a, hfind, hphase, (Option.some.inj h).symm⟩
    · cases h
  · cases h

/-- What a request leaves: a transfer that is to be run, with the number of the one that it resumes. -/
structure Submitted (e : Engine) (req : TransferRequest) (o : Submission) (retried : Bool)
    (direction : TransferDirection) (e' : Engine) (h : TransferHistory) : Prop where
  engine : e' = e.put ⟨h, .queued ⟨h, e.resume req, retried⟩⟩
  id : h.id = o.id
  status : h.status = .inProgress
  direction : h.direction = direction
  number : h.pesitTransferId = ((e.resume req).map TransferHistory.pesitTransferId).getD 0

/-- The file of a request that is accepted. -/
structure Filed (settings : EngineSettings) (e : Engine) (req : TransferRequest)
    (direction : TransferDirection) (h : TransferHistory) : Prop where
  partner : h.partnerId = some ((given req.partnerId).getD settings.requesterId)
  remoteName : h.remoteFilename = req.remote ∧ ∃ r, req.remote = some r
  sent : direction ≠ .receive → h.localFilename = given req.filename ∧ ∃ f, given req.filename = some f
  received : direction = .receive → ∀ prev, e.resume req = some prev →
    h.localFilename = prev.localFilename

lemma submitSend_filed {req : TransferRequest} {o : Submission} {retried : Bool}
    (h : submitSend settings e req o retried = .ok e') :
    ∃ h, Submitted e req o retried .send e' h ∧ Filed settings e req .send h := by
  rw [submitSend] at h
  cases hserver : o.server with
  | error err => simp [hserver, bind, Except.bind] at h
  | ok server =>
    simp only [hserver, bind, Except.bind] at h
    split at h
    · cases h
    · cases h
    · rename_i localName remote hlocal hremote
      split at h
      · cases h
      · cases h
        refine ⟨_, ⟨rfl, ?_, ?_, ?_, ?_⟩,
          ⟨?_, ⟨?_, remote, hremote⟩, fun _ => ⟨?_, localName, hlocal⟩, fun hne => ?_⟩⟩
        · cases e.resume req <;> rfl
        · cases e.resume req <;> rfl
        · cases e.resume req <;> rfl
        · cases e.resume req <;> rfl
        · cases e.resume req <;> rfl
        · rw [hremote]
          cases e.resume req <;> rfl
        · rw [hlocal]
          cases e.resume req <;> rfl
        · cases hne

lemma submitReceive_filed {req : TransferRequest} {o : Submission} {retried : Bool}
    (h : submitReceive settings e req o retried = .ok e') :
    ∃ h, Submitted e req o retried .receive e' h ∧ Filed settings e req .receive h := by
  rw [submitReceive] at h
  cases hserver : o.server with
  | error err => simp [hserver, bind, Except.bind] at h
  | ok server =>
    simp only [hserver, bind, Except.bind] at h
    split at h
    · cases h
    · rename_i remote hremote
      cases h
      refine ⟨_, ⟨rfl, ?_, ?_, ?_, ?_⟩, ⟨?_, ⟨?_, remote, hremote⟩, fun hne => absurd rfl hne,
        fun _ prev hprev => ?_⟩⟩
      · cases e.resume req <;> rfl
      · cases e.resume req <;> rfl
      · cases e.resume req <;> rfl
      · cases e.resume req <;> rfl
      · cases e.resume req <;> rfl
      · rw [hremote]
        cases e.resume req <;> rfl
      · rw [hprev]

/-- A message is recorded with its server and its partner, before anything is sent. -/
lemma sendMessage_eq {req : MessageRequest} {o : Submission}
    (h : sendMessage settings e req o = .ok e') :
    ∃ server, o.server = .ok server ∧ e' = e.put ⟨messageHistory settings req o server,
      .messaging ⟨messageHistory settings req o server, none, false⟩⟩ := by
  rw [sendMessage] at h
  cases hserver : o.server with
  | error err => simp [hserver, bind, Except.bind] at h
  | ok server =>
    simp only [hserver, bind, Except.bind] at h
    exact ⟨server, rfl, (Except.ok.inj h).symm⟩

lemma Sound.get_some (h : e.Sound) {id : String} {prev : TransferHistory} (hget : e.get id = some prev) :
    ∃ t, e.transfers.find id = some t ∧ t.history = prev ∧ prev.id = id := by
  obtain ⟨t, ht, rfl⟩ := Option.map_eq_some_iff.mp hget
  exact ⟨t, ht, rfl, (h.good id t ht).named⟩

lemma Sound.resume_id (h : e.Sound) {req : TransferRequest} {prev : TransferHistory}
    (hresume : e.resume req = some prev) :
    prev.id ∈ e.transfers.keys := by
  obtain ⟨id, -, hget⟩ := Option.bind_eq_some_iff.mp hresume
  obtain ⟨t, ht, -, hid⟩ := h.get_some hget
  rw [hid]
  exact Table.mem_keys.mpr ⟨t, ht⟩

lemma Sound.submitted (h : e.Sound) {req : TransferRequest} {o : Submission} {retried : Bool}
    {direction : TransferDirection} {history : TransferHistory} (hnew : o.id ∉ e.transfers.keys)
    (hdirection : direction ≠ .message) (hs : Submitted e req o retried direction e' history)
    (hlinked : retried = true → ∀ prev, e.resume req = some prev →
      Linked e ⟨history, e.resume req, retried⟩ prev) :
    e'.Sound := by
  have hother : ∀ prev, e.resume req = some prev → prev.id ≠ o.id := by
    intro prev hprev heq
    exact hnew (heq ▸ h.resume_id hprev)
  refine h.put (t := ⟨history, .queued ⟨history, e.resume req, retried⟩⟩) ?_ ?_
    (⟨hs.id, ?_, ?_, ?_, ?_⟩ : Good o.id _) ?_
  · rw [hs.engine, Engine.put, hs.id]
  · intro t' ht'
    exact absurd (Table.mem_keys.mpr ⟨t', ht'⟩) hnew
  · rintro job ⟨rfl⟩
    refine ⟨rfl, hs.status, by rw [hs.direction]; exact hdirection, fun hnone => ?_, hother⟩
    have hnone : e.resume req = none := hnone
    rw [hs.number, hnone]
    rfl
  · intro job a hphase
    cases hphase
  · intro job hphase
    cases hphase
  · intro job a returned hphase
    cases hphase
  · rintro job prev ⟨rfl⟩ hretried hprev
    exact hlinked hretried prev hprev

lemma Good.ended_of_final {id : String} {t : Transfer} (h : Good id t)
    (hfinal : t.history.status.isFinal = true) :
    ∃ job a returned, t.phase = .ended job a returned := by
  cases hphase : t.phase with
  | queued job =>
    rw [(h.queued job hphase).2.1] at hfinal
    cases hfinal
  | running job a =>
    rw [(h.running job a hphase).1] at hfinal
    cases hfinal
  | messaging job =>
    rw [(h.messaging job hphase).2.1] at hfinal
    cases hfinal
  | ended job a returned => exact ⟨job, a, returned, rfl⟩

lemma retryRequest_resume {prev p : TransferHistory} {id : String} (hget : e.get id = some prev)
    (h : e.resume (retryRequest prev id) = some p) :
    p = prev ∧ 0 < prev.lastSyncPoint ∧ prev.status.isCut = true := by
  obtain ⟨i, hi, hp⟩ := Option.bind_eq_some_iff.mp h
  simp only [retryRequest] at hi
  split at hi
  · rename_i hcut
    obtain rfl := Option.some.inj hi
    exact ⟨Option.some.inj (hp.symm.trans hget), hcut⟩
  · cases hi

lemma Sound.retry_linked (h : e.Sound) {id : String} {prev : TransferHistory}
    (hget : e.get id = some prev) (hfinal : prev.status.isFinal = true) {o : Submission}
    {direction : TransferDirection} {history : TransferHistory}
    (hdirection : prev.direction ≠ .message → direction = prev.direction)
    (hs : Submitted e (retryRequest prev id) o true direction e' history) (p : TransferHistory)
    (hp : e.resume (retryRequest prev id) = some p) :
    Linked e ⟨history, e.resume (retryRequest prev id), true⟩ p := by
  obtain ⟨rfl, hpoint, -⟩ := retryRequest_resume hget hp
  obtain ⟨t, ht, rfl, hid⟩ := h.get_some hget
  obtain ⟨job, a, returned, hphase⟩ := (h.good id t ht).ended_of_final hfinal
  have hmessage : t.history.direction ≠ .message := by
    intro hmessage
    have hzero := ((h.good id t ht).ended job a returned hphase).1 hmessage
    omega
  refine ⟨⟨job, a, returned, ?_⟩, ?_, ?_⟩
  · rw [hid, ht, ← hphase]
  · exact hs.direction.trans (hdirection hmessage)
  · exact hs.number.trans (by rw [hp]; rfl)

lemma Sound.retry (h : e.Sound) {id : String} {o : Submission}
    (hnew : o.id ∉ e.transfers.keys) (hretry : Engine.retry settings e id o = .ok e') : e'.Sound := by
  rw [Engine.retry] at hretry
  split at hretry
  · cases hretry
  · rename_i prev hget
    split at hretry
    · cases hretry
    · rename_i hfinal
      have hfinal : prev.status.isFinal = true := by simpa using hfinal
      cases hdirection : prev.direction with
      | receive =>
        rw [hdirection] at hretry
        obtain ⟨history, hs, -⟩ := submitReceive_filed hretry
        exact h.submitted hnew (by decide) hs fun _ => h.retry_linked hget hfinal
          (fun _ => hdirection.symm) hs
      | send =>
        rw [hdirection] at hretry
        obtain ⟨history, hs, -⟩ := submitSend_filed hretry
        exact h.submitted hnew (by decide) hs fun _ => h.retry_linked hget hfinal
          (fun _ => hdirection.symm) hs
      | message =>
        rw [hdirection] at hretry
        obtain ⟨history, hs, -⟩ := submitSend_filed hretry
        exact h.submitted hnew (by decide) hs fun _ =>
          h.retry_linked hget hfinal (fun hne => absurd hdirection hne) hs

lemma Good.of_running {id : String} {h : TransferHistory} {job : Job} {a : Attempt} (hid : h.id = id)
    (hstatus : h.status = .inProgress) (hdirection : h.direction ≠ .message)
    (hstore : a.store = storeName id job) (hnumber : job.resume = none → Numbered h a false)
    (hother : ∀ prev, job.resume = some prev → prev.id ≠ id) :
    Good id ⟨h, .running job a⟩ where
  named := hid
  queued _ hphase := by cases hphase
  running _ _ hphase := by
    cases hphase
    exact ⟨hstatus, hdirection, hstore, hnumber, hother⟩
  messaging _ hphase := by cases hphase
  ended _ _ _ hphase := by cases hphase

lemma Good.of_messaging {id : String} {h : TransferHistory} {job : Job} (hid : h.id = id)
    (heq : h = job.history) (hstatus : h.status = .inProgress) (hpoint : h.lastSyncPoint = 0)
    (hnone : job.resume = none) :
    Good id ⟨h, .messaging job⟩ where
  named := hid
  queued _ hphase := by cases hphase
  running _ _ hphase := by cases hphase
  messaging _ hphase := by
    cases hphase
    exact ⟨heq, hstatus, hpoint, hnone⟩
  ended _ _ _ hphase := by cases hphase

lemma Good.of_ended {id : String} {h : TransferHistory} {job : Job} {a : Option Attempt}
    {returned : Bool} (hid : h.id = id) (hmessage : h.direction = .message → h.lastSyncPoint = 0)
    (hother : ∀ prev, job.resume = some prev → prev.id ≠ id)
    (hattempt : ∀ b, a = some b → b.store = storeName id job ∧
      (job.resume = none → Numbered h b returned)) :
    Good id ⟨h, .ended job a returned⟩ where
  named := hid
  queued _ hphase := by cases hphase
  running _ _ hphase := by cases hphase
  messaging _ hphase := by cases hphase
  ended _ _ _ hphase := by
    cases hphase
    exact ⟨hmessage, hother, hattempt⟩

lemma Sound.advance (h : e.Sound) {id : String} {t : Transfer} (t' : Transfer)
    (ht : e'.transfers = e.transfers.put id t') (hfind : e.transfers.find id = some t)
    (hopen : ∀ job a returned, t.phase ≠ .ended job a returned) (hgood : Good id t')
    (hqueued : ∀ job, t'.phase ≠ .queued job) : e'.Sound := by
  refine h.put ht (fun u hu => ?_) hgood fun job prev hphase => absurd hphase (hqueued job)
  rw [hfind] at hu
  cases hu
  exact hopen

/-- A transfer that ends is queued no more, and it had not ended before. -/
lemma Sound.ended (h : e.Sound) {id : String} {t : Transfer} {history : TransferHistory} {job : Job}
    {a : Option Attempt} {returned : Bool}
    (ht : e'.transfers = e.transfers.put id ⟨history, .ended job a returned⟩)
    (hfind : e.transfers.find id = some t) (hopen : ∀ job a returned, t.phase ≠ .ended job a returned)
    (hgood : Good id ⟨history, .ended job a returned⟩) : e'.Sound :=
  h.advance _ ht hfind hopen hgood fun _ hqueued => by cases hqueued

lemma opening_numbered {job : Job} (hresume : job.resume = none) {h : TransferHistory}
    (hdirection : h.direction = job.history.direction)
    (hnumber : h.pesitTransferId = if h.direction = .receive then 0 else (e.opening job).sent) :
    Numbered h (e.opening job) false where
  send hsend := by
    rw [hnumber, if_neg (by rw [hsend]; decide)]
    refine ⟨rfl, ?_⟩
    rw [hdirection] at hsend
    simp [opening, hresume, hsend, nextNumber]
  receive hreceive := by
    rw [hnumber, if_pos hreceive]
    rw [hdirection] at hreceive
    simp [opening, hresume, hreceive]

lemma Sound.start (h : e.Sound) {id : String} {t : Transfer} {job : Job}
    (hfind : e.transfers.find id = some t) (hphase : t.phase = .queued job) : (e.start t job).Sound := by
  have hgood := h.good id t hfind
  obtain ⟨heq, hstatus, hdirection, hzero, hother⟩ := hgood.queued job hphase
  have hopen : ∀ job a returned, t.phase ≠ .ended job a returned := by simp [hphase]
  have hstore : (e.opening job).store = storeName id job := by
    rw [storeName, ← hgood.named, heq]
    rfl
  rw [Engine.start]
  cases hjob : job.history.direction with
  | receive =>
    refine h.advance ({ t with phase := .running job (e.opening job) })
      (by rw [← hgood.named]; rfl) hfind hopen ?_ (by intro job hne; cases hne)
    refine .of_running hgood.named hstatus hdirection hstore
      (fun hnone => opening_numbered hnone (by rw [heq]) ?_) hother
    rw [hzero hnone, if_pos (by rw [heq, hjob])]
  | send =>
    refine h.advance
      (⟨{ t.history with pesitTransferId := (e.opening job).sent }, .running job (e.opening job)⟩)
      (by rw [← hgood.named]; rfl) hfind hopen ?_ (by intro job hne; cases hne)
    refine .of_running hgood.named hstatus hdirection hstore
      (fun hnone => opening_numbered hnone (by rw [heq]) (if_neg ?_).symm) hother
    rw [heq, hjob]
    decide
  | message => exact absurd (by rw [heq, hjob]) hdirection

lemma finish_numbered {h : TransferHistory} {a : Attempt} (hn : Numbered h a false)
    (outcome : Option (DataEnd × Diagnostic)) :
    Numbered (Engine.finish h a outcome) a outcome.isSome where
  send hsend := by
    have hdirection : h.direction = .send := hsend
    simp only [Engine.finish, hdirection, reduceCtorEq, false_and, if_false]
    exact hn.send hdirection
  receive hreceive := by
    have hdirection : h.direction = .receive := hreceive
    obtain ⟨hsent, hzero⟩ := hn.receive hdirection
    refine ⟨hsent, ?_⟩
    cases outcome with
    | none => simpa [Engine.finish] using hzero
    | some o => simp [Engine.finish, hdirection, Attempt.identifier, hsent]

lemma Numbered.congr {h h' : TransferHistory} {a a' : Attempt} (hn : Numbered h a false)
    (hdirection : h'.direction = h.direction) (hnumber : h'.pesitTransferId = h.pesitTransferId)
    (hsent : a'.sent = a.sent) : Numbered h' a' false where
  send hsend := by
    rw [hnumber, hsent]
    exact hn.send (hdirection ▸ hsend)
  receive hreceive := by
    rw [hnumber, hsent]
    exact hn.receive (hdirection ▸ hreceive)

lemma Sound.session (h : e.Sound) {id : String} {t : Transfer} {job : Job} {a : Attempt}
    (history : TransferHistory) (a' : Attempt) (hfind : e.transfers.find id = some t)
    (hphase : t.phase = .running job a) (hid : history.id = t.history.id)
    (hstatus : history.status = t.history.status) (hdirection : history.direction = t.history.direction)
    (hnumber : history.pesitTransferId = t.history.pesitTransferId) (hstore : a'.store = a.store)
    (hsent : a'.sent = a.sent)
    (ht : e'.transfers = e.transfers.put history.id ⟨history, .running job a'⟩) : e'.Sound := by
  have hgood := h.good id t hfind
  obtain ⟨hprogress, hmessage, hname, hnumbered, hother⟩ := hgood.running job a hphase
  rw [hid, hgood.named] at ht
  refine h.advance _ ht hfind (by simp [hphase]) ?_ (by simp)
  refine .of_running (hid.trans hgood.named) (hstatus.trans hprogress) (hdirection ▸ hmessage)
    (hstore.trans hname) (fun hnone => ?_) hother
  exact (hnumbered hnone).congr hdirection hnumber hsent

lemma Sound.step (h : e.Sound) {m : EngineMove} (hok : Unrefused e m)
    (hm : Engine.step settings e m = some e') : e'.Sound := by
  cases m with
  | submit direction req o =>
    simp only [Engine.step] at hm
    split at hm
    · cases hm
    · rename_i hnew
      cases direction with
      | receive =>
        obtain ⟨history, hs, -⟩ := submitReceive_filed (toOption_some hm)
        exact h.submitted hnew (by decide) hs (by simp)
      | send =>
        obtain ⟨history, hs, -⟩ := submitSend_filed (toOption_some hm)
        exact h.submitted hnew (by decide) hs (by simp)
      | message =>
        obtain ⟨history, hs, -⟩ := submitSend_filed (toOption_some hm)
        exact h.submitted hnew (by decide) hs (by simp)
  | retry id o =>
    simp only [Engine.step] at hm
    split at hm
    · cases hm
    · exact h.retry (by assumption) (toOption_some hm)
  | start id =>
    obtain ⟨t, job, hfind, hphase, rfl⟩ := whileQueued_eq hm
    exact h.start hfind hphase
  | abandon id =>
    obtain ⟨t, job, hfind, hphase, rfl⟩ := whileQueued_eq hm
    have hgood := h.good id t hfind
    obtain ⟨heq, -, hdirection, -, hother⟩ := hgood.queued job hphase
    refine h.ended (by rw [← hgood.named]; rfl) hfind (by simp [hphase]) ?_
    exact .of_ended hgood.named (fun hmessage => absurd hmessage hdirection) hother (by simp)
  | acknowledge id number =>
    obtain ⟨t, job, a, hfind, hphase, rfl⟩ := whileRunning_eq hm
    exact h.session t.history { a with acknowledged := some number } hfind hphase rfl rfl
      rfl rfl rfl rfl rfl
  | progress id p =>
    obtain ⟨t, job, a, hfind, hphase, rfl⟩ := whileRunning_eq hm
    refine h.session (noteProgress t.history a p) { a with lastSync := p.sync } hfind hphase ?_ ?_ ?_ ?_
      rfl rfl rfl <;> rw [noteProgress] <;> split <;> rfl
  | points id store =>
    obtain ⟨t, job, a, hfind, hphase, rfl⟩ := whileRunning_eq hm
    exact h.congr rfl
  | refuse id => cases hok
  | finish id outcome =>
    obtain ⟨t, job, a, hfind, hphase, rfl⟩ := whileRunning_eq hm
    have hgood := h.good id t hfind
    obtain ⟨-, hmessage, hname, hnumbered, hother⟩ := hgood.running job a hphase
    refine h.ended (by rw [← hgood.named]; rfl) hfind (by simp [hphase]) ?_
    refine .of_ended hgood.named (fun hm => absurd hm hmessage) hother fun b hb => ?_
    obtain rfl := Option.some.inj hb
    exact ⟨hname, fun hnone => finish_numbered (hnumbered hnone) outcome⟩
  | message req o =>
    simp only [Engine.step] at hm
    split at hm
    · cases hm
    · rename_i hnew
      obtain ⟨server, -, rfl⟩ := sendMessage_eq (toOption_some hm)
      have hgood : Good o.id ⟨messageHistory settings req o server,
          .messaging ⟨messageHistory settings req o server, none, false⟩⟩ :=
          .of_messaging rfl rfl rfl rfl rfl
      refine h.put rfl (fun t' ht' => absurd (Table.mem_keys.mpr ⟨t', ht'⟩) hnew) hgood ?_
      intro job prev hphase
      cases hphase
  | messageNumber id =>
    obtain ⟨t, job, hfind, hphase, rfl⟩ := whileMessaging_eq hm
    exact h.congr rfl
  | messageEnd id outcome =>
    obtain ⟨t, job, hfind, hphase, rfl⟩ := whileMessaging_eq hm
    have hgood := h.good id t hfind
    obtain ⟨heq, -, hzero, hnone⟩ := hgood.messaging job hphase
    have hid : job.history.id = id := by rw [← heq, hgood.named]
    refine h.ended (by rw [← hid]; rfl) hfind (by simp [hphase]) ?_
    exact .of_ended hid (fun _ => heq ▸ hzero) (by simp [hnone]) (by simp)
  | files disk =>
    cases hm
    exact h.congr rfl

lemma opening_store_of_resume {job : Job} {prev : TransferHistory} (h : job.resume = some prev) :
    (e.opening job).store = prev.id := by
  simp [opening, h]

lemma opening_restart_of_resume {job : Job} {prev : TransferHistory} (h : job.resume = some prev) :
    (e.opening job).restart = e.usable job.history prev.id := by
  simp [opening, h]

lemma opening_sent {job : Job} {cp : Checkpoint} (h : (e.opening job).restart = some cp)
    (hnumber : job.history.direction ≠ .receive → job.history.pesitTransferId ≠ 0) :
    (e.opening job).sent = job.history.pesitTransferId := by
  have hrestart : (job.resume.bind fun prev => e.usable job.history prev.id) = some cp := h
  cases hdirection : job.history.direction with
  | receive => simp [opening, hrestart, hdirection]
  | send => simp [opening, hrestart, hdirection, hnumber (by rw [hdirection]; decide)]
  | message => simp [opening, hrestart, hdirection, hnumber (by rw [hdirection]; decide)]

end Steps

section Chains

variable {settings : EngineSettings} {disk : FileSystem} {e : Engine}

lemma sound_of_moves (h : Moves (Engine.step settings) Unrefused (initial disk) e) : e.Sound :=
  h.invariant (fun _ _ _ hs hok hm => hs.step hok hm) (initial_sound disk)

lemma retry_sent {job : Job} {prev : TransferHistory} {a : Attempt} {returned : Bool} {cp : Checkpoint}
    (hmessage : job.history.direction ≠ .message) (hdirection : job.history.direction = prev.direction)
    (hnumber : job.history.pesitTransferId = prev.pesitTransferId) (hnumbered : Numbered prev a returned)
    (hrestart : (e.opening job).restart = some cp) :
    (e.opening job).sent = if prev.direction = .receive ∧ returned = false then 0 else a.identifier := by
  have hsend : job.history.direction ≠ .receive → prev.direction = .send := by
    intro hne
    rw [hdirection] at hne hmessage
    cases hd : prev.direction with
    | send => rfl
    | receive => exact absurd hd hne
    | message => exact absurd hd hmessage
  rw [opening_sent hrestart fun hne => ?_, hnumber]
  · by_cases hreceive : prev.direction = .receive
    · rw [(hnumbered.receive hreceive).2]
      cases returned <;> simp [hreceive]
    · obtain ⟨hsent, hne⟩ := hnumbered.send (hsend (by rwa [hdirection]))
      rw [hsent, if_neg (by simp [hreceive]), Attempt.identifier, if_pos hne]
  · obtain ⟨hsent, hzero⟩ := hnumbered.send (hsend hne)
    rw [hnumber, hsent]
    exact hzero

/-- While no restart is refused, a retry that is to resume a transfer goes on from the last usable point
that this one left, with its number, exactly if it is the first try that is retried. -/
theorem retry_continues_iff (h : Moves (Engine.step settings) Unrefused (initial disk) e)
    {id : String} {t : Transfer} {job : Job} {prev : TransferHistory}
    (hfind : e.transfers.find id = some t) (hqueued : t.phase = .queued job)
    (hretried : job.retried = true) (hresume : job.resume = some prev) :
    (∃ a, e.attempted prev.id = some a ∧ e.Continues job a) ↔ e.FirstTry job prev := by
  have hsound := sound_of_moves h
  obtain ⟨heq, -, hmessage, -⟩ := (hsound.good id t hfind).queued job hqueued
  rw [heq] at hmessage
  obtain ⟨⟨job₀, a₀, returned, hprev⟩, hdirection, hnumber⟩ :=
    hsound.linked id t job prev hfind hqueued hretried hresume
  have hrestart := opening_restart_of_resume (e := e) hresume
  obtain ⟨-, hother, hattempt⟩ := (hsound.good prev.id _ hprev).ended job₀ a₀ returned rfl
  have hattempted : e.attempted prev.id = a₀ := by
    rw [attempted, hprev]
    rfl
  constructor
  · rintro ⟨a, ha, hstore, ⟨cp, hcp, hpoint⟩, hsent⟩
    rw [hattempted] at ha
    subst ha
    obtain ⟨hname, hnumbered⟩ := hattempt a rfl
    rw [opening_store_of_resume hresume] at hstore
    have hfirst : job₀.resume = none := by
      cases hp : job₀.resume with
      | none => rfl
      | some p =>
        rw [← hstore, storeName, hp] at hname
        exact absurd hname.symm (hother p hp)
    refine ⟨job₀, a, returned, hprev, hfirst, by rw [hstore, hcp]; rfl, fun hreceive => ?_⟩
    rw [retry_sent hmessage hdirection hnumber (hnumbered hfirst) hpoint] at hsent
    cases returned with
    | true => exact .inl rfl
    | false => exact .inr (by simpa [hreceive] using hsent.symm)
  · rintro ⟨job₁, a, returned₁, hfound, hfirst, husable, hreceive⟩
    rw [hprev] at hfound
    cases hfound
    obtain ⟨hname, hnumbered⟩ := hattempt a rfl
    obtain ⟨cp, hcp⟩ := Option.isSome_iff_exists.mp husable
    have hown : a.store = prev.id := by rw [hname, storeName, hfirst]; rfl
    refine ⟨a, hattempted, ?_, ⟨cp, by rw [hown, hcp], by rw [hrestart, hcp]⟩, ?_⟩
    · rw [opening_store_of_resume hresume, hown]
    · rw [retry_sent hmessage hdirection hnumber (hnumbered hfirst) (hrestart.trans hcp)]
      split
      · rename_i hlost
        rcases hreceive hlost.1 with hreturned | hzero
        · rw [hlost.2] at hreturned
          cases hreturned
        · exact hzero.symm
      · rfl

end Chains

def sampleSettings : EngineSettings := ⟨"in", "R"⟩

def sampleServer : PesitServer :=
  ⟨"S", "server", "host", 5000, false, none, none, none, false, false, true, none, none, .rest []⟩

def sampleSubmission (id : String) : Submission := ⟨id, .ok sampleServer, .ok (), "now"⟩

def sampleRequest : TransferRequest := ⟨some "S", none, some "data", some "F", none, none⟩

def sampleRun (id : String) (cp : Checkpoint) : List EngineMove :=
  [.start id, .points id (MemoryCheckpoints.empty.record cp),
    .progress id ⟨cp.dataBytes, cp.articles, cp.sync⟩, .finish id none]

def retriedOnce : Engine :=
  (EngineMove.submit .send sampleRequest (sampleSubmission "1") :: (sampleRun "1" ⟨1, 10, 10, 1⟩ ++
    [EngineMove.retry "1" (sampleSubmission "2")])).foldl (after (Engine.step sampleSettings))
    (initial (.blank []))

def firstHistory : TransferHistory :=
  ⟨"1", some "S", some "R", .send, some "data", some "F", .failed, 1, 1, some sampleRequest⟩

def secondHistory : TransferHistory :=
  { firstHistory with
    id := "2"
    status := .inProgress
    request := some ⟨some "S", some "R", some "data", some "F", none, some "1"⟩ }

lemma retriedOnce_queued : retriedOnce.transfers.find "2" =
    some ⟨secondHistory, .queued ⟨secondHistory, some firstHistory, true⟩⟩ := by decide +kernel

theorem retry_continues_once :
    ∃ a, retriedOnce.attempted "1" = some a ∧
    retriedOnce.Continues ⟨secondHistory, some firstHistory, true⟩ a := by
  have hrun : Moves (Engine.step sampleSettings) Unrefused (initial (.blank [])) retriedOnce :=
    moves_foldl_of _ (by simp [sampleRun, Unrefused]) _
  refine (retry_continues_iff hrun retriedOnce_queued rfl rfl rfl).mpr ?_
  have hended : retriedOnce.transfers.find "1" = some ⟨firstHistory,
      .ended ⟨{ firstHistory with
      status := .inProgress, lastSyncPoint := 0, pesitTransferId := 0 }, none, false⟩
        (some ⟨"1", none, 1, none, 1⟩) false⟩ := by decide +kernel
  exact ⟨_, _, _, hended, rfl, by decide +kernel, by intro h; cases h⟩

def retriedTwice : Engine :=
  (sampleRun "2" ⟨2, 20, 20, 2⟩ ++ [EngineMove.retry "2" (sampleSubmission "3")]).foldl
    (after (Engine.step sampleSettings)) retriedOnce

def cutHistory : TransferHistory := { secondHistory with status := .failed, lastSyncPoint := 2 }

def thirdHistory : TransferHistory :=
  { secondHistory with
    id := "3"
    lastSyncPoint := 2
    request := some ⟨some "S", some "R", some "data", some "F", none, some "2"⟩ }

/-- The second retry opens a store that nothing was written to, and begins again with another number. -/
theorem retry_starts_over :
    ¬ ∀ settings disk e, Moves (Engine.step settings) Unrefused (initial disk) e → ∀ id t job prev,
      e.transfers.find id = some t → t.phase = .queued job → job.retried = true →
      job.resume = some prev →
      ∃ a, e.attempted prev.id = some a ∧ e.Continues job a := by
  intro h
  have hrun : Moves (Engine.step sampleSettings) Unrefused (initial (.blank [])) retriedTwice :=
    .trans (moves_foldl_of _ (by simp [sampleRun, Unrefused]) _)
      (moves_foldl_of _ (by simp [sampleRun, Unrefused]) retriedOnce)
  have hqueued : retriedTwice.transfers.find "3" =
      some ⟨thirdHistory, .queued ⟨thirdHistory, some cutHistory, true⟩⟩ := by decide +kernel
  obtain ⟨a, ha, hcontinues⟩ := h _ _ _ hrun "3" _ _ _ hqueued rfl rfl rfl
  have hstore : (retriedTwice.attempted "2").map Attempt.store = some "1" := by decide +kernel
  have hopened :
      (retriedTwice.opening ⟨thirdHistory, some cutHistory, true⟩).store = "2" := by decide +kernel
  have ha : retriedTwice.attempted "2" = some a := ha
  rw [ha, Option.map_some, Option.some.injEq, ← hcontinues.store, hopened] at hstore
  exact absurd hstore (by decide)

end PesitWizard.Client.Engine
