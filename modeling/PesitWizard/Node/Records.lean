import PesitWizard.Node.Reception

/-! The records of the transfers of a node: which of them are open, what becomes of them once they are
closed, and which ones a restarted transfer goes on from. -/

namespace PesitWizard.Node

open App PesitWizard.Core Io Library

namespace StoredRecord

/-- The transfer that is cut can be the one that the other goes on with. -/
def Precedes (q r : StoredRecord) : Prop :=
  q.status = .interrupted ∧ q.partnerId = r.partnerId ∧ q.filename = r.filename ∧ q.serverId = r.serverId

structure SameTransfer (r r' : StoredRecord) : Prop where
  transferId : r'.transferId = r.transferId
  partnerId : r'.partnerId = r.partnerId
  filename : r'.filename = r.filename
  serverId : r'.serverId = r.serverId
  parent : r'.parentTransferId = r.parentTransferId

lemma SameTransfer.refl (r : StoredRecord) : r.SameTransfer r := ⟨rfl, rfl, rfl, rfl, rfl⟩

lemma SameTransfer.trans {p q r : StoredRecord} (h : p.SameTransfer q) (h' : q.SameTransfer r) :
    p.SameTransfer r where
  transferId := h'.transferId.trans h.transferId
  partnerId := h'.partnerId.trans h.partnerId
  filename := h'.filename.trans h.filename
  serverId := h'.serverId.trans h.serverId
  parent := h'.parent.trans h.parent

lemma Precedes.congr {p q r : StoredRecord} (h : p.Precedes q) (hr : q.SameTransfer r) : p.Precedes r :=
  ⟨h.1, h.2.1.trans hr.partnerId.symm, h.2.2.1.trans hr.filename.symm, h.2.2.2.trans hr.serverId.symm⟩

lemma not_isOpen_of_interrupted {r : StoredRecord} (h : r.status = .interrupted) : ¬ r.isOpen := by
  rw [TransferRecord.isOpen, h]
  simp

end StoredRecord

namespace Site

open StoredRecord

structure Tracked (s : Site) : Prop where
  keyed : ∀ id r, s.records.find id = some r → r.transferId = id
  active : ∀ id, (s.active.find id).isSome ↔ ∃ r, s.records.find id = some r ∧ r.isOpen
  lineage : ∀ id r p, s.records.find id = some r → r.parentTransferId = some p →
    ∃ q, s.records.find p = some q ∧ q.Precedes r

/-- The records that are closed stay as they are. -/
def Settles (s t : Site) : Prop :=
  ∀ id r, s.records.find id = some r → ¬ r.isOpen → t.records.find id = some r

variable {s t u : Site} {i : String}

lemma Settles.trans (h : s.Settles t) (h' : t.Settles u) : s.Settles u := by
  intro id r hr hclosed
  exact h' id r (h id r hr hclosed) hclosed

lemma settles_of_records (h : t.records = s.records) : s.Settles t := by
  intro id r hr _
  rw [h]
  exact hr

lemma Tracked.congr (h : Tracked s) (hrecords : t.records = s.records) (hactive : t.active = s.active) :
    Tracked t := by
  refine ⟨?_, ?_, ?_⟩
  · intro id r hr
    rw [hrecords] at hr
    exact h.keyed id r hr
  · intro id
    rw [hrecords, hactive]
    exact h.active id
  · intro id r p hr hp
    rw [hrecords] at hr ⊢
    exact h.lineage id r p hr hp

section New

lemma settles_put {r : StoredRecord} (hnew : i ∉ s.records.keys)
    (hrecords : t.records = s.records.put i r) : s.Settles t := by
  intro id q hq _
  have hid : id ≠ i := by
    rintro rfl
    exact hnew (Table.mem_keys.mpr ⟨q, hq⟩)
  rw [hrecords, Table.find_put, if_neg hid]
  exact hq

/-- A record that is new. It is open exactly if its transfer is kept. -/
lemma Tracked.put {r : StoredRecord} (h : Tracked s) (hnew : i ∉ s.records.keys)
    (hrecords : t.records = s.records.put i r) (hid : r.transferId = i)
    (hactive : (t.active.find i).isSome ↔ r.isOpen)
    (hothers : ∀ j, j ≠ i → t.active.find j = s.active.find j)
    (hparent : ∀ p, r.parentTransferId = some p → ∃ q, s.records.find p = some q ∧ q.Precedes r) :
    Tracked t := by
  have hother {j : String} (hj : j ≠ i) : t.records.find j = s.records.find j := by
    rw [hrecords, Table.find_put, if_neg hj]
  have hown : t.records.find i = some r := by rw [hrecords, Table.find_put, if_pos rfl]
  have hold {p : String} {q : StoredRecord} (hq : s.records.find p = some q) : p ≠ i := by
    rintro rfl
    exact hnew (Table.mem_keys.mpr ⟨q, hq⟩)
  refine ⟨?_, ?_, ?_⟩
  · intro id q hq
    by_cases hj : id = i
    · subst hj
      rw [hown] at hq
      exact Option.some.inj hq ▸ hid
    · exact h.keyed id q (hother hj ▸ hq)
  · intro id
    by_cases hj : id = i
    · subst hj
      rw [hown, hactive]
      simp
    · rw [hothers id hj, hother hj]
      exact h.active id
  · intro id q p hq hp
    have hlineage : ∃ q', s.records.find p = some q' ∧ q'.Precedes q := by
      by_cases hj : id = i
      · subst hj
        rw [hown] at hq
        obtain rfl := Option.some.inj hq
        exact hparent p hp
      · exact h.lineage id q p (hother hj ▸ hq) hp
    obtain ⟨q', hq', hprecedes⟩ := hlineage
    exact ⟨q', (hother (hold hq')).trans hq', hprecedes⟩

end New

section Events

/-- What an event may do to the record of its transfer, with the transfers that are kept. -/
structure Renewed (i : String) (s t : Site) : Prop where
  records : ∀ j, j ≠ i → t.records.find j = s.records.find j
  active : ∀ j, j ≠ i → t.active.find j = s.active.find j
  own : ∀ r, s.records.find i = some r →
    ∃ r', t.records.find i = some r' ∧ r.SameTransfer r' ∧ ((t.active.find i).isSome ↔ r'.isOpen)

lemma Renewed.tracked (h : Renewed i s t) (hs : Tracked s) {r : StoredRecord}
    (hr : s.records.find i = some r) (hopen : r.isOpen) : Tracked t := by
  obtain ⟨r', hr', hsame, hactive⟩ := h.own r hr
  have hclosed {p : String} {q : StoredRecord} (hq : s.records.find p = some q)
      (hcut : q.status = .interrupted) : p ≠ i := by
    rintro rfl
    obtain rfl := Option.some.inj (hq.symm.trans hr)
    exact not_isOpen_of_interrupted hcut hopen
  refine ⟨?_, ?_, ?_⟩
  · intro id q hq
    by_cases hj : id = i
    · subst hj
      obtain rfl := Option.some.inj (hr'.symm.trans hq)
      exact hsame.transferId.trans (hs.keyed _ r hr)
    · exact hs.keyed id q (h.records id hj ▸ hq)
  · intro id
    by_cases hj : id = i
    · subst hj
      rw [hactive, hr']
      simp
    · rw [h.active id hj, h.records id hj]
      exact hs.active id
  · intro id q p hq hp
    have hlineage : ∃ q', s.records.find p = some q' ∧ q'.Precedes q := by
      by_cases hj : id = i
      · subst hj
        obtain rfl := Option.some.inj (hr'.symm.trans hq)
        obtain ⟨q', hq', hprecedes⟩ := hs.lineage _ r p hr (hsame.parent.symm.trans hp)
        exact ⟨q', hq', hprecedes.congr hsame⟩
      · exact hs.lineage id q p (h.records id hj ▸ hq) hp
    obtain ⟨q', hq', hprecedes⟩ := hlineage
    exact ⟨q', (h.records p (hclosed hq' hprecedes.1)).trans hq', hprecedes⟩

lemma Renewed.settles (h : Renewed i s t) {r : StoredRecord} (hr : s.records.find i = some r)
    (hopen : r.isOpen) :
    s.Settles t := by
  intro id q hq hclosed
  have hj : id ≠ i := by
    rintro rfl
    obtain rfl := Option.some.inj (hq.symm.trans hr)
    exact hclosed hopen
  rw [h.records id hj]
  exact hq

lemma update_find_of_ne (s : Site) {j : String} (hj : j ≠ i) (f : StoredRecord → StoredRecord) :
    (s.update i f).records.find j = s.records.find j := by
  rw [update]
  split
  · rw [Table.find_put, if_neg hj]
  · rfl

lemma update_find_self {r : StoredRecord} (h : s.records.find i = some r)
    (f : StoredRecord → StoredRecord) :
    (s.update i f).records.find i = some (f r) := by
  rw [update, h]
  exact (Table.find_put ..).trans (if_pos rfl)

/-- An update of a record that its transfer goes on with. -/
lemma renewed_update {a : Active} {f : StoredRecord → StoredRecord}
    (hf : ∀ r, r.SameTransfer (f r) ∧ (f r).isOpen) :
    Renewed i s (update { s with active := s.active.put i a } i f) where
  records j hj := update_find_of_ne _ hj f
  active j hj := by rw [update_active, Table.find_put, if_neg hj]
  own r hr := by
    refine ⟨f r, update_find_self (s := { s with active := s.active.put i a }) hr f, (hf r).1, ?_⟩
    rw [update_active, Table.find_put, if_pos rfl]
    simp [(hf r).2]

/-- An event that ends a transfer. -/
lemma renewed_end {f : StoredRecord → StoredRecord} (hf : ∀ r, r.SameTransfer (f r) ∧ ¬ (f r).isOpen) :
    Renewed i s (update { s with active := s.active.erase i } i f) where
  records j hj := update_find_of_ne _ hj f
  active j hj := by rw [update_active, Table.find_erase, if_neg hj]
  own r hr := by
    refine ⟨f r, update_find_self (s := { s with active := s.active.erase i }) hr f, (hf r).1, ?_⟩
    rw [update_active, Table.find_erase, if_pos rfl]
    simp [(hf r).2]

lemma Renewed.congr (h : Renewed i s t) (hrecords : u.records = t.records)
    (hactive : u.active = t.active) : Renewed i s u where
  records j hj := by
    rw [hrecords]
    exact h.records j hj
  active j hj := by
    rw [hactive]
    exact h.active j hj
  own r hr := by
    rw [hrecords, hactive]
    exact h.own r hr

/-- What is noted of a transfer after its end. -/
lemma Renewed.amend {f : StoredRecord → StoredRecord} (h : Renewed i s t)
    (hended : t.active.find i = none) (hf : ∀ r, ¬ r.isOpen → r.SameTransfer (f r) ∧ ¬ (f r).isOpen) :
    Renewed i s (t.update i f) where
  records j hj := (update_find_of_ne _ hj f).trans (h.records j hj)
  active j hj := by
    rw [update_active]
    exact h.active j hj
  own r hr := by
    obtain ⟨r', hr', hsame, hactive⟩ := h.own r hr
    have hclosed : ¬ r'.isOpen := by simp [← hactive, hended]
    refine ⟨f r', update_find_self hr' f, hsame.trans (hf r' hclosed).1, ?_⟩
    rw [update_active, hended]
    simp [(hf r' hclosed).2]

lemma transferEvent_renewed {a : Active} (ha : s.active.find i = some a)
    (hopen : ∀ r, s.records.find i = some r → r.isOpen) (e : TransferEvent) (soon uploaded : Bool) :
    Renewed i s (s.transferEvent i e soon uploaded) := by
  rw [transferEvent, ha]
  cases e with
  | started transferId start => exact renewed_update fun r => ⟨⟨rfl, rfl, rfl, rfl, rfl⟩, .inr rfl⟩
  | progress p =>
    dsimp only
    split
    · refine ⟨fun _ _ => rfl, fun _ _ => rfl, fun r hr => ⟨r, hr, .refl r, ?_⟩⟩
      simp [ha, hopen r hr]
    · exact renewed_update fun r => ⟨⟨rfl, rfl, rfl, rfl, rfl⟩, .inr rfl⟩
  | ended data diag =>
    dsimp only
    refine .congr ?_ (release_records _ a) (release_active _ a)
    have hend : Renewed i s (update { s with active := s.active.erase i } i fun r =>
        { r with status := PwHandler.endStatus data diag, lastSyncPoint := data.lastSync }) :=
      renewed_end fun r =>
        ⟨⟨rfl, rfl, rfl, rfl, rfl⟩, PwHandler.endStatus_closed data diag data.lastSync⟩
    split
    · rw [upload]
      split
      · refine hend.amend (by simp) fun r hr => ?_
        cases uploaded with
        | true => exact ⟨⟨rfl, rfl, rfl, rfl, rfl⟩, hr⟩
        | false => exact ⟨⟨rfl, rfl, rfl, rfl, rfl⟩, by simp [TransferRecord.isOpen]⟩
      · exact hend
    · exact hend
  | failed e =>
    dsimp only
    refine .congr ?_ (release_records _ a) (release_active _ a)
    refine renewed_end fun r => ⟨⟨rfl, rfl, rfl, rfl, rfl⟩, ?_⟩
    rw [TransferRecord.isOpen]
    dsimp only
    split <;> simp

end Events

section Requests

variable {l : Listener} {session : SessionInfo} {file : FileSpec} {o : Circumstances}

lemma interruptedRecord_precedes (hs : Tracked s) {partner name : String} {tid : ℕ} {q r : StoredRecord}
    (h : interruptedRecord l s.records.docs partner name tid = some q) (hpartner : r.partnerId = partner)
    (hname : r.filename = name) (hserver : r.serverId = l.serverId) :
    s.records.find q.transferId = some q ∧ q.Precedes r := by
  have hq := List.find?_some h
  simp only [Bool.and_eq_true, decide_eq_true_eq, beq_iff_eq] at hq
  obtain ⟨⟨⟨⟨hstatus, -⟩, hpartner'⟩, hname'⟩, hserver'⟩ := hq
  obtain ⟨id, hid⟩ := Table.mem_docs.mp (List.mem_reverse.mp (List.mem_of_find?_eq_some h))
  refine ⟨?_, hstatus, hpartner'.trans hpartner.symm, hname'.trans hname.symm,
    hserver'.trans hserver.symm⟩
  rw [hs.keyed id q hid]
  exact hid

lemma record_parent (hs : Tracked s) {p : Plan} (hp : s.Planned l session file o p) (id : String)
    (h : (Plan.record p l file o.recordId).parentTransferId = some id) :
    ∃ q, s.records.find id = some q ∧ q.Precedes (Plan.record p l file o.recordId) := by
  obtain ⟨q, hq, rfl⟩ := Option.map_eq_some_iff.mp h
  rw [hp.previous, previous] at hq
  split at hq
  · exact ⟨q, interruptedRecord_precedes hs hq rfl rfl rfl⟩
  · cases hq

lemma select_records (s : Site) (l : Listener) (session : SessionInfo) (file : FileSpec)
    (o : Circumstances) :
    ((s.select l session file o).1.records = s.records ∧
      (s.select l session file o).1.active = s.active) ∨
    ∃ partner tid path a, (s.select l session file o).1.records =
        s.records.put o.recordId (newRecord l .send partner file tid path o.recordId) ∧
      (s.select l session file o).1.active = s.active.put o.recordId a := by
  rw [select]
  split
  · exact .inl ⟨rfl, rfl⟩
  · rename_i partner vf hadmitted
    have htid := s.pesitTransferId_alike file.transferId.toNat
    generalize s.pesitTransferId file.transferId.toNat = numbered at htid ⊢
    have hstage {t : Site} (ht : s.Alike t) :
        (if vf.staged then t.onDisk (t.disk.link o.staging o.fetched) else t).records =
        s.records ∧ (if vf.staged then t.onDisk (t.disk.link o.staging o.fetched) else
        t).active = s.active := by
      split <;> exact ⟨ht.records, ht.active⟩
    obtain ⟨hrecords, hactive⟩ := hstage htid
    dsimp only
    generalize (if vf.staged then numbered.2.onDisk (numbered.2.disk.link o.staging o.fetched)
      else numbered.2) = t at hrecords hactive ⊢
    have hclear :
        (if file.restarted then t else
        t.clearCheckpoints l.serverId (restartKey session file numbered.1)).records =
        s.records ∧ (if file.restarted then t else t.clearCheckpoints l.serverId
        (restartKey session file numbered.1)).active = s.active := by
      split <;> exact ⟨hrecords, hactive⟩
    cases o.openFailure with
    | some r => exact .inl ⟨hrecords, hactive⟩
    | none =>
      cases o.storeFailure with
      | some r => exact .inl hclear
      | none =>
        refine .inr ⟨partner.id, numbered.1, some (sendPath l vf o.staging),
          ⟨0, 0, none, if vf.staged then some (sendPath l vf o.staging) else none⟩, ?_, ?_⟩
        · dsimp only [register, newRecord]
          rw [hclear.1]
        · dsimp only [register, newRecord]
          rw [hclear.2]

end Requests

/-- What one move does: the records and the transfers go on together, and no closed record changes. -/
lemma tracked_step {m : Move} (hs : Tracked s) (h : s.move m = some t) : Tracked t ∧ s.Settles t := by
  have hsame (hrecords : t.records = s.records) (hactive : t.active = s.active) :
      Tracked t ∧ s.Settles t :=
    ⟨hs.congr hrecords hactive, settles_of_records hrecords⟩
  cases m with
  | configure c => exact hsame (Option.some.inj h ▸ rfl) (Option.some.inj h ▸ rfl)
  | create l session file o =>
    rw [move] at h
    split at h
    · rename_i hnew
      obtain rfl := Option.some.inj h
      rcases create_cases s l session file o with ⟨t, r, heq, halike⟩ | ⟨t, p, halike,
        hplan, ⟨r, heq⟩ | heq⟩
      · rw [heq]
        exact ⟨hs.congr halike.records halike.active, settles_of_records halike.records⟩
      · rw [heq]
        exact ⟨hs.congr halike.records halike.active, settles_of_records halike.records⟩
      · rw [heq]
        refine ⟨hs.put hnew.1 rfl rfl ?_ ?_ (record_parent hs (plan_planned hplan)),
          settles_put hnew.1 rfl⟩
        · simp [TransferRecord.isOpen, Plan.record, newRecord]
        · intro j hj
          simp [hj]
    · cases h
  | select l session file o =>
    rw [move] at h
    split at h
    · rename_i hnew
      obtain rfl := Option.some.inj h
      rcases select_records s l session file o with ⟨hrecords, hactive⟩ | ⟨partner, tid, path, a,
        hrecords, hactive⟩
      · exact hsame hrecords hactive
      · refine ⟨hs.put hnew.1 hrecords rfl ?_ ?_ (fun p hp => by cases hp), settles_put hnew.1 hrecords⟩
        · simp [hactive, TransferRecord.isOpen, newRecord]
        · intro j hj
          simp [hactive, hj]
    · cases h
  | message l session file recordId =>
    rw [move] at h
    split at h
    · cases h
    · rename_i hnew
      obtain rfl := Option.some.inj h
      refine ⟨hs.put hnew rfl rfl ?_ (fun _ _ => rfl) (fun p hp => by cases hp), settles_put hnew rfl⟩
      have hidle : s.active.find recordId = none := by
        by_contra hne
        obtain ⟨r, hr, -⟩ := (hs.active recordId).mp (Option.isSome_iff_ne_none.mpr hne)
        exact hnew (Table.mem_keys.mpr ⟨r, hr⟩)
      simp [message, hidle, TransferRecord.isOpen]
  | event recordId e soon uploaded =>
    obtain rfl := Option.some.inj h
    cases ha : s.active.find recordId with
    | none => exact hsame (by rw [transferEvent_ignored ha]) (by rw [transferEvent_ignored ha])
    | some a =>
      obtain ⟨r, hr, hopen⟩ := (hs.active recordId).mp (by rw [ha]; rfl)
      have hrenewed :=
        transferEvent_renewed ha
          (fun r' hr' => Option.some.inj (hr.symm.trans hr') ▸ hopen) e soon uploaded
      exact ⟨hrenewed.tracked hs hr hopen, hrenewed.settles hr hopen⟩
  | checkpoint serverId key store => exact hsame (Option.some.inj h ▸ rfl) (Option.some.inj h ▸ rfl)
  | write recordId content =>
    obtain ⟨r, -, rfl⟩ := Option.map_eq_some_iff.mp h
    exact hsame rfl rfl
  | finish recordId =>
    obtain ⟨r, -, h⟩ := Option.bind_eq_some_iff.mp h
    obtain ⟨disk, -, h⟩ := Option.bind_eq_some_iff.mp h
    exact hsame (Option.some.inj h ▸ rfl) (Option.some.inj h ▸ rfl)
  | close recordId => exact hsame (Option.some.inj h ▸ rfl) (Option.some.inj h ▸ rfl)
  | outside path content => exact hsame (Option.some.inj h ▸ rfl) (Option.some.inj h ▸ rfl)

lemma tracked_run (c : Catalogue) (disk : FileSystem) (moves : List Move) :
    Tracked (moves.foldl (after move) (initial c disk)) := by
  refine Moves.invariant (fun _ _ _ hs _ h => (tracked_step hs h).1) (moves_foldl moves _) ⟨?_, ?_, ?_⟩
  · intro id r hr
    cases hr
  · intro id
    simp [initial]
  · intro id r p hr
    cases hr

end Site

end PesitWizard.Node
