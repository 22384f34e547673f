import PesitWizard.Node.Handler

/-! The transfers of a node over its whole life: any number of sessions, whose requests, data and ends
come in any order, and what becomes of the files. -/

namespace PesitWizard.Node

open App PesitWizard.Core Io Library

namespace Site

inductive Move
  | configure (c : Catalogue)
  | create (l : Listener) (session : SessionInfo) (file : FileSpec) (o : Circumstances)
  | select (l : Listener) (session : SessionInfo) (file : FileSpec) (o : Circumstances)
  | message (l : Listener) (session : SessionInfo) (file : FileSpec) (recordId : String)
  | event (recordId : String) (e : TransferEvent) (soon uploaded : Bool)
  | checkpoint (serverId key : String) (store : MemoryCheckpoints)
  | write (recordId : String) (content : Bytes)
  | finish (recordId : String)
  | close (recordId : String)
  | outside (path : FilePath) (content : Option Bytes)

def New (s : Site) (o : Circumstances) : Prop :=
  o.recordId ∉ s.records.keys ∧ s.disk.isFile o.staging = false ∧
    s.disk.isFile (partPath o.staging) = false ∧
    ∀ r ∈ s.receiving.docs, r.path ≠ o.staging

instance (s : Site) (o : Circumstances) : Decidable (s.New o) :=
  inferInstanceAs (Decidable (_ ∧ _ ∧ _ ∧ _))

def move (s : Site) : Move → Option Site
  | .configure c => some { s with catalogue := c }
  | .create l session file o => if s.New o then some (s.create l session file o).1 else none
  | .select l session file o => if s.New o then some (s.select l session file o).1 else none
  | .message l session file recordId =>
    if recordId ∈ s.records.keys then none else some (s.message l session file recordId)
  | .event recordId e soon uploaded => some (s.transferEvent recordId e soon uploaded)
  | .checkpoint serverId key store =>
    some { s with checkpoints := fun i k => if i = serverId ∧ k = key then store else s.checkpoints i k }
  | .write recordId content =>
    (s.receiving.find recordId).map fun r => s.onDisk (s.disk.write r.temporary content)
  | .finish recordId => do
    let r ← s.receiving.find recordId
    let disk ← FileSink.finish s.disk r.path
    let s := s.onDisk disk
    some { s with receiving := s.receiving.erase recordId, received := s.received ++ [(r.file, r.path)] }
  | .close recordId => some { s with receiving := s.receiving.erase recordId }
  | .outside path content =>
    some (s.onDisk (match content with
      | some c => s.disk.link path c
      | none => s.disk.remove path))

structure Alike (s t : Site) : Prop where
  catalogue : t.catalogue = s.catalogue
  records : t.records = s.records
  active : t.active = s.active
  disk : t.disk = s.disk
  receiving : t.receiving = s.receiving
  received : t.received = s.received

lemma Alike.refl (s : Site) : s.Alike s := ⟨rfl, rfl, rfl, rfl, rfl, rfl⟩

lemma Alike.trans {s t u : Site} (h : s.Alike t) (h' : t.Alike u) : s.Alike u :=
  ⟨h'.catalogue.trans h.catalogue, h'.records.trans h.records, h'.active.trans h.active,
    h'.disk.trans h.disk, h'.receiving.trans h.receiving, h'.received.trans h.received⟩

lemma clearCheckpoints_alike (s : Site) (i k : String) : s.Alike (s.clearCheckpoints i k) :=
  ⟨rfl, rfl, rfl, rfl, rfl, rfl⟩

lemma pesitTransferId_alike (s : Site) (n : ℕ) : s.Alike (s.pesitTransferId n).2 := by
  rw [pesitTransferId]
  split
  · exact .refl s
  · exact ⟨rfl, rfl, rfl, rfl, rfl, rfl⟩

section Requests

variable (s : Site) (l : Listener) (session : SessionInfo) (file : FileSpec)

lemma choosePath_alike (vf : VirtualFile) (tid : ℕ) (clock : Clock) (previous : Option StoredRecord) :
    s.Alike (s.choosePath l vf session file tid clock previous).1 := by
  cases previous with
  | none => exact s.clearCheckpoints_alike _ _
  | some prev =>
    simp only [choosePath]
    split
    · exact s.clearCheckpoints_alike _ _
    · exact .refl s

def target (partner : Partner) (vf : VirtualFile) (clock : Clock) : FilePath :=
  let tid := (s.pesitTransferId file.transferId.toNat).1
  ((s.previous l partner file tid).bind StoredRecord.localPath).getD
    (receivePath l vf session file tid clock)

structure Planned (o : Circumstances) (p : Plan) : Prop where
  admitted : admitCreate s.catalogue session file = .ok (p.partner, p.vf)
  tid : p.tid = (s.pesitTransferId file.transferId.toNat).1
  previous : p.previous = s.previous l p.partner file p.tid
  path : p.path = if p.vf.staged then o.staging else s.target l session file p.partner p.vf o.clock
  unused : p.vf.staged = false → p.previous = none → p.vf.overwrite = false →
    s.disk.isFile p.path = false

lemma plan_alike (o : Circumstances) : s.Alike (s.plan l session file o).1 := by
  rw [plan]
  split
  · exact .refl s
  · rename_i partner vf hadmitted
    have htid := s.pesitTransferId_alike file.transferId.toNat
    have hchoose := (s.pesitTransferId file.transferId.toNat).2.choosePath_alike l session file vf
      (s.pesitTransferId file.transferId.toNat).1 o.clock
      ((s.pesitTransferId file.transferId.toNat).2.previous l partner file
        (s.pesitTransferId file.transferId.toNat).1)
    dsimp only
    split
    · rename_i heq
      rw [heq] at hchoose
      exact htid.trans hchoose
    · rename_i heq
      rw [heq] at hchoose
      split <;> exact htid.trans hchoose

variable {s l session file}

lemma previous_congr {t : Site} (h : s.Alike t) (partner : Partner) (tid : ℕ) :
    t.previous l partner file tid = s.previous l partner file tid := by
  rw [previous, previous, h.records]

lemma choosePath_path {t : Site} {vf : VirtualFile} {tid : ℕ} {clock : Clock}
    {prev : Option StoredRecord} {path : FilePath} {restart : Option Checkpoint}
    (h : s.choosePath l vf session file tid clock prev = (t, .ok (path, restart))) :
    path = (prev.bind StoredRecord.localPath).getD (receivePath l vf session file tid clock) ∧
      (prev = none → vf.overwrite = false → s.disk.isFile path = false) := by
  cases prev with
  | some r =>
    simp only [choosePath, Prod.mk.injEq, Except.ok.injEq] at h
    exact ⟨h.2.1.symm, by simp⟩
  | none =>
    simp only [choosePath, Prod.mk.injEq] at h
    obtain ⟨-, h⟩ := h
    split at h
    · simp [refuse] at h
    · rename_i hfile
      rw [Except.ok.injEq, Prod.mk.injEq] at h
      obtain ⟨hpath, -⟩ := h
      rw [Option.bind_none, Option.getD_none]
      refine ⟨hpath.symm, fun _ hover => ?_⟩
      rw [← hpath]
      simpa [hover] using hfile

lemma plan_planned {o : Circumstances} {p : Plan} (h : (s.plan l session file o).2 = .ok p) :
    s.Planned l session file o p := by
  rw [plan] at h
  split at h
  · cases h
  · rename_i partner vf hadmitted
    have htid := s.pesitTransferId_alike file.transferId.toNat
    dsimp only at h
    split at h
    · cases h
    · rename_i t path restart heq
      obtain ⟨hpath, hunused⟩ := choosePath_path heq
      rw [previous_congr htid] at hpath hunused
      rw [htid.disk] at hunused
      split at h
      · cases h
      · cases h
        refine ⟨hadmitted, rfl, previous_congr htid _ _, ?_, ?_⟩
        · cases hstaged : vf.staged
          · simpa [hstaged, target] using hpath
          · simp
        · intro hstaged hprev hover
          simp only [hstaged, Bool.false_eq_true, if_false]
          exact hunused (by rw [← previous_congr htid]; exact hprev) hover

lemma create_of_error {o : Circumstances} {r : Refusal} (h : (s.plan l session file o).2 = .error r) :
    s.create l session file o = ((s.plan l session file o).1, .error r) := by
  rw [create]
  split
  · rename_i heq
    rw [heq] at h ⊢
    cases h
    rfl
  · rename_i heq
    rw [heq] at h
    cases h

lemma create_of_ok {o : Circumstances} {p : Plan} (h : (s.plan l session file o).2 = .ok p) :
    s.create l session file o = (s.plan l session file o).1.openSink l file o p := by
  rw [create]
  split
  · rename_i heq
    rw [heq] at h
    cases h
  · rename_i heq
    rw [heq] at h ⊢
    cases h
    rfl

def opened (s : Site) (p : Plan) : FileSystem × ℕ :=
  FileSink.create s.disk p.path (p.restart.map fun cp => ⟨cp.fileOffset, cp.dataBytes, cp.articles⟩)

lemma create_cases (s : Site) (l : Listener) (session : SessionInfo) (file : FileSpec)
    (o : Circumstances) :
    (∃ t r, s.create l session file o = (t, .error r) ∧ s.Alike t) ∨
    ∃ t p, s.Alike t ∧ (s.plan l session file o).2 = .ok p ∧
      ((∃ r, s.create l session file o = (t.onDisk (s.opened p).1, .error r)) ∨
        s.create l session file o =
          ({ t.onDisk (s.opened p).1 with
            records := s.records.put o.recordId (Plan.record p l file o.recordId)
            active := s.active.put o.recordId ⟨0, 0, if p.vf.staged then
              some (o.remote, p.path) else none, none⟩
            receiving := s.receiving.put o.recordId ⟨file.fileName, p.path, (s.opened p).2⟩ },
            .ok ⟨file.fileName, p.path, (s.opened p).2⟩)) := by
  have halike := plan_alike s l session file o
  cases hplan : (s.plan l session file o).2 with
  | error r => exact .inl ⟨_, r, create_of_error hplan, halike⟩
  | ok p =>
    refine .inr ⟨_, p, halike, rfl, ?_⟩
    rw [create_of_ok hplan, openSink, opened, ← halike.disk]
    cases o.storeFailure with
    | some r => exact .inl ⟨r, rfl⟩
    | none =>
      right
      rw [← halike.records, ← halike.active, ← halike.receiving]
      rfl

end Requests

structure Quiet (s t : Site) : Prop where
  catalogue : t.catalogue = s.catalogue
  receiving : t.receiving = s.receiving
  disk : s.disk.Keeps t.disk
  received : ∀ e ∈ t.received, e ∈ s.received ∧ t.disk.read e.2 = s.disk.read e.2

lemma Alike.quiet {s t : Site} (h : s.Alike t) : s.Quiet t where
  catalogue := h.catalogue
  receiving := h.receiving
  disk := by
    rw [h.disk]
    exact .refl _
  received e he := by
    rw [h.received] at he
    exact ⟨he, by rw [h.disk]⟩

lemma Quiet.trans {s t u : Site} (h : s.Quiet t) (h' : t.Quiet u) : s.Quiet u where
  catalogue := h'.catalogue.trans h.catalogue
  receiving := h'.receiving.trans h.receiving
  disk := h.disk.trans h'.disk
  received e he := by
    obtain ⟨ht, hread'⟩ := h'.received e he
    obtain ⟨hs, hread⟩ := h.received e ht
    exact ⟨hs, hread'.trans hread⟩

lemma mem_onDisk_received {s : Site} {disk : FileSystem} {e : String × FilePath} :
    e ∈ (s.onDisk disk).received ↔ e ∈ s.received ∧ disk.read e.2 = s.disk.read e.2 := by
  simp [onDisk]

lemma onDisk_quiet {s : Site} {disk : FileSystem} (h : s.disk.Keeps disk) : s.Quiet (s.onDisk disk) :=
  ⟨rfl, rfl, h, fun _ he => mem_onDisk_received.mp he⟩

section Update

variable (s : Site) (i : String) (f : StoredRecord → StoredRecord)

lemma update_quiet : s.Quiet (s.update i f) := by
  rw [update]
  split
  · exact ⟨rfl, rfl, .refl _, fun e he => ⟨he, rfl⟩⟩
  · exact (Alike.refl s).quiet

@[simp] lemma update_received : (s.update i f).received = s.received := by
  rw [update]
  split <;> rfl

@[simp] lemma update_active : (s.update i f).active = s.active := by
  rw [update]
  split <;> rfl

def Renews (f : StoredRecord → StoredRecord) : Prop :=
  ∀ r, (f r).direction = r.direction ∧ (f r).filename = r.filename

variable {s i f}

lemma update_records (hf : Renews f) {j : String} {r : StoredRecord}
    (h : (s.update i f).records.find j = some r) :
    ∃ r', s.records.find j = some r' ∧ r.direction = r'.direction ∧ r.filename = r'.filename ∧
    (j ≠ i → r = r') := by
  rw [update] at h
  split at h
  · rename_i r₀ hr₀
    rw [Table.find_put] at h
    split at h
    · rename_i hj
      cases h
      exact ⟨r₀, hj ▸ hr₀, (hf r₀).1, (hf r₀).2, fun hne => absurd hj hne⟩
    · exact ⟨r, h, rfl, rfl, fun _ => rfl⟩
  · exact ⟨r, h, rfl, rfl, fun _ => rfl⟩

lemma update_kept {j : String} {r : StoredRecord} (h : s.records.find j = some r) :
    ∃ r', (s.update i f).records.find j = some r' := by
  rw [update]
  split
  · rw [Table.find_put]
    split
    · exact ⟨_, rfl⟩
    · exact ⟨r, h⟩
  · exact ⟨r, h⟩

lemma unstage_quiet (s : Site) (temp : Option FilePath) : s.Quiet (s.unstage temp) := by
  cases temp with
  | none => exact (Alike.refl s).quiet
  | some p => exact onDisk_quiet (s.disk.keeps_remove p)

lemma release_quiet (s : Site) (a : Active) : s.Quiet (s.release a) :=
  (s.unstage_quiet _).trans (unstage_quiet _ _)

@[simp] lemma unstage_records (s : Site) (temp : Option FilePath) :
    (s.unstage temp).records = s.records := by
  cases temp <;> rfl

@[simp] lemma unstage_active (s : Site) (temp : Option FilePath) :
    (s.unstage temp).active = s.active := by
  cases temp <;> rfl

@[simp] lemma release_records (s : Site) (a : Active) :
    (s.release a).records = s.records := by simp [release]

@[simp] lemma release_active (s : Site) (a : Active) :
    (s.release a).active = s.active := by simp [release]

end Update

/-- A step that follows one transfer: no record and no transfer is new, and those of the others
stay as they are. -/
structure Noted (i : String) (s t : Site) : Prop extends Quiet s t where
  records : ∀ j r, t.records.find j = some r → ∃ r', s.records.find j = some r' ∧
    r.direction = r'.direction ∧
    r.filename = r'.filename ∧ (j ≠ i → r = r')
  kept : ∀ j r, s.records.find j = some r → ∃ r', t.records.find j = some r'
  active : ∀ j a, t.active.find j = some a → ∃ a', s.active.find j = some a' ∧
    a.connectorUpload = a'.connectorUpload ∧ a.connectorTemp = a'.connectorTemp

section Events

variable {i : String} {s t u : Site}

lemma Noted.trans (h : Noted i s t) (h' : Noted i t u) : Noted i s u where
  toQuiet := h.toQuiet.trans h'.toQuiet
  records j r hr := by
    obtain ⟨r', hr', hdirection', hfilename', hother'⟩ := h'.records j r hr
    obtain ⟨r'', hr'', hdirection, hfilename, hother⟩ := h.records j r' hr'
    exact ⟨r'', hr'', hdirection'.trans hdirection, hfilename'.trans hfilename,
      fun hj => (hother' hj).trans (hother hj)⟩
  kept j r hr := by
    obtain ⟨r', hr'⟩ := h.kept j r hr
    exact h'.kept j r' hr'
  active j a ha := by
    obtain ⟨a', ha', hupload', htemp'⟩ := h'.active j a ha
    obtain ⟨a'', ha'', hupload, htemp⟩ := h.active j a' ha'
    exact ⟨a'', ha'', hupload'.trans hupload, htemp'.trans htemp⟩

lemma Quiet.noted (h : s.Quiet t) (hrecords : t.records = s.records) (hactive : t.active = s.active) :
    Noted i s t where
  toQuiet := h
  records j r hr := ⟨r, by rwa [← hrecords], rfl, rfl, fun _ => rfl⟩
  kept j r hr := ⟨r, by rwa [hrecords]⟩
  active j a ha := ⟨a, by rwa [← hactive], rfl, rfl⟩

lemma Noted.refl (s : Site) : Noted i s s := (Alike.refl s).quiet.noted rfl rfl

lemma update_noted {f : StoredRecord → StoredRecord} (hf : Renews f) : Noted i s (s.update i f) where
  toQuiet := s.update_quiet i f
  records _ _ hr := update_records hf hr
  kept _ _ hr := update_kept hr
  active j a ha := ⟨a, by rwa [update_active] at ha, rfl, rfl⟩

lemma upload_noted (a : Active) (uploaded : Bool) : Noted i s (s.upload i a uploaded) := by
  rw [upload]
  split
  · refine update_noted fun r => ?_
    cases uploaded <;> exact ⟨rfl, rfl⟩
  · exact .refl s

lemma release_noted (a : Active) : Noted i s (s.release a) :=
  (s.release_quiet a).noted (s.release_records a) (s.release_active a)

lemma put_active_noted {a a' : Active} (h : s.active.find i = some a)
    (hupload : a'.connectorUpload = a.connectorUpload) (htemp : a'.connectorTemp = a.connectorTemp) :
    Noted i s { s with active := s.active.put i a' } where
  toQuiet := ⟨rfl, rfl, .refl _, fun e he => ⟨he, rfl⟩⟩
  records j r hr := ⟨r, hr, rfl, rfl, fun _ => rfl⟩
  kept j r hr := ⟨r, hr⟩
  active j b hb := by
    rw [Table.find_put] at hb
    split at hb
    · rename_i hj
      cases hb
      exact ⟨a, hj ▸ h, hupload, htemp⟩
    · exact ⟨b, hb, rfl, rfl⟩

lemma erase_active_noted : Noted i s { s with active := s.active.erase i } where
  toQuiet := ⟨rfl, rfl, .refl _, fun e he => ⟨he, rfl⟩⟩
  records j r hr := ⟨r, hr, rfl, rfl, fun _ => rfl⟩
  kept j r hr := ⟨r, hr⟩
  active j b hb := by
    rw [Table.find_erase] at hb
    split at hb
    · cases hb
    · exact ⟨b, hb, rfl, rfl⟩

lemma transferEvent_noted (s : Site) (i : String) (e : TransferEvent) (soon uploaded : Bool) :
    Noted i s (s.transferEvent i e soon uploaded) := by
  rw [transferEvent]
  split
  · exact .refl s
  · rename_i a ha
    cases e with
    | started transferId start =>
      refine (put_active_noted ha ?_ ?_).trans (update_noted fun r => ⟨?_, ?_⟩) <;> rfl
    | progress p =>
      dsimp only
      split
      · exact .refl s
      · refine (put_active_noted ha ?_ ?_).trans (update_noted fun r => ⟨?_, ?_⟩) <;> rfl
    | ended data diag =>
      refine .trans ?_ (release_noted a)
      refine erase_active_noted.trans ?_
      split
      · refine .trans (update_noted fun r => ⟨?_, ?_⟩) (upload_noted a uploaded) <;> rfl
      · refine update_noted fun r => ⟨?_, ?_⟩ <;> rfl
    | failed e =>
      refine .trans ?_ (release_noted a)
      refine erase_active_noted.trans (update_noted fun r => ⟨?_, ?_⟩) <;> rfl

lemma transferEvent_ignored (h : s.active.find i = none) (e : TransferEvent) (soon uploaded : Bool) :
    s.transferEvent i e soon uploaded = s := by
  rw [transferEvent, h]

end Events

/-- No connector is configured for a virtual file. -/
def Plain (c : Catalogue) (file : String) : Prop :=
  ∀ vf, c.virtualFile file = some vf → vf.staged = false

lemma admitSelect_virtualFile {c : Catalogue} {session : SessionInfo} {file : FileSpec}
    {partner : Partner} {vf : VirtualFile} (h : admitSelect c session file = .ok (partner, vf)) :
    c.virtualFile file.fileName = some vf := by
  simp only [admitSelect, bind, Except.bind] at h
  split at h
  · cases h
  · cases hvf : c.virtualFile file.fileName with
    | none => simp [hvf, refuse] at h
    | some w =>
      simp only [hvf, refuse] at h
      split at h
      · cases h
      · cases h
        rfl

lemma admitCreate_virtualFile {c : Catalogue} {session : SessionInfo} {file : FileSpec}
    {partner : Partner} {vf : VirtualFile} (h : admitCreate c session file = .ok (partner, vf)) :
    c.virtualFile file.fileName = some vf := by
  simp only [admitCreate, bind, Except.bind] at h
  split at h
  · cases h
  · cases hvf : c.virtualFile file.fileName with
    | none => simp [hvf, refuse] at h
    | some w =>
      simp only [hvf, refuse] at h
      split at h
      · cases h
      · split at h
        · cases h
        · cases h
          rfl

/-- What a request to read does before it gets a record: only for a connector it makes a staging file. -/
structure Prepared (file : String) (s t : Site) : Prop extends Quiet s t where
  records : t.records = s.records
  active : t.active = s.active
  plain : Plain s.catalogue file → t.disk = s.disk ∧ t.received = s.received

lemma Prepared.alike {file : String} {s t u : Site} (h : Prepared file s t) (h' : t.Alike u) :
    Prepared file s u where
  toQuiet := h.toQuiet.trans h'.quiet
  records := h'.records.trans h.records
  active := h'.active.trans h.active
  plain hplain := by
    obtain ⟨hdisk, hreceived⟩ := h.plain hplain
    exact ⟨h'.disk.trans hdisk, h'.received.trans hreceived⟩

lemma Prepared.refl (file : String) (s : Site) : Prepared file s s where
  toQuiet := (Alike.refl s).quiet
  records := rfl
  active := rfl
  plain _ := ⟨rfl, rfl⟩

lemma Prepared.stage {file : String} {s t : Site} (h : Prepared file s t) {vf : VirtualFile}
    (hvf : s.catalogue.virtualFile file = some vf) (p : FilePath) (c : Bytes) :
    Prepared file s (if vf.staged then t.onDisk (t.disk.link p c) else t) := by
  cases hstaged : vf.staged with
  | false => exact h
  | true =>
    simp only [if_true]
    refine ⟨h.toQuiet.trans (onDisk_quiet (t.disk.keeps_link p c)), h.records, h.active,
      fun hplain => ?_⟩
    rw [hplain vf hvf] at hstaged
    cases hstaged

lemma Prepared.clear {file : String} {s t : Site} (h : Prepared file s t) (b : Bool) (i k : String) :
    Prepared file s (if b then t else t.clearCheckpoints i k) := by
  cases b with
  | false => exact h.alike (t.clearCheckpoints_alike i k)
  | true => exact h

lemma select_cases (s : Site) (l : Listener) (session : SessionInfo) (file : FileSpec)
    (o : Circumstances) :
    ∃ t, Prepared file.fileName s t ∧
      ((s.select l session file o).1 = t ∨
        ∃ r temp, r.direction = .send ∧ r.filename = file.fileName ∧
        (Plain s.catalogue file.fileName → temp = none) ∧
          (s.select l session file o).1 =
            { t with
              records := t.records.put o.recordId r
              active := t.active.put o.recordId ⟨0, 0, none, temp⟩ }) := by
  rw [select]
  split
  · exact ⟨s, .refl _ s, .inl rfl⟩
  · rename_i partner vf hadmitted
    have hvf := admitSelect_virtualFile hadmitted
    have htid := (Prepared.refl file.fileName s).alike (s.pesitTransferId_alike file.transferId.toNat)
    have hstage := htid.stage hvf o.staging o.fetched
    dsimp only
    cases o.openFailure with
    | some r => exact ⟨_, hstage, .inl rfl⟩
    | none =>
      have hready := hstage.clear file.restarted l.serverId
        (restartKey session file (s.pesitTransferId file.transferId.toNat).1)
      cases o.storeFailure with
      | some r => exact ⟨_, hready, .inl rfl⟩
      | none =>
        refine ⟨_, hready,
          .inr ⟨newRecord l .send partner.id file (s.pesitTransferId file.transferId.toNat).1
          (some (sendPath l vf o.staging)) o.recordId,
          if vf.staged then some (sendPath l vf o.staging) else none, rfl, rfl, fun hplain => ?_, rfl⟩⟩
        rw [hplain vf hvf]
        rfl

def sampleListener : Listener := ⟨"S", "in", "out"⟩

def sampleVirtualFile : VirtualFile where
  id := "F"
  enabled := true
  direction := .both
  receiveDirectory := none
  sendFile := some "out/report"
  receiveFilenamePattern := "$\x7bvirtualFile\x7d_$\x7btimestamp\x7d"
  overwrite := false
  maxFileSize := 0
  recordLength := 0
  connector := none

def sampleCatalogue : Catalogue where
  partner id := if id = "P" then some ⟨"P", .both, none⟩ else none
  virtualFile id := if id = "F" then some sampleVirtualFile else none

def sampleSession : SessionInfo := ⟨"1", "P", "S", "peer", ⟨.e, ⟨256, 16⟩, true, true⟩⟩

def sampleCircumstances (second recordId : String) : Circumstances where
  clock := ⟨"202501011200" ++ second, "20250101", "1200" ++ second⟩
  recordId := recordId
  staging := FilePath.ofString ("staging/" ++ recordId)
  fetched := []
  remote := FilePath.ofString "connector:F"
  openFailure := none
  storeFailure := none

def sampleWrite (second recordId : String) : Move :=
  .create sampleListener sampleSession sampleFile (sampleCircumstances second recordId)

def sampleInterruption (recordId : String) : List Move :=
  [.event recordId (.started 7 ⟨0, 0, 0, 0⟩) false false,
    .event recordId (.progress ⟨100, 1, 1⟩) false false,
    .event recordId (.failed (.transport .closed)) false false]

def restartedFile : FileSpec := { sampleFile with restarted := true }

def sampleSite : Site := initial sampleCatalogue (.blank [])

end Site

end PesitWizard.Node
