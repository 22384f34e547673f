import PesitWizard.Node.Reception

/-! Where the files of requests to write go, in any history of transfers. -/

namespace PesitWizard.Node.Site

open App PesitWizard.Core Io Library

/-- A path is in place for a request to write if it is computed for the request, or if it is the one that
a transfer in the same direction had, with the same listener, partner, file and number. -/
def InPlace (s : Site) (l : Listener) (session : SessionInfo) (file : FileSpec) (clock : Clock)
    (partner : Partner) (vf : VirtualFile) (path : FilePath) : Prop :=
  let tid := (s.pesitTransferId file.transferId.toNat).1
  path = receivePath l vf session file tid clock ∨
    ∃ r ∈ s.records.docs, r.direction = .receive ∧ r.serverId = l.serverId ∧ r.partnerId = partner.id ∧
      r.filename = file.fileName ∧ r.pesitTransferId = tid ∧ r.localPath = some path

/-- The record that the request goes on from is not one of a request to read. -/
def ResumesReceive (s : Site) (l : Listener) (file : FileSpec) (partner : Partner) : Prop :=
  ∀ r, s.previous l partner file (s.pesitTransferId file.transferId.toNat).1 = some r →
    r.direction ≠ .send

structure Told (s : Site) : Prop where
  known : ∀ i a, s.active.find i = some a → ∃ r, s.records.find i = some r
  messages : ∀ i r, s.records.find i = some r → r.direction = .message → r.status = .completed ∧
    s.active.find i = none

section Steps

variable {s t : Site}

lemma Told.congr (h : s.Told) (hrecords : t.records = s.records) (hactive : t.active = s.active) :
    t.Told := by
  refine ⟨?_, ?_⟩
  · rw [hrecords, hactive]
    exact h.known
  · rw [hrecords, hactive]
    exact h.messages

lemma Told.register (h : s.Told) {k : String} {r : StoredRecord} {a : Active}
    (hr : r.direction ≠ .message) (hrecords : t.records = s.records.put k r)
    (hactive : t.active = s.active.put k a) : t.Told := by
  refine ⟨fun i b hb => ?_, fun i r' hi hmessage => ?_⟩
  · rw [hactive] at hb
    rw [hrecords, Table.find_put]
    rcases Table.find_put_some hb with ⟨hik, -⟩ | ⟨hik, hb⟩
    · exact ⟨r, by rw [if_pos hik]⟩
    · rw [if_neg hik]
      exact h.known i b hb
  · rw [hrecords] at hi
    rw [hactive, Table.find_put]
    rcases Table.find_put_some hi with ⟨-, rfl⟩ | ⟨hik, hi⟩
    · exact absurd hmessage hr
    · rw [if_neg hik]
      exact h.messages i r' hi hmessage

lemma Told.not_active (h : s.Told) {i : String} (hnew : i ∉ s.records.keys) :
    s.active.find i = none := by
  cases hfind : s.active.find i with
  | none => rfl
  | some a => exact absurd (Table.mem_keys.mpr (h.known i a hfind)) hnew

lemma Told.message (h : s.Told) (l : Listener) (session : SessionInfo) (file : FileSpec)
    {recordId : String} (hnew : recordId ∉ s.records.keys) :
    (s.message l session file recordId).Told := by
  have hfree := h.not_active hnew
  refine ⟨fun i a ha => ?_, fun i r hi hmessage => ?_⟩
  · simp only [Site.message, Table.find_put]
    split
    · exact ⟨_, rfl⟩
    · exact h.known i a ha
  · simp only [Site.message, Table.find_put] at hi
    split at hi
    · rename_i hik
      cases hi
      exact ⟨rfl, hik ▸ hfree⟩
    · exact h.messages i r hi hmessage

lemma Told.event (h : s.Told) (i : String) (e : TransferEvent) (soon uploaded : Bool) :
    (s.transferEvent i e soon uploaded).Told := by
  cases hfind : s.active.find i with
  | none =>
    rw [transferEvent_ignored hfind]
    exact h
  | some a₀ =>
    have hnoted := s.transferEvent_noted i e soon uploaded
    refine ⟨fun j a ha => ?_, fun j r hr hmessage => ?_⟩
    · obtain ⟨a', ha', -⟩ := hnoted.active j a ha
      obtain ⟨r, hr⟩ := h.known j a' ha'
      exact hnoted.kept j r hr
    · obtain ⟨r', hr', hdirection, -, hother⟩ := hnoted.records j r hr
      obtain ⟨hstatus, hactive⟩ := h.messages j r' hr' (hdirection ▸ hmessage)
      have hj : j ≠ i := by
        rintro rfl
        rw [hfind] at hactive
        cases hactive
      refine ⟨by rw [hother hj, hstatus], ?_⟩
      cases hfind' : (s.transferEvent i e soon uploaded).active.find j with
      | none => rfl
      | some a =>
        obtain ⟨a', ha', -⟩ := hnoted.active j a hfind'
        rw [hactive] at ha'
        cases ha'

lemma Told.move (h : s.Told) {m : Move} (hm : s.move m = some t) : t.Told := by
  cases m with
  | create l session file o =>
    simp only [Site.move] at hm
    split at hm
    · cases hm
      obtain ⟨u, r, hcreate, halike⟩ | ⟨u, p, halike, -, ⟨r, hcreate⟩ | hcreate⟩ :=
        create_cases s l session file o <;> rw [hcreate]
      · exact h.congr halike.records halike.active
      · exact h.congr halike.records halike.active
      · exact h.register (by simp [Plan.record, newRecord]) rfl rfl
    · cases hm
  | select l session file o =>
    simp only [Site.move] at hm
    split at hm
    · cases hm
      obtain ⟨u, hu, hselect | ⟨r, temp, hdirection, -, -, hselect⟩⟩ :=
        select_cases s l session file o <;> rw [hselect]
      · exact h.congr hu.records hu.active
      · exact (h.congr hu.records hu.active).register (by simp [hdirection]) rfl rfl
    · cases hm
  | message l session file recordId =>
    simp only [Site.move] at hm
    split at hm
    · cases hm
    · cases hm
      exact h.message l session file (by assumption)
  | event recordId e soon uploaded =>
    cases hm
    exact h.event recordId e soon uploaded
  | write recordId content =>
    obtain ⟨r, -, rfl⟩ := Option.map_eq_some_iff.mp hm
    exact h.congr rfl rfl
  | finish recordId =>
    obtain ⟨r, -, hm⟩ := Option.bind_eq_some_iff.mp hm
    obtain ⟨disk, -, hm⟩ := Option.bind_eq_some_iff.mp hm
    cases hm
    exact h.congr rfl rfl
  | _ =>
    cases hm
    exact h.congr rfl rfl

lemma initial_told (c : Catalogue) (disk : FileSystem) : (initial c disk).Told where
  known i a ha := by cases ha
  messages i r hr := by cases hr

lemma interruptedRecord_spec {l : Listener} {records : List StoredRecord}
    {partner file : String} {tid : ℕ} {r : StoredRecord}
    (h : interruptedRecord l records partner file tid = some r) :
    r ∈ records ∧ r.status = .interrupted ∧ r.pesitTransferId = tid ∧ r.partnerId = partner ∧
    r.filename = file ∧
      r.serverId = l.serverId := by
  have hmem := List.mem_of_find?_eq_some h
  have hr := List.find?_some h
  simp only [Bool.and_eq_true, decide_eq_true_eq, beq_iff_eq] at hr
  obtain ⟨⟨⟨⟨hstatus, htid⟩, hpartner⟩, hfile⟩, hserver⟩ := hr
  exact ⟨List.mem_reverse.mp hmem, hstatus, htid, hpartner, hfile, hserver⟩

lemma Told.receive (h : s.Told) {r : StoredRecord} (hr : r ∈ s.records.docs)
    (hstatus : r.status = .interrupted) (hsend : r.direction ≠ .send) : r.direction = .receive := by
  cases hdirection : r.direction with
  | receive => rfl
  | send => exact absurd hdirection hsend
  | message =>
    obtain ⟨i, hi⟩ := Table.mem_docs.mp hr
    rw [(h.messages i r hi hdirection).1] at hstatus
    cases hstatus

lemma Told.target_inPlace (h : s.Told) {l : Listener} {session : SessionInfo} {file : FileSpec}
    {partner : Partner} {vf : VirtualFile} {clock : Clock} (hok : s.ResumesReceive l file partner) :
    s.InPlace l session file clock partner vf (s.target l session file partner vf clock) := by
  rw [target]
  cases hprev : s.previous l partner file (s.pesitTransferId file.transferId.toNat).1 with
  | none => exact .inl (by rw [Option.bind_none, Option.getD_none])
  | some r =>
    have hsend := hok r hprev
    cases hpath : r.localPath with
    | none => exact .inl (by rw [Option.bind_some, hpath, Option.getD_none])
    | some path =>
      rw [previous] at hprev
      split at hprev
      · obtain ⟨hmem, hstatus, htid, hpartner, hfile, hserver⟩ := interruptedRecord_spec hprev
        refine .inr ⟨r, hmem, h.receive hmem hstatus hsend, hserver, hpartner, hfile, htid, ?_⟩
        rw [Option.bind_some, hpath, Option.getD_some]
      · cases hprev

end Steps

/-- After any history, a request to write that is accepted and needs no connector has a path in place, if
it does not go on from the record of a request to read. -/
theorem create_in_place {c : Catalogue} {disk : FileSystem} {s : Site}
    (h : Moves Site.move (fun _ _ => True) (initial c disk) s) {l : Listener} {session : SessionInfo}
    {file : FileSpec} {o : Circumstances} {partner : Partner} {vf : VirtualFile} {a : Receiving}
    (hadmitted : admitCreate s.catalogue session file = .ok (partner, vf)) (hplain : vf.staged = false)
    (hcreate : (s.create l session file o).2 = .ok a) (hok : s.ResumesReceive l file partner) :
    s.InPlace l session file o.clock partner vf a.path := by
  have htold : s.Told := h.invariant (fun _ _ _ hs _ hm => hs.move hm) (initial_told c disk)
  obtain ⟨u, r, heq, -⟩ | ⟨u, p, -, hplan, ⟨r, heq⟩ | heq⟩ :=
    create_cases s l session file o <;> rw [heq] at hcreate
  · cases hcreate
  · cases hcreate
  · cases hcreate
    have hplan := plan_planned hplan
    have hp := hplan.admitted
    rw [hadmitted, Except.ok.injEq, Prod.mk.injEq] at hp
    rw [hplan.path, ← hp.2, hplain, ← hp.1]
    exact htold.target_inPlace hok

def halfReceived : Site :=
  (sampleWrite "00" "1" :: (sampleInterruption "1" ++ [Move.close "1"])).foldl
    (after Site.move) sampleSite

lemma ResumesReceive.of_docs {s : Site} (h : ∀ r ∈ s.records.docs, r.direction ≠ .send) (l : Listener)
    (file : FileSpec) (partner : Partner) : s.ResumesReceive l file partner := by
  intro r hr
  rw [previous] at hr
  split at hr
  · exact h r (interruptedRecord_spec hr).1
  · cases hr

theorem create_in_place_restarted :
    halfReceived.InPlace sampleListener sampleSession restartedFile (sampleCircumstances "30" "2").clock
      ⟨"P", .both, none⟩ sampleVirtualFile (FilePath.ofString "in/F_20250101120000") := by
  have hrun : Moves Site.move (fun _ _ => True) (initial sampleCatalogue (.blank [])) halfReceived :=
    moves_foldl _ sampleSite
  have hadmitted : admitCreate halfReceived.catalogue sampleSession restartedFile =
      .ok (⟨"P", .both, none⟩, sampleVirtualFile) := toOption_some (by decide +kernel)
  have hcreate :
      (halfReceived.create sampleListener sampleSession restartedFile (sampleCircumstances "30" "2")).2 =
      .ok ⟨"F", FilePath.ofString "in/F_20250101120000", 0⟩ := toOption_some (by decide +kernel)
  exact create_in_place hrun hadmitted rfl hcreate (.of_docs (by decide +kernel) _ _ _)

def readableSite : Site :=
  initial sampleCatalogue ((Disk.blank []).link (FilePath.ofString "out/report") [1, 2, 3])

def halfRead : Site :=
  (Move.select sampleListener sampleSession sampleFile (sampleCircumstances "00" "1") ::
    sampleInterruption "1").foldl (after Site.move) readableSite

/-- The partner's next request to write then goes to the file that it was reading. -/
theorem create_out_of_place :
    ¬ ∀ c disk s, Moves Site.move (fun _ _ => True) (initial c disk) s → ∀ l session file o partner vf a,
      admitCreate s.catalogue session file = .ok (partner, vf) → vf.staged = false →
      (s.create l session file o).2 = .ok a → s.InPlace l session file o.clock partner vf a.path := by
  intro h
  have hadmitted : admitCreate halfRead.catalogue sampleSession restartedFile =
      .ok (⟨"P", .both, none⟩, sampleVirtualFile) := toOption_some (by decide +kernel)
  have hcreate :
      (halfRead.create sampleListener sampleSession restartedFile (sampleCircumstances "30" "2")).2 =
      .ok ⟨"F", FilePath.ofString "out/report", 1⟩ := toOption_some (by decide +kernel)
  rcases h _ _ halfRead (moves_foldl _ readableSite) _ _ _ _ _ _ _ hadmitted rfl
    hcreate with hpath | ⟨r, hr, hreceive, -⟩
  · exact absurd hpath (by decide +kernel)
  · have hsend : ∀ r ∈ halfRead.records.docs, r.direction = .send := by decide +kernel
    rw [hsend r hr] at hreceive
    cases hreceive

end PesitWizard.Node.Site
