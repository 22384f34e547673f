import PesitWizard.Node.Destination

/-! Files that were received for a virtual file that must not be overwritten. -/

namespace PesitWizard.Node.Site

open App PesitWizard.Core Io Library

/-- A virtual file that must not be overwritten and has no connector. -/
def Protects (c : Catalogue) (v : String) : Prop :=
  ∀ vf, c.virtualFile v = some vf → vf.overwrite = false ∧ vf.staged = false

/-- The configuration goes on to protect the virtual file. -/
def Steady (v : String) (_ : Site) : Move → Prop
  | .configure c => Protects c v
  | _ => True

/-- A path is not in the way of the transfers that are received: no transfer of the virtual file and
another one share their path, and if the path is one for the virtual file, neither it nor its temporary
file takes a name that is in use by another transfer of the virtual file or by a file that was received
for it. A new path that is there is refused by the site itself. -/
structure Clear (cwd : List String) (v : String) (s : Site) (file : String) (path : FilePath)
    (restarted : Bool) :
    Prop where
  paths : ∀ i r, s.receiving.find i = some r → r.file = v ∨ file = v →
    r.path.locate cwd ≠ path.locate cwd
  parts : file = v → ∀ i r, s.receiving.find i = some r → r.file = v →
    r.path.locate cwd ≠ (partPath path).locate cwd ∧ path.locate cwd ≠ (partPath r.path).locate cwd
  part : file = v → ∀ p, (v, p) ∈ s.received → p.locate cwd ≠ (partPath path).locate cwd
  restart : file = v → restarted = true → ∀ p, (v, p) ∈ s.received → p.locate cwd ≠ path.locate cwd

/-- The same of the paths as they are written. -/
structure Fits (v : String) (s : Site) (file : String) (path : FilePath) (restarted : Bool) : Prop where
  paths : ∀ i r, s.receiving.find i = some r → r.file = v ∨ file = v → r.path ≠ path
  parts : file = v → ∀ i r, s.receiving.find i = some r → r.file = v → r.path ≠ partPath path ∧
    path ≠ partPath r.path
  part : file = v → (v, partPath path) ∉ s.received
  restart : file = v → restarted = true → (v, path) ∉ s.received

lemma Clear.fits {cwd : List String} {v file : String} {s : Site} {path : FilePath} {restarted : Bool}
    (h : Clear cwd v s file path restarted) : Fits v s file path restarted where
  paths i r hi hv := ne_of_apply_ne _ (h.paths i r hi hv)
  parts hv i r hi hr := by
    obtain ⟨hpath, hpart⟩ := h.parts hv i r hi hr
    exact ⟨ne_of_apply_ne _ hpath, ne_of_apply_ne _ hpart⟩
  part hv hmem := h.part hv _ hmem rfl
  restart hv hrestarted hmem := h.restart hv hrestarted _ hmem rfl

/-- The configuration protects the virtual file, and requests that get as far as
their files are clear. -/
def Spares (cwd : List String) (v : String) (s : Site) : Move → Prop
  | .configure c => Protects c v
  | .create l session file o => ∀ p, (s.plan l session file o).2 = .ok p → p.vf.staged = false →
      Clear cwd v s file.fileName (s.target l session file p.partner p.vf o.clock) p.previous.isSome
  | _ => True

structure Guarded (v : String) (s : Site) : Prop where
  protects : Protects s.catalogue v
  bound : ∀ i r, s.receiving.find i = some r → r.file = v → r.temporary < s.disk.next
  name : ∀ i r q, s.receiving.find i = some r → r.file = v → s.disk.names q = some r.temporary →
    q = partPath r.path
  paths : ∀ i j r r', s.receiving.find i = some r → s.receiving.find j = some r' → i ≠ j →
    r.file = v → r.path ≠ r'.path
  parts : ∀ i j r r', s.receiving.find i = some r → s.receiving.find j = some r' → i ≠ j →
    r.file = v → r'.file = v →
    r.path ≠ partPath r'.path
  free : ∀ i r, s.receiving.find i = some r → r.file = v → (v, r.path) ∉ s.received ∧
    (v, partPath r.path) ∉ s.received
  present : ∀ p, (v, p) ∈ s.received → s.disk.isFile p = true

def Unstaged (v : String) (s : Site) : Prop :=
  ∀ i a r, s.active.find i = some a → s.records.find i = some r → r.filename = v →
    a.connectorUpload = none ∧ a.connectorTemp = none

section Steps

variable {cwd : List String} {v : String} {s t : Site}

lemma isFile_of_read {d d' : FileSystem} {p : FilePath} (h : d'.read p = d.read p)
    (hp : d.isFile p = true) :
    d'.isFile p = true := by
  rw [← Disk.isSome_read] at hp ⊢
  rw [h, hp]

lemma Guarded.shrink (h : Guarded v s) (hprotects : Protects t.catalogue v) (hdisk : s.disk.Keeps t.disk)
    (hreceiving : ∀ i r, t.receiving.find i = some r → s.receiving.find i = some r)
    (hreceived : ∀ e ∈ t.received, e ∈ s.received ∧ t.disk.read e.2 = s.disk.read e.2) :
    Guarded v t where
  protects := hprotects
  bound i r hi hv := lt_of_lt_of_le (h.bound i r (hreceiving i r hi) hv) hdisk.grows
  name i r q hi hv hq := by
    have hi := hreceiving i r hi
    exact h.name i r q hi hv (hdisk.names _ q (h.bound i r hi hv) hq)
  paths i j r r' hi hj := h.paths i j r r' (hreceiving i r hi) (hreceiving j r' hj)
  parts i j r r' hi hj := h.parts i j r r' (hreceiving i r hi) (hreceiving j r' hj)
  free i r hi hv := by
    obtain ⟨hpath, hpart⟩ := h.free i r (hreceiving i r hi) hv
    exact ⟨fun he => hpath (hreceived _ he).1, fun he => hpart (hreceived _ he).1⟩
  present p hp := by
    obtain ⟨hmem, hread⟩ := hreceived _ hp
    exact isFile_of_read hread (h.present p hmem)

lemma Guarded.quiet (h : Guarded v s) (hq : s.Quiet t) : Guarded v t := by
  refine h.shrink ?_ hq.disk (fun i r hi => ?_) hq.received
  · rw [hq.catalogue]
    exact h.protects
  · rwa [hq.receiving] at hi

lemma Guarded.erase (h : Guarded v s) (k : String) :
    Guarded v { s with receiving := s.receiving.erase k } :=
  h.shrink h.protects (.refl _) (fun _ _ hi => (Table.find_erase_some hi).2) fun _ he => ⟨he, rfl⟩

lemma Guarded.open (h : Guarded v s) {path : FilePath} {p : Option Position} {k file : String} {b : Bool}
    (hclear : Fits v s file path b) (hfree : file = v → (v, path) ∉ s.received)
    (hcatalogue : t.catalogue = s.catalogue) (hdisk : t.disk = (FileSink.create s.disk path p).1)
    (hreceiving : t.receiving = s.receiving.put k ⟨file, path, (FileSink.create s.disk path p).2⟩)
    (hreceived : ∀ e ∈ t.received, e ∈ s.received ∧ t.disk.read e.2 = s.disk.read e.2) :
    Guarded v t := by
  have hkeeps := FileSink.create_keeps s.disk path p
  have hnames := FileSink.create_names s.disk path p
  rw [← hdisk] at hkeeps hnames
  generalize (FileSink.create s.disk path p).2 = temporary at hreceiving hnames
  have hfind : ∀ i r, t.receiving.find i = some r →
      i = k ∧ r = ⟨file, path, temporary⟩ ∨ i ≠ k ∧ s.receiving.find i = some r := by
    intro i r hi
    rw [hreceiving] at hi
    exact Table.find_put_some hi
  refine ⟨?_, ?_, ?_, ?_, ?_, ?_, ?_⟩
  · rw [hcatalogue]
    exact h.protects
  · intro i r hi hv
    rcases hfind i r hi with ⟨rfl, rfl⟩ | ⟨-, hi⟩
    · exact t.disk.bound _ _ hnames
    · exact lt_of_lt_of_le (h.bound i r hi hv) hkeeps.grows
  · intro i r q hi hv hq
    rcases hfind i r hi with ⟨rfl, rfl⟩ | ⟨-, hi⟩
    · exact t.disk.single _ _ _ hq hnames
    · exact h.name i r q hi hv (hkeeps.names _ q (h.bound i r hi hv) hq)
  · intro i j r r' hi hj hne hv
    rcases hfind i r hi with ⟨rfl, rfl⟩ | ⟨-, hi⟩ <;> rcases hfind j r' hj with ⟨rfl, rfl⟩ | ⟨-, hj⟩
    · exact absurd rfl hne
    · exact (hclear.paths j r' hj (.inr hv)).symm
    · exact hclear.paths i r hi (.inl hv)
    · exact h.paths i j r r' hi hj hne hv
  · intro i j r r' hi hj hne hv hv'
    rcases hfind i r hi with ⟨rfl, rfl⟩ | ⟨-, hi⟩ <;> rcases hfind j r' hj with ⟨rfl, rfl⟩ | ⟨-, hj⟩
    · exact absurd rfl hne
    · exact (hclear.parts hv j r' hj hv').2
    · exact (hclear.parts hv' i r hi hv).1
    · exact h.parts i j r r' hi hj hne hv hv'
  · intro i r hi hv
    rcases hfind i r hi with ⟨rfl, rfl⟩ | ⟨-, hi⟩
    · exact ⟨fun he => hfree hv (hreceived _ he).1, fun he => hclear.part hv (hreceived _ he).1⟩
    · obtain ⟨hpath, hpart⟩ := h.free i r hi hv
      exact ⟨fun he => hpath (hreceived _ he).1, fun he => hpart (hreceived _ he).1⟩
  · intro q hq
    obtain ⟨hmem, hread⟩ := hreceived _ hq
    exact isFile_of_read hread (h.present q hmem)

lemma Guarded.finish (h : Guarded v s) {i : String} {r : Receiving} {disk : FileSystem}
    (hi : s.receiving.find i = some r) (hdisk : FileSink.finish s.disk r.path = some disk) :
    Guarded v { s.onDisk disk with
      receiving := s.receiving.erase i
      received := (s.onDisk disk).received ++ [(r.file, r.path)] } := by
  obtain ⟨hfile, hnames, -, hnext⟩ := Disk.rename_eq_some hdisk
  refine ⟨h.protects, fun j r' hj hv => ?_, fun j r' q hj hv hq => ?_, ?_, ?_, fun j r' hj hv =>
    ?_, fun p hp => ?_⟩
  · change r'.temporary < disk.next
    rw [hnext]
    exact h.bound j r' (Table.find_erase_some hj).2 hv
  · obtain ⟨hne, hj⟩ := Table.find_erase_some hj
    change disk.names q = _ at hq
    rw [hnames] at hq
    rcases Disk.names_of_renamed hq with ⟨-, hq⟩ | ⟨-, -, hq⟩
    · have hpart := h.name j r' _ hj hv hq
      exact absurd (partPath_injective hpart).symm (h.paths j i r' r hj hi hne hv)
    · exact h.name j r' q hj hv hq
  · intro j k r' r'' hj hk
    exact h.paths j k r' r'' (Table.find_erase_some hj).2 (Table.find_erase_some hk).2
  · intro j k r' r'' hj hk
    exact h.parts j k r' r'' (Table.find_erase_some hj).2 (Table.find_erase_some hk).2
  · obtain ⟨hne, hj⟩ := Table.find_erase_some hj
    obtain ⟨hpath, hpart⟩ := h.free j r' hj hv
    simp only [List.mem_append, List.mem_singleton, mem_onDisk_received, Prod.mk.injEq, not_or, not_and]
    refine ⟨⟨fun hmem => absurd hmem hpath, fun _ => h.paths j i r' r hj hi hne hv⟩,
      fun hmem => absurd hmem hpart, fun hrv => (h.parts i j r r' hi hj (Ne.symm hne) hrv.symm hv).symm⟩
  · rcases List.mem_append.mp hp with hp | hp
    · obtain ⟨hmem, hread⟩ := mem_onDisk_received.mp hp
      exact isFile_of_read hread (h.present p hmem)
    · obtain ⟨-, rfl⟩ := Prod.mk.inj (List.mem_singleton.mp hp)
      change disk.isFile r.path = true
      rw [← Disk.isSome_read, Disk.read_rename_self hdisk, Disk.isSome_read]
      exact hfile

lemma Guarded.planned (h : Guarded v s) {l : Listener} {session : SessionInfo} {file : FileSpec}
    {o : Circumstances} {p : Plan} (hnew : s.New o) (hok : Spares cwd v s (.create l session file o))
    (hp : (s.plan l session file o).2 = .ok p) :
    Fits v s file.fileName p.path p.previous.isSome ∧
    (file.fileName = v → (v, p.path) ∉ s.received) := by
  have hplan := plan_planned hp
  have hvf := admitCreate_virtualFile hplan.admitted
  have hplain : file.fileName = v → p.vf.overwrite = false ∧ p.vf.staged = false := by
    rintro rfl
    exact h.protects p.vf hvf
  cases hstaged : p.vf.staged with
  | true =>
    have hv : file.fileName ≠ v := by
      intro hv
      rw [(hplain hv).2] at hstaged
      cases hstaged
    refine ⟨⟨fun i r hi _ => ?_, fun hf => absurd hf hv, fun hf => absurd hf hv, fun hf => absurd hf hv⟩,
      fun hf => absurd hf hv⟩
    rw [hplan.path, hstaged]
    exact hnew.2.2.2 r (Table.mem_docs.mpr ⟨i, hi⟩)
  | false =>
    have hpath : p.path = s.target l session file p.partner p.vf o.clock := by
      rw [hplan.path, hstaged]
      rfl
    have hclear := (hok p hp hstaged).fits
    rw [← hpath] at hclear
    refine ⟨hclear, fun hv hmem => ?_⟩
    cases hprev : p.previous with
    | some r => exact hclear.restart hv (by rw [hprev]; rfl) hmem
    | none =>
      have hunused := hplan.unused hstaged hprev (hplain hv).1
      rw [h.present _ hmem] at hunused
      cases hunused

lemma Guarded.create (h : Guarded v s) {l : Listener} {session : SessionInfo} {file : FileSpec}
    {o : Circumstances} (hnew : s.New o) (hok : Spares cwd v s (.create l session file o)) :
    Guarded v (s.create l session file o).1 := by
  rcases create_cases s l session file o with ⟨t, r, hcreate, halike⟩ | ⟨t, p, halike, hplan,
    ⟨r, hcreate⟩ | hcreate⟩
  · rw [hcreate]
    exact h.quiet halike.quiet
  · rw [hcreate]
    refine h.quiet (halike.quiet.trans (onDisk_quiet ?_))
    rw [halike.disk]
    exact FileSink.create_keeps _ _ _
  · rw [hcreate]
    obtain ⟨hclear, hfree⟩ := h.planned hnew hok hplan
    refine h.open hclear hfree halike.catalogue rfl rfl fun e he => ?_
    obtain ⟨hmem, hread⟩ := mem_onDisk_received.mp he
    rw [halike.received] at hmem
    rw [halike.disk] at hread
    exact ⟨hmem, hread⟩

lemma Guarded.move (h : Guarded v s) {m : Move} (hok : Spares cwd v s m) (hm : s.move m = some t) :
    Guarded v t := by
  cases m with
  | configure c =>
    cases hm
    exact h.shrink hok (.refl _) (fun _ _ hi => hi) fun _ he => ⟨he, rfl⟩
  | create l session file o =>
    simp only [Site.move] at hm
    split at hm
    · cases hm
      exact h.create (by assumption) hok
    · cases hm
  | select l session file o =>
    simp only [Site.move] at hm
    split at hm
    · cases hm
      obtain ⟨u, hu, hselect | ⟨r, temp, -, -, -, hselect⟩⟩ :=
        select_cases s l session file o <;> rw [hselect]
      · exact h.quiet hu.toQuiet
      · exact h.quiet ⟨hu.catalogue, hu.receiving, hu.disk, hu.received⟩
    · cases hm
  | message l session file recordId =>
    simp only [Site.move] at hm
    split at hm
    · cases hm
    · cases hm
      exact h.quiet ⟨rfl, rfl, .refl _, fun _ he => ⟨he, rfl⟩⟩
  | event recordId e soon uploaded =>
    cases hm
    exact h.quiet (s.transferEvent_noted recordId e soon uploaded).toQuiet
  | checkpoint serverId key store =>
    cases hm
    exact h.quiet ⟨rfl, rfl, .refl _, fun _ he => ⟨he, rfl⟩⟩
  | write recordId content =>
    obtain ⟨r, -, rfl⟩ := Option.map_eq_some_iff.mp hm
    exact h.quiet (onDisk_quiet (s.disk.keeps_write _ _))
  | finish recordId =>
    obtain ⟨r, hr, hm⟩ := Option.bind_eq_some_iff.mp hm
    obtain ⟨disk, hdisk, hm⟩ := Option.bind_eq_some_iff.mp hm
    cases hm
    exact h.finish hr hdisk
  | close recordId =>
    cases hm
    exact h.erase recordId
  | outside path content =>
    cases hm
    cases content with
    | none => exact h.quiet (onDisk_quiet (s.disk.keeps_remove path))
    | some c => exact h.quiet (onDisk_quiet (s.disk.keeps_link path c))

lemma Unstaged.congr (h : Unstaged v s) (hrecords : t.records = s.records)
    (hactive : t.active = s.active) :
    Unstaged v t := by
  intro i a r ha hr
  rw [hactive] at ha
  rw [hrecords] at hr
  exact h i a r ha hr

lemma Unstaged.register (h : Unstaged v s) {k : String} {r : StoredRecord} {a : Active}
    (hnew : r.filename = v → a.connectorUpload = none ∧ a.connectorTemp = none)
    (hrecords : t.records = s.records.put k r) (hactive : t.active = s.active.put k a) :
    Unstaged v t := by
  intro i b r' hb hr' hv
  rw [hactive] at hb
  rw [hrecords] at hr'
  rcases Table.find_put_some hb with ⟨rfl, rfl⟩ | ⟨hne, hb⟩
  · rcases Table.find_put_some hr' with ⟨-, rfl⟩ | ⟨hne, -⟩
    · exact hnew hv
    · exact absurd rfl hne
  · rcases Table.find_put_some hr' with ⟨heq, -⟩ | ⟨-, hr'⟩
    · exact absurd heq hne
    · exact h i b r' hb hr' hv

lemma Unstaged.move (h : Unstaged v s) (htold : s.Told) (hprotects : Protects s.catalogue v) {m : Move}
    (hm : s.move m = some t) :
    Unstaged v t := by
  cases m with
  | create l session file o =>
    simp only [Site.move] at hm
    split at hm
    · cases hm
      obtain ⟨u, r, hcreate, halike⟩ | ⟨u, p, halike, hplan, ⟨r, hcreate⟩ | hcreate⟩ :=
        create_cases s l session file o <;> rw [hcreate]
      · exact h.congr halike.records halike.active
      · exact h.congr halike.records halike.active
      · refine h.register (fun hv => ?_) rfl rfl
        have hv : file.fileName = v := hv
        have hvf := admitCreate_virtualFile (plan_planned hplan).admitted
        rw [hv] at hvf
        rw [(hprotects p.vf hvf).2]
        exact ⟨rfl, rfl⟩
    · cases hm
  | select l session file o =>
    simp only [Site.move] at hm
    split at hm
    · cases hm
      obtain ⟨u, hu, hselect | ⟨r, temp, -, hfile, htemp, hselect⟩⟩ :=
        select_cases s l session file o <;> rw [hselect]
      · exact h.congr hu.records hu.active
      · refine (h.congr hu.records hu.active).register (fun hv => ⟨rfl, htemp fun vf hvf => ?_⟩) rfl rfl
        rw [← hfile, hv] at hvf
        exact (hprotects vf hvf).2
    · cases hm
  | message l session file recordId =>
    simp only [Site.move] at hm
    split at hm
    · cases hm
    · rename_i hnew
      cases hm
      intro i a r ha hr hv
      have hactive : s.active.find i = some a := ha
      rcases Table.find_put_some hr with ⟨rfl, -⟩ | ⟨-, hr⟩
      · rw [htold.not_active hnew] at hactive
        cases hactive
      · exact h i a r hactive hr hv
  | event recordId e soon uploaded =>
    cases hm
    have hnoted := s.transferEvent_noted recordId e soon uploaded
    intro j a r ha hr hv
    obtain ⟨a', ha', hupload, htemp⟩ := hnoted.active j a ha
    obtain ⟨r', hr', -, hfile, -⟩ := hnoted.records j r hr
    rw [hupload, htemp]
    exact h j a' r' ha' hr' (hfile ▸ hv)
  | write recordId content =>
    obtain ⟨r, -, rfl⟩ := Option.map_eq_some_iff.mp hm
    exact h.congr rfl rfl
  | finish recordId =>
    obtain ⟨r, -, hm⟩ := Option.bind_eq_some_iff.mp hm
    obtain ⟨disk, -, hm⟩ := Option.bind_eq_some_iff.mp hm
    cases hm
    exact h.congr rfl rfl
  | _ =>
    cases hm
    exact h.congr rfl rfl

end Steps

def complete (recordId : String) (content : Bytes) : List Move :=
  [.write recordId content, .finish recordId]

end PesitWizard.Node.Site
