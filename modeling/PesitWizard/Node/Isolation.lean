import PesitWizard.Node.Naming
import PesitWizard.Node.Records

/-! Transfers that are received at the same time, and the temporary files that they write to. -/

namespace PesitWizard.Node

open App PesitWizard.Core Io Library

/-- What the path of a received file comes from: it is computed for a request, or another one. -/
inductive PathOrigin
  | named (q : Naming)
  | kept (p : FilePath)
  deriving DecidableEq

namespace PathOrigin

def path : PathOrigin → FilePath
  | .named q => q.path
  | .kept p => p

def naming : PathOrigin → Option Naming
  | .named q => some q
  | .kept _ => none

/-- Two paths are told apart by what they are made of; one that is not computed is outside of the
directory of the other. -/
def Tells (cwd : List String) : PathOrigin → PathOrigin → Prop
  | .named q, .named q' => q.Tells cwd q'
  | .named q, .kept p => (∃ names, q.Plain names) ∧ ¬ q.dir.locate cwd <+: p.locate cwd
  | .kept p, .named q => (∃ names, q.Plain names) ∧ ¬ q.dir.locate cwd <+: p.locate cwd
  | .kept p, .kept p' => p.locate cwd ≠ p'.locate cwd

lemma locate_ne_of_outside {cwd : List String} {q : Naming} {p : FilePath}
    (h : (∃ names, q.Plain names) ∧ ¬ q.dir.locate cwd <+: p.locate cwd) :
    q.path.locate cwd ≠ p.locate cwd := by
  obtain ⟨⟨names, hplain⟩, houtside⟩ := h
  intro heq
  rw [hplain.locate] at heq
  exact houtside ⟨_, heq⟩

lemma Tells.locate_ne {cwd : List String} {a b : PathOrigin} (h : a.Tells cwd b) :
    a.path.locate cwd ≠ b.path.locate cwd := by
  cases a with
  | named q =>
    cases b with
    | named q' => exact Naming.Tells.locate_ne h
    | kept p => exact locate_ne_of_outside h
  | kept p =>
    cases b with
    | named q => exact (locate_ne_of_outside h).symm
    | kept p' => exact h

end PathOrigin

namespace Site

/-- No two transfers that are received write to the same temporary file. -/
def Isolated (cwd : List String) (s : Site) : Prop :=
  ∀ i j r r', s.receiving.find i = some r → s.receiving.find j = some r' → i ≠ j →
    (partPath r.path).locate cwd ≠ (partPath r'.path).locate cwd ∧ r.temporary ≠ r'.temporary

/-- The path of a request is that of no transfer that is received. -/
def Distant (cwd : List String) (s : Site) : Move → Prop
  | .create l session file o => ∀ p, (s.plan l session file o).2 = .ok p →
      ∀ i r, s.receiving.find i = some r → r.path.locate cwd ≠ p.path.locate cwd
  | _ => True

/-- Each transfer has a path and a file of its own, and the file has no name but the temporary one. -/
structure Apart (cwd : List String) (s : Site) : Prop where
  paths : ∀ i j r r', s.receiving.find i = some r → s.receiving.find j = some r' → i ≠ j →
    r.path.locate cwd ≠ r'.path.locate cwd
  files : ∀ i j r r', s.receiving.find i = some r → s.receiving.find j = some r' → i ≠ j →
    r.temporary ≠ r'.temporary
  bound : ∀ i r, s.receiving.find i = some r → r.temporary < s.disk.next
  name : ∀ i r q, s.receiving.find i = some r → s.disk.names q = some r.temporary → q = partPath r.path

section Steps

variable {s t : Site} {cwd : List String}

lemma Apart.isolated (h : s.Apart cwd) : s.Isolated cwd := fun i j r r' hi hj hne =>
  ⟨fun heq => h.paths i j r r' hi hj hne (locate_partPath_injective heq), h.files i j r r' hi hj hne⟩

lemma initial_apart (c : Catalogue) (disk : FileSystem) : (initial c disk).Apart cwd where
  paths i j r r' hi := by cases hi
  files i j r r' hi := by cases hi
  bound i r hi := by cases hi
  name i r q hi := by cases hi

lemma Apart.quiet (h : s.Apart cwd) (hq : s.Quiet t) : t.Apart cwd where
  paths := by
    rw [hq.receiving]
    exact h.paths
  files := by
    rw [hq.receiving]
    exact h.files
  bound i r hi := by
    rw [hq.receiving] at hi
    exact lt_of_lt_of_le (h.bound i r hi) hq.disk.grows
  name i r q hi hname := by
    rw [hq.receiving] at hi
    exact h.name i r q hi (hq.disk.names _ q (h.bound i r hi) hname)

lemma Apart.erase (h : s.Apart cwd) (i : String) :
    Apart cwd { s with receiving := s.receiving.erase i } := by
  have hfind : ∀ {j r}, (s.receiving.erase i).find j = some r → s.receiving.find j = some r :=
    fun hj => (Table.find_erase_some hj).2
  exact ⟨fun j k r r' hj hk => h.paths j k r r' (hfind hj) (hfind hk),
    fun j k r r' hj hk => h.files j k r r' (hfind hj) (hfind hk), fun j r hj => h.bound j r (hfind hj),
    fun j r q hj => h.name j r q (hfind hj)⟩

lemma Apart.temporary_ne (h : s.Apart cwd) {path : FilePath}
    (hpath : ∀ i r, s.receiving.find i = some r → r.path.locate cwd ≠ path.locate cwd)
    (p : Option Position) {i : String} {r : Receiving} (hi : s.receiving.find i = some r) :
    r.temporary ≠ (FileSink.create s.disk path p).2 := by
  intro heq
  rcases FileSink.create_file_or s.disk path p with hfile | hfile
  · rw [← heq] at hfile
    exact hpath i r hi (by rw [partPath_injective (h.name i r _ hi hfile).symm])
  · have hlt := h.bound i r hi
    omega

lemma Apart.open (h : s.Apart cwd) {path : FilePath}
    (hpath : ∀ i r, s.receiving.find i = some r → r.path.locate cwd ≠ path.locate cwd)
    (p : Option Position) (k file : String) (hdisk : t.disk = (FileSink.create s.disk path p).1)
    (hreceiving : t.receiving = s.receiving.put k ⟨file, path, (FileSink.create s.disk path p).2⟩) :
    t.Apart cwd := by
  have hkeeps := FileSink.create_keeps s.disk path p
  have hnames := FileSink.create_names s.disk path p
  have hnew := fun {i r} => h.temporary_ne hpath p (i := i) (r := r)
  rw [← hdisk] at hkeeps hnames
  generalize (FileSink.create s.disk path p).2 = temporary at hreceiving hnames hnew
  have hfind : ∀ i r, t.receiving.find i = some r →
      i = k ∧ r = ⟨file, path, temporary⟩ ∨ i ≠ k ∧ s.receiving.find i = some r := by
    intro i r hi
    rw [hreceiving] at hi
    exact Table.find_put_some hi
  refine ⟨?_, ?_, ?_, ?_⟩
  · intro i j r r' hi hj hne
    rcases hfind i r hi with ⟨rfl, rfl⟩ | ⟨-, hi⟩ <;> rcases hfind j r' hj with ⟨rfl, rfl⟩ | ⟨-, hj⟩
    · exact absurd rfl hne
    · exact (hpath j r' hj).symm
    · exact hpath i r hi
    · exact h.paths i j r r' hi hj hne
  · intro i j r r' hi hj hne
    rcases hfind i r hi with ⟨rfl, rfl⟩ | ⟨-, hi⟩ <;> rcases hfind j r' hj with ⟨rfl, rfl⟩ | ⟨-, hj⟩
    · exact absurd rfl hne
    · exact (hnew hj).symm
    · exact hnew hi
    · exact h.files i j r r' hi hj hne
  · intro i r hi
    rcases hfind i r hi with ⟨rfl, rfl⟩ | ⟨-, hi⟩
    · exact t.disk.bound _ _ hnames
    · exact lt_of_lt_of_le (h.bound i r hi) hkeeps.grows
  · intro i r q hi hq
    rcases hfind i r hi with ⟨rfl, rfl⟩ | ⟨-, hi⟩
    · exact t.disk.single _ _ _ hq hnames
    · exact h.name i r q hi (hkeeps.names _ q (h.bound i r hi) hq)

lemma Apart.finish (h : s.Apart cwd) {i : String} {r : Receiving} {disk : FileSystem}
    (hi : s.receiving.find i = some r) (hdisk : FileSink.finish s.disk r.path = some disk) :
    Apart cwd { s with disk := disk, receiving := s.receiving.erase i } := by
  obtain ⟨-, hnames, -, hnext⟩ := Disk.rename_eq_some hdisk
  have herase := h.erase i
  refine ⟨herase.paths, herase.files, fun j r' hj => ?_, fun j r' q hj hq => ?_⟩
  · rw [hnext]
    exact herase.bound j r' hj
  · rw [hnames] at hq
    rcases Disk.names_of_renamed hq with ⟨-, hq⟩ | ⟨-, -, hq⟩
    · obtain ⟨hne, hj⟩ := Table.find_erase_some hj
      exact absurd (by rw [partPath_injective (h.name j r' _ hj hq)])
        (h.paths i j r r' hi hj (Ne.symm hne))
    · exact herase.name j r' q hj hq

lemma Apart.create (h : s.Apart cwd) {l : Listener} {session : SessionInfo} {file : FileSpec}
    {o : Circumstances} (hok : s.Distant cwd (.create l session file o)) :
    (s.create l session file o).1.Apart cwd := by
  rcases create_cases s l session file o with ⟨t, r, hcreate, halike⟩ | ⟨t, p, halike, hplan,
    ⟨r, hcreate⟩ | hcreate⟩
  · rw [hcreate]
    exact h.quiet halike.quiet
  · rw [hcreate]
    refine h.quiet (halike.quiet.trans (onDisk_quiet ?_))
    rw [halike.disk]
    exact FileSink.create_keeps _ _ _
  · rw [hcreate]
    exact h.open (hok p hplan) _ o.recordId file.fileName rfl rfl

lemma Apart.move (h : s.Apart cwd) {m : Move} (hok : s.Distant cwd m) (hm : s.move m = some t) :
    t.Apart cwd := by
  cases m with
  | configure c =>
    cases hm
    exact ⟨h.paths, h.files, h.bound, h.name⟩
  | create l session file o =>
    simp only [Site.move] at hm
    split at hm
    · cases hm
      exact h.create hok
    · cases hm
  | select l session file o =>
    simp only [Site.move] at hm
    split at hm
    · cases hm
      obtain ⟨u, hu, hselect | ⟨r, temp, -, -, -, hselect⟩⟩ := select_cases s l session file o
      · rw [hselect]
        exact h.quiet hu.toQuiet
      · rw [hselect]
        have hu := h.quiet hu.toQuiet
        exact ⟨hu.paths, hu.files, hu.bound, hu.name⟩
    · cases hm
  | message l session file recordId =>
    simp only [Site.move] at hm
    split at hm
    · cases hm
    · cases hm
      exact ⟨h.paths, h.files, h.bound, h.name⟩
  | event recordId e soon uploaded =>
    cases hm
    exact h.quiet (s.transferEvent_noted recordId e soon uploaded).toQuiet
  | checkpoint serverId key store =>
    cases hm
    exact ⟨h.paths, h.files, h.bound, h.name⟩
  | write recordId content =>
    obtain ⟨r, -, rfl⟩ := Option.map_eq_some_iff.mp hm
    exact h.quiet (onDisk_quiet (s.disk.keeps_write _ _))
  | finish recordId =>
    obtain ⟨r, hr, hm⟩ := Option.bind_eq_some_iff.mp hm
    obtain ⟨disk, hdisk, hm⟩ := Option.bind_eq_some_iff.mp hm
    cases hm
    have hfinish := h.finish hr hdisk
    exact ⟨hfinish.paths, hfinish.files, hfinish.bound, hfinish.name⟩
  | close recordId =>
    cases hm
    exact h.erase recordId
  | outside path content =>
    cases hm
    cases content with
    | none => exact h.quiet (onDisk_quiet (s.disk.keeps_remove path))
    | some c => exact h.quiet (onDisk_quiet (s.disk.keeps_link path c))

end Steps

end Site

/-- A site, with what the names of the files that it has received were made of, by record. -/
structure Traced where
  site : Site
  named : String → Option Naming

namespace Traced

variable (x : Traced)

def initial (c : Catalogue) (disk : FileSystem) : Traced := ⟨Site.initial c disk, fun _ => none⟩

def originOf (i : String) (r : Receiving) : PathOrigin :=
  ((x.named i).map PathOrigin.named).getD (.kept r.path)

/-- A request that goes on from a record takes its path, and with it what that was made of. -/
def origin (l : Listener) (session : SessionInfo) (file : FileSpec) (partner : Partner)
    (vf : VirtualFile) (o : Circumstances) : PathOrigin :=
  let tid := (x.site.pesitTransferId file.transferId.toNat).1
  if vf.staged then .kept o.staging
  else
    ((x.site.previous l partner file tid).bind fun r =>
      r.localPath.map fun p => ((x.named r.transferId).map PathOrigin.named).getD (.kept p)).getD
      (.named (receiveNaming l vf session file tid o.clock))

def naming : Site.Move → String → Option Naming
  | .create l session file o =>
    match Site.admitCreate x.site.catalogue session file with
    | .ok (partner, vf) =>
      Function.update x.named o.recordId (x.origin l session file partner vf o).naming
    | .error _ => x.named
  | .select _ _ _ o => Function.update x.named o.recordId none
  | .message _ _ _ recordId => Function.update x.named recordId none
  | _ => x.named

def move (m : Site.Move) : Option Traced := (x.site.move m).map fun s => ⟨s, x.naming m⟩

/-- A request for which the partner and the virtual file are right is told apart from all transfers
that are received. -/
def Elsewhere (cwd : List String) (x : Traced) : Site.Move → Prop
  | .create l session file o => ∀ partner vf, Site.admitCreate x.site.catalogue session file =
    .ok (partner, vf) →
      ∀ i r, x.site.receiving.find i = some r →
      (x.origin l session file partner vf o).Tells cwd (x.originOf i r)
  | _ => True

/-- What is known of a file by its record is so of the record, of the transfer and of
what is received. -/
structure Labelled (x : Traced) : Prop where
  tracked : x.site.Tracked
  known : ∀ i r, x.site.receiving.find i = some r → ∃ r', x.site.records.find i = some r'
  record : ∀ i q r, x.named i = some q → x.site.records.find i = some r → r.localPath = some q.path
  upload : ∀ i q a, x.named i = some q → x.site.active.find i = some a → a.connectorUpload = none
  receiving : ∀ i q r, x.named i = some q → x.site.receiving.find i = some r → r.path = q.path

variable {x} {t : Site} {cwd : List String}

lemma initial_labelled (c : Catalogue) (disk : FileSystem) : (initial c disk).Labelled where
  tracked := Site.tracked_run c disk []
  known i r hi := by cases hi
  record i q r hi := by cases hi
  upload i q a hi := by cases hi
  receiving i q r hi := by cases hi

/-- Nothing is new, and the paths of the records that have a naming are as they were. -/
lemma Labelled.old (h : x.Labelled) (ht : t.Tracked)
    (hrecords : ∀ i r, t.records.find i = some r → ∃ r', x.site.records.find i = some r' ∧
      ∀ q, x.named i = some q → r.localPath = r'.localPath)
    (hkept : ∀ i r, x.site.records.find i = some r → ∃ r', t.records.find i = some r')
    (hactive : ∀ i a, t.active.find i = some a → ∃ a', x.site.active.find i = some a' ∧
      a.connectorUpload = a'.connectorUpload)
    (hreceiving : ∀ i r, t.receiving.find i = some r → x.site.receiving.find i = some r) :
    Labelled ⟨t, x.named⟩ where
  tracked := ht
  known i r hi := by
    obtain ⟨r', hr'⟩ := h.known i r (hreceiving i r hi)
    exact hkept i r' hr'
  record i q r hq hr := by
    obtain ⟨r', hr', hpath⟩ := hrecords i r hr
    rw [hpath q hq]
    exact h.record i q r' hq hr'
  upload i q a hq ha := by
    obtain ⟨a', ha', hupload⟩ := hactive i a ha
    rw [hupload]
    exact h.upload i q a' hq ha'
  receiving i q r hq hr := h.receiving i q r hq (hreceiving i r hr)

/-- One record is new, or would be. -/
lemma Labelled.new (h : x.Labelled) (ht : t.Tracked) {k : String} {n : Option Naming}
    (hrecords : ∀ i, i ≠ k → t.records.find i = x.site.records.find i)
    (hactive : ∀ i, i ≠ k → t.active.find i = x.site.active.find i)
    (hreceiving : ∀ i, i ≠ k → t.receiving.find i = x.site.receiving.find i)
    (hknown : ∀ r, t.receiving.find k = some r → ∃ r', t.records.find k = some r')
    (hown : ∀ q, n = some q → (∀ r, t.records.find k = some r → r.localPath = some q.path) ∧
      (∀ a, t.active.find k = some a → a.connectorUpload = none) ∧ ∀ r, t.receiving.find k = some r →
      r.path = q.path) :
    Labelled ⟨t, Function.update x.named k n⟩ where
  tracked := ht
  known i r hi := by
    by_cases hk : i = k
    · subst hk
      exact hknown r hi
    · rw [hreceiving i hk] at hi
      rw [hrecords i hk]
      exact h.known i r hi
  record i q r hq hr := by
    by_cases hk : i = k
    · subst hk
      exact (hown q (by simpa using hq)).1 r hr
    · rw [hrecords i hk] at hr
      exact h.record i q r (by simpa [hk] using hq) hr
  upload i q a hq ha := by
    by_cases hk : i = k
    · subst hk
      exact (hown q (by simpa using hq)).2.1 a ha
    · rw [hactive i hk] at ha
      exact h.upload i q a (by simpa [hk] using hq) ha
  receiving i q r hq hr := by
    by_cases hk : i = k
    · subst hk
      exact (hown q (by simpa using hq)).2.2 r hr
    · rw [hreceiving i hk] at hr
      exact h.receiving i q r (by simpa [hk] using hq) hr

section Events

/-- The paths of the records stay as they are. -/
def KeepsPaths (s t : Site) : Prop :=
  ∀ i r, t.records.find i = some r → ∃ r', s.records.find i = some r' ∧ r.localPath = r'.localPath

lemma keepsPaths_of_records {s t : Site} (h : t.records = s.records) : KeepsPaths s t := by
  intro i r hr
  rw [h] at hr
  exact ⟨r, hr, rfl⟩

lemma KeepsPaths.trans {s t u : Site} (h : KeepsPaths s t) (h' : KeepsPaths t u) : KeepsPaths s u := by
  intro i r hr
  obtain ⟨r', hr', hpath'⟩ := h' i r hr
  obtain ⟨r'', hr'', hpath⟩ := h i r' hr'
  exact ⟨r'', hr'', hpath'.trans hpath⟩

lemma keepsPaths_update (s : Site) (k : String) {f : StoredRecord → StoredRecord}
    (hf : ∀ r, (f r).localPath = r.localPath) :
    KeepsPaths s (s.update k f) := by
  intro i r hr
  rw [Site.update] at hr
  split at hr
  · rename_i r₀ hr₀
    rcases Table.find_put_some hr with ⟨rfl, rfl⟩ | ⟨-, hr⟩
    · exact ⟨r₀, hr₀, hf r₀⟩
    · exact ⟨r, hr, rfl⟩
  · exact ⟨r, hr, rfl⟩

/-- Only the upload to a connector gives a record another path. -/
lemma keepsPaths_event (s : Site) (k : String)
    (hupload : ∀ a, s.active.find k = some a → a.connectorUpload = none)
    (e : TransferEvent) (soon uploaded : Bool) : KeepsPaths s (s.transferEvent k e soon uploaded) := by
  rw [Site.transferEvent]
  split
  · exact keepsPaths_of_records rfl
  · rename_i a ha
    have hnone : ∀ u : Site, u.upload k a uploaded = u := by
      intro u
      rw [Site.upload, hupload a ha]
    cases e with
    | started transferId start =>
      refine .trans ?_ (keepsPaths_update _ k fun r => rfl)
      exact keepsPaths_of_records rfl
    | progress p =>
      dsimp only
      split
      · exact keepsPaths_of_records rfl
      · refine .trans ?_ (keepsPaths_update _ k fun r => rfl)
        exact keepsPaths_of_records rfl
    | ended data diag =>
      refine .trans ?_ (keepsPaths_of_records (Site.release_records _ a))
      simp only [hnone, ite_self]
      refine .trans ?_ (keepsPaths_update _ k fun r => rfl)
      exact keepsPaths_of_records rfl
    | failed e =>
      refine .trans ?_ (keepsPaths_of_records (Site.release_records _ a))
      refine .trans ?_ (keepsPaths_update _ k fun r => rfl)
      exact keepsPaths_of_records rfl

lemma Labelled.event (h : x.Labelled) (k : String) (e : TransferEvent) (soon uploaded : Bool)
    (ht : (x.site.transferEvent k e soon uploaded).Tracked) :
    Labelled ⟨x.site.transferEvent k e soon uploaded, x.named⟩ := by
  have hnoted := x.site.transferEvent_noted k e soon uploaded
  refine h.old ht ?_ hnoted.kept ?_ ?_
  · intro i r hr
    obtain ⟨r', hr', -, -, hother⟩ := hnoted.records i r hr
    refine ⟨r', hr', fun q hq => ?_⟩
    by_cases hik : i = k
    · subst hik
      obtain ⟨r'', hr'', hpath⟩ :=
        keepsPaths_event x.site i (fun a ha => h.upload i q a hq ha) e soon uploaded i r hr
      obtain rfl := Option.some.inj (hr'.symm.trans hr'')
      exact hpath
    · rw [hother hik]
  · intro i a ha
    obtain ⟨a', ha', hupload, -⟩ := hnoted.active i a ha
    exact ⟨a', ha', hupload⟩
  · intro i r hr
    rwa [hnoted.receiving] at hr

end Events

section Requests

variable {l : Listener} {session : SessionInfo} {file : FileSpec} {o : Circumstances}

lemma Labelled.origin_path (h : x.Labelled) (partner : Partner) (vf : VirtualFile) :
    (x.origin l session file partner vf o).path =
      if vf.staged then o.staging else x.site.target l session file partner vf o.clock := by
  rw [origin]
  cases hstaged : vf.staged with
  | true => rfl
  | false =>
    simp only [Bool.false_eq_true, if_false, Site.target]
    cases hprev : x.site.previous l partner file (x.site.pesitTransferId file.transferId.toNat).1 with
    | none => simp only [Option.bind_none, Option.getD_none, Naming.receivePath_eq, PathOrigin.path]
    | some r =>
      cases hpath : r.localPath with
      | none =>
        simp only [Option.bind_some, hpath, Option.map_none, Option.getD_none,
          Naming.receivePath_eq, PathOrigin.path]
      | some p =>
        rw [Option.bind_some, Option.bind_some, hpath, Option.map_some, Option.getD_some,
          Option.getD_some]
        cases hnamed : x.named r.transferId with
        | none => rfl
        | some q =>
          have hr : x.site.records.find r.transferId = some r := by
            rw [Site.previous] at hprev
            split at hprev
            · exact (Site.interruptedRecord_precedes
                (r := Site.newRecord l .receive partner.id file 0 none "") h.tracked hprev
                rfl rfl rfl).1
            · cases hprev
          exact Option.some.inj ((h.record _ q r hnamed hr).symm.trans hpath)

lemma Labelled.originOf_path (h : x.Labelled) {i : String} {r : Receiving}
    (hr : x.site.receiving.find i = some r) :
    (x.originOf i r).path = r.path := by
  rw [originOf]
  cases hnamed : x.named i with
  | none => rfl
  | some q => exact (h.receiving i q r hnamed hr).symm

lemma naming_eq_some {a : PathOrigin} {q : Naming} (h : a.naming = some q) : a = .named q := by
  cases a with
  | named q' => rw [Option.some.inj h]
  | kept p => cases h

lemma Labelled.distant (h : x.Labelled) {m : Site.Move} (hok : x.Elsewhere cwd m) :
    x.site.Distant cwd m := by
  cases m with
  | create l session file o =>
    intro p hp i r hr
    have hplan := Site.plan_planned hp
    have htells := (hok p.partner p.vf hplan.admitted i r hr).locate_ne
    rw [h.origin_path, h.originOf_path hr, ← hplan.path] at htells
    exact htells.symm
  | _ => trivial

/-- The name that a request is given is the one of the path that is received for it. -/
lemma Labelled.naming_create (h : x.Labelled) :
    ∃ n, x.naming (.create l session file o) = Function.update x.named o.recordId n ∧
      ∀ p, (x.site.plan l session file o).2 = .ok p → ∀ q, n = some q → p.vf.staged = false ∧
      p.path = q.path := by
  rw [naming]
  cases hadmitted : Site.admitCreate x.site.catalogue session file with
  | error r =>
    refine ⟨x.named o.recordId, (Function.update_eq_self _ _).symm, fun p hp => ?_⟩
    rw [(Site.plan_planned hp).admitted] at hadmitted
    cases hadmitted
  | ok admitted =>
    obtain ⟨partner, vf⟩ := admitted
    refine ⟨_, rfl, fun p hp q hq => ?_⟩
    have hplan := Site.plan_planned hp
    obtain ⟨rfl, rfl⟩ := Prod.mk.inj (Except.ok.inj (hplan.admitted.symm.trans hadmitted))
    have horigin := naming_eq_some hq
    have hpath : (x.origin l session file p.partner p.vf o).path =
        if p.vf.staged then o.staging else x.site.target l session file p.partner p.vf o.clock :=
      h.origin_path p.partner p.vf
    rw [horigin, ← hplan.path] at hpath
    refine ⟨?_, hpath.symm⟩
    by_contra hstaged
    rw [origin, if_pos (by simpa using hstaged)] at horigin
    cases horigin

/-- A request that is refused leaves the records, the transfers and what is received. -/
lemma Labelled.refused (h : x.Labelled) (hnew : x.site.New o) (ht : t.Tracked)
    (hrecords : t.records = x.site.records) (hactive : t.active = x.site.active)
    (hreceiving : t.receiving = x.site.receiving) (n : Option Naming) :
    Labelled ⟨t, Function.update x.named o.recordId n⟩ := by
  have hrecord : x.site.records.find o.recordId = none := Table.find_eq_none.mpr hnew.1
  have hfree : x.site.active.find o.recordId = none := by
    by_contra hne
    obtain ⟨r, hr, -⟩ := (h.tracked.active o.recordId).mp (Option.isSome_iff_ne_none.mpr hne)
    exact hnew.1 (Table.mem_keys.mpr ⟨r, hr⟩)
  have hidle : x.site.receiving.find o.recordId = none := by
    refine Option.eq_none_iff_forall_ne_some.mpr fun r hr => ?_
    obtain ⟨r', hr'⟩ := h.known _ r hr
    rw [hrecord] at hr'
    cases hr'
  refine h.new ht (fun i _ => by rw [hrecords]) (fun i _ => by rw [hactive])
    (fun i _ => by rw [hreceiving]) ?_ ?_
  · intro r hr
    rw [hreceiving, hidle] at hr
    cases hr
  · rw [hrecords, hactive, hreceiving, hrecord, hfree, hidle]
    exact fun q _ => ⟨fun _ hr => (by cases hr), fun _ ha => (by cases ha), fun _ hr => (by cases hr)⟩

lemma Labelled.create (h : x.Labelled) (hnew : x.site.New o)
    (ht : (x.site.create l session file o).1.Tracked) :
    Labelled ⟨(x.site.create l session file o).1, x.naming (.create l session file o)⟩ := by
  obtain ⟨n, hn, hplanned⟩ := h.naming_create
  rw [hn]
  rcases Site.create_cases x.site l session file o with ⟨t, r, hcreate, halike⟩ | ⟨t, p, halike, hplan,
    ⟨r, hcreate⟩ | hcreate⟩
  · rw [hcreate] at ht ⊢
    exact h.refused hnew ht halike.records halike.active halike.receiving n
  · rw [hcreate] at ht ⊢
    exact h.refused hnew ht halike.records halike.active halike.receiving n
  · rw [hcreate] at ht ⊢
    refine h.new ht ?_ ?_ ?_ ?_ ?_
    · intro i hi
      exact (Table.find_put _ _ _ _).trans (if_neg hi)
    · intro i hi
      exact (Table.find_put _ _ _ _).trans (if_neg hi)
    · intro i hi
      exact (Table.find_put _ _ _ _).trans (if_neg hi)
    · intro r _
      exact ⟨_, (Table.find_put _ _ _ _).trans (if_pos rfl)⟩
    · intro q hq
      obtain ⟨hstaged, hpath⟩ := hplanned p hplan q hq
      refine ⟨fun r hr => ?_, fun a ha => ?_, fun r hr => ?_⟩
      · rw [Table.find_put, if_pos rfl] at hr
        rw [← Option.some.inj hr, ← hpath]
        rfl
      · rw [Table.find_put, if_pos rfl] at ha
        rw [← Option.some.inj ha, hstaged]
        rfl
      · rw [Table.find_put, if_pos rfl] at hr
        rw [← Option.some.inj hr]
        exact hpath

/-- What is sent has no name. -/
lemma Labelled.sent (h : x.Labelled) (ht : t.Tracked) {k : String}
    (hother : ∀ i, i ≠ k → t.records.find i = x.site.records.find i)
    (hactive : ∀ i, i ≠ k → t.active.find i = x.site.active.find i)
    (hreceiving : t.receiving = x.site.receiving)
    (hkept : ∀ i r, x.site.records.find i = some r → ∃ r', t.records.find i = some r') :
    Labelled ⟨t, Function.update x.named k none⟩ := by
  refine h.new ht hother hactive (fun i _ => by rw [hreceiving]) ?_ (fun q hq => by cases hq)
  intro r hr
  rw [hreceiving] at hr
  obtain ⟨r', hr'⟩ := h.known k r hr
  exact hkept k r' hr'

lemma Labelled.select (h : x.Labelled) (ht : (x.site.select l session file o).1.Tracked) :
    Labelled ⟨(x.site.select l session file o).1, Function.update x.named o.recordId none⟩ := by
  obtain ⟨u, hu, hselect | ⟨r, temp, -, -, -, hselect⟩⟩ := Site.select_cases x.site l session file o
  · rw [hselect] at ht ⊢
    refine h.sent ht (fun i _ => by rw [hu.records]) (fun i _ => by rw [hu.active]) hu.receiving
      fun i r hr => ⟨r, ?_⟩
    rw [hu.records]
    exact hr
  · rw [hselect] at ht ⊢
    refine h.sent ht (fun i hi => ?_) (fun i hi => ?_) hu.receiving fun i r' hr' => ?_
    · rw [Table.find_put, if_neg hi, hu.records]
    · rw [Table.find_put, if_neg hi, hu.active]
    · rw [Table.find_put, hu.records]
      split
      · exact ⟨_, rfl⟩
      · exact ⟨r', hr'⟩

end Requests

/-- A move that touches neither the records nor the transfers, and may end what is received. -/
lemma Labelled.same (h : x.Labelled) (ht : t.Tracked) (hrecords : t.records = x.site.records)
    (hactive : t.active = x.site.active)
    (hreceiving : ∀ i r, t.receiving.find i = some r → x.site.receiving.find i = some r) :
    Labelled ⟨t, x.named⟩ := by
  refine h.old ht ?_ ?_ ?_ hreceiving
  · rw [hrecords]
    exact fun i r hr => ⟨r, hr, fun _ _ => rfl⟩
  · rw [hrecords]
    exact fun i r hr => ⟨r, hr⟩
  · rw [hactive]
    exact fun i a ha => ⟨a, ha, rfl⟩

lemma Labelled.move {y : Traced} (h : x.Labelled) {m : Site.Move}
    (hm : x.move m = some y) : y.Labelled := by
  obtain ⟨t, hsite, rfl⟩ := Option.map_eq_some_iff.mp hm
  have ht := (Site.tracked_step h.tracked hsite).1
  have hold := h.same ht
  cases m with
  | configure c =>
    exact hold (Option.some.inj hsite ▸ rfl) (Option.some.inj hsite ▸ rfl)
      (Option.some.inj hsite ▸ fun _ _ hi => hi)
  | create l session file o =>
    rw [Site.move] at hsite
    split at hsite
    · rename_i hnew
      obtain rfl := Option.some.inj hsite
      exact h.create hnew ht
    · cases hsite
  | select l session file o =>
    rw [Site.move] at hsite
    split at hsite
    · obtain rfl := Option.some.inj hsite
      exact h.select ht
    · cases hsite
  | message l session file recordId =>
    rw [Site.move] at hsite
    split at hsite
    · cases hsite
    · obtain rfl := Option.some.inj hsite
      refine h.sent ht (fun i hi => ?_) (fun i _ => rfl) rfl fun i r' hr' => ?_
      · rw [Site.message, Table.find_put, if_neg hi]
      · rw [Site.message, Table.find_put]
        split
        · exact ⟨_, rfl⟩
        · exact ⟨r', hr'⟩
  | event recordId e soon uploaded =>
    obtain rfl := Option.some.inj hsite
    exact h.event recordId e soon uploaded ht
  | checkpoint serverId key store =>
    exact hold (Option.some.inj hsite ▸ rfl) (Option.some.inj hsite ▸ rfl)
      (Option.some.inj hsite ▸ fun _ _ hi => hi)
  | write recordId content =>
    obtain ⟨r, -, rfl⟩ := Option.map_eq_some_iff.mp hsite
    exact hold rfl rfl fun _ _ hi => hi
  | finish recordId =>
    obtain ⟨r, -, hsite⟩ := Option.bind_eq_some_iff.mp hsite
    obtain ⟨disk, -, hsite⟩ := Option.bind_eq_some_iff.mp hsite
    obtain rfl := Option.some.inj hsite
    exact hold rfl rfl fun _ _ hi => (Table.find_erase_some hi).2
  | close recordId =>
    obtain rfl := Option.some.inj hsite
    exact hold rfl rfl fun _ _ hi => (Table.find_erase_some hi).2
  | outside path content =>
    obtain rfl := Option.some.inj hsite
    exact hold rfl rfl fun _ _ hi => hi

/-- Over the whole life of a node, no two transfers that are received at the same time write to the
same file, if every request is told apart from them by its directory, its pattern and the values for
its placeholders. -/
theorem receives_isolated {c : Catalogue} {disk : FileSystem}
    (h : Moves move (Elsewhere cwd) (initial c disk) x) :
    x.site.Isolated cwd := by
  have hboth : x.Labelled ∧ x.site.Apart cwd := by
    refine Moves.invariant (I := fun y => y.Labelled ∧ y.site.Apart cwd) ?_ h
      ⟨initial_labelled c disk, Site.initial_apart c disk⟩
    rintro y m z ⟨hlabelled, hapart⟩ hok hm
    refine ⟨hlabelled.move hm, ?_⟩
    obtain ⟨s, hs, rfl⟩ := Option.map_eq_some_iff.mp hm
    exact hapart.move (hlabelled.distant hok) hs
  exact hboth.2.isolated

def sampleNaming (second : String) : Naming :=
  receiveNaming Site.sampleListener Site.sampleVirtualFile Site.sampleSession sampleFile 7
    (Site.sampleCircumstances second "").clock

def sampleNames : List Template := [[.hole "virtualFile", .literal '_', .hole "timestamp"]]

lemma sampleNaming_plain {second : String} (h : second = "00" ∨ second = "01") :
    (sampleNaming second).Plain sampleNames where
  pattern := by rcases h with rfl | rfl <;> decide +kernel
  some := List.cons_ne_nil _ _
  parts := by simp [sampleNames, PlainPart, Sober, Part.text]
  values := by rcases h with rfl | rfl <;> decide +kernel
  solid := by
    intro t ht
    obtain rfl := List.mem_singleton.mp ht
    exact ⟨'_', by simp [Part.text], by decide⟩

/-- Requests of two seconds are told apart by the time in their names. -/
lemma sampleNaming_tells {second second' : String}
    (h : second = "00" ∧ second' = "01" ∨ second = "01" ∧ second' = "00") :
    (sampleNaming second).Tells [] (sampleNaming second') := by
  have hdiffer : Template.Differ (sampleNaming second).value (sampleNaming second').value
      [.hole "virtualFile", .literal '_', .hole "timestamp"] [.hole "virtualFile", .literal '_',
      .hole "timestamp"] := by
    refine .longer ?_ (p := .hole "timestamp") (by simp) ?_
    · rcases h with ⟨rfl, rfl⟩ | ⟨rfl, rfl⟩ <;> decide +kernel
    · rcases h with ⟨rfl, rfl⟩ | ⟨rfl, rfl⟩ <;> decide +kernel
  refine ⟨sampleNames, sampleNames, sampleNaming_plain ?_, sampleNaming_plain ?_, .inr ⟨rfl, ?_⟩⟩
  · exact h.imp And.left And.left
  · exact (h.imp And.right And.right).symm
  · rw [sampleNames, List.intercalate_singleton]
    exact hdiffer

def restarts : Site.Move :=
  .create Site.sampleListener Site.sampleSession Site.restartedFile (Site.sampleCircumstances "02" "3")

def received : Traced :=
  after move (initial Site.sampleCatalogue (.blank [])) (Site.sampleWrite "00" "1")

def separate : Traced := after move received (Site.sampleWrite "01" "2")

def interrupted : Traced :=
  (Site.sampleInterruption "1" ++ [Site.Move.close "1"]).foldl (after move) separate

def resumed : Traced := after move interrupted restarts

def samplePartner : Partner := ⟨"P", .both, none⟩

lemma elsewhere_sample {y : Traced} {file : FileSpec} {o : Circumstances}
    {k second second' : String} {w : Receiving}
    (hadmits : (Site.admitCreate y.site.catalogue Site.sampleSession file).toOption =
      some (samplePartner, Site.sampleVirtualFile))
    (hrows : y.site.receiving.rows = [(k, w)]) (hnamed : y.named k = some (sampleNaming second'))
    (horigin : y.origin Site.sampleListener Site.sampleSession file samplePartner
      Site.sampleVirtualFile o = .named (sampleNaming second))
    (hsecond : second = "00" ∧ second' = "01" ∨ second = "01" ∧ second' = "00") :
    y.Elsewhere [] (.create Site.sampleListener Site.sampleSession file o) := by
  intro partner vf hadmitted i r hr
  rw [hadmitted] at hadmits
  obtain ⟨rfl, rfl⟩ := Prod.mk.inj (Option.some.inj hadmits)
  have hmem : (i, r) ∈ y.site.receiving.rows := Table.find_eq_some.mp hr
  rw [hrows, List.mem_singleton, Prod.mk.injEq] at hmem
  rw [horigin, originOf, hmem.1, hnamed]
  exact sampleNaming_tells hsecond

/-- The first transfer is cut and goes on while the second one, of the next second, is still received. -/
theorem receives_isolated_resumed :
    resumed.site.receiving.rows.map (fun row => row.2.path.display) =
        ["in/F_20250101120001", "in/F_20250101120000"] ∧ resumed.site.Isolated [] := by
  have hfirst : Steps move (Elsewhere []) (initial Site.sampleCatalogue (.blank [])) received := by
    refine steps_after (m := Site.sampleWrite "00" "1") ?_ (by decide +kernel)
    intro partner vf _ i r hr
    cases hr
  have hsecond : Steps move (Elsewhere []) received separate :=
    steps_after (m := Site.sampleWrite "01" "2")
      (elsewhere_sample (k := "1") (w := ⟨"F", FilePath.ofString "in/F_20250101120000", 0⟩)
      (by decide +kernel) (by decide +kernel)
        (by decide +kernel) (by decide +kernel) (.inr ⟨rfl, rfl⟩)) (by decide +kernel)
  have hcut : Moves move (Elsewhere []) separate interrupted := by
    refine moves_foldl_of _ ?_ separate
    intro y m hm
    simp only [Site.sampleInterruption, List.cons_append, List.nil_append, List.mem_cons,
      List.not_mem_nil, or_false] at hm
    rcases hm with rfl | rfl | rfl | rfl <;> trivial
  have hresumed : Steps move (Elsewhere []) interrupted resumed :=
    steps_after (m := restarts)
      (elsewhere_sample (k := "2") (w := ⟨"F", FilePath.ofString "in/F_20250101120001", 1⟩)
      (by decide +kernel) (by decide +kernel)
        (by decide +kernel) (by decide +kernel) (.inl ⟨rfl, rfl⟩)) (by decide +kernel)
  refine ⟨by decide +kernel, ?_⟩
  exact receives_isolated ((Relation.ReflTransGen.head hfirst (.single hsecond)).trans
    (hcut.tail hresumed))

def colliding : Site :=
  [Site.sampleWrite "00" "1", Site.sampleWrite "00" "2"].foldl (after Site.move) Site.sampleSite

theorem receives_collide :
    ¬ ∀ cwd c disk s, Moves Site.move (fun _ _ => True) (Site.initial c disk) s → s.Isolated cwd := by
  intro h
  have hisolated := h [] Site.sampleCatalogue (.blank []) colliding (moves_foldl _ Site.sampleSite)
  have hfind : colliding.receiving.find "1" = some ⟨"F", FilePath.ofString "in/F_20250101120000", 0⟩ ∧
      colliding.receiving.find "2" = some ⟨"F", FilePath.ofString "in/F_20250101120000",
      0⟩ := by decide +kernel
  exact (hisolated "1" "2" _ _ hfind.1 hfind.2 (by decide)).2 rfl

end Traced

end PesitWizard.Node
