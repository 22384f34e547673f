import PesitWizard.App.Placeholders
import PesitWizard.Node.Handler

/-! What the names of received files are made of, and by what two of them are told apart. -/

namespace PesitWizard.Node

open App PesitWizard.Core Io Library Template

/-- A directory, a pattern and what is put for its placeholders. -/
structure Naming where
  dir : FilePath
  pattern : String
  values : List (String × String)
  names : values.map Prod.fst =
    ["virtualFile", "transferId", "timestamp", "date", "time", "partnerId", "serverId"]
  deriving DecidableEq

/-- What the path of a request is made of. -/
def receiveNaming (l : Listener) (vf : VirtualFile) (session : SessionInfo) (file : FileSpec) (tid : ℕ)
    (clock : Clock) :
    Naming where
  dir := FilePath.ofString ((VirtualFile.given vf.receiveDirectory).getD l.receiveDirectory)
  pattern :=
    if vf.receiveFilenamePattern = "" then "$\x7bvirtualFile\x7d_$\x7btimestamp\x7d" else
      vf.receiveFilenamePattern
  values := [("virtualFile", file.fileName), ("transferId", toString tid), ("timestamp", clock.compact),
    ("date", clock.date), ("time", clock.time), ("partnerId", session.requester),
    ("serverId", l.serverId)]
  names := rfl

namespace Naming

def path (q : Naming) : FilePath :=
  q.dir.join (FilePath.ofString (resolvePlaceholders q.pattern q.values))

lemma receivePath_eq (l : Listener) (vf : VirtualFile) (session : SessionInfo)
    (file : FileSpec) (tid : ℕ) (clock : Clock) :
    receivePath l vf session file tid clock = (receiveNaming l vf session file tid clock).path := rfl

def value (q : Naming) : String → List Char := assign q.values

/-- The pattern is a relative path of names. Dollar signs stand in it at placeholders only, and none of
the values has one, or has a slash; and no name is made of dots alone. -/
structure Plain (q : Naming) (names : List Template) : Prop where
  pattern : q.pattern.toList = render mark (List.intercalate [.literal '/'] names)
  some : names ≠ []
  parts : ∀ t ∈ names, ∀ p ∈ t, PlainPart p ∧ '/' ∉ p.text String.toList
  values : ∀ x ∈ q.values, '$' ∉ x.2.toList ∧ '/' ∉ x.2.toList
  solid : ∀ t ∈ names, ∃ c ∈ render q.value t, c ≠ '.'

/-- The directories are different ones and the names equally deep, or the directory is one and the names
differ, in what stands outside of the placeholders or in the value of a placeholder. -/
def Tells (cwd : List String) (q q' : Naming) : Prop :=
  ∃ names names', q.Plain names ∧ q'.Plain names' ∧
    (q.dir.locate cwd ≠ q'.dir.locate cwd ∧ names.length = names'.length ∨
      q.dir.locate cwd = q'.dir.locate cwd ∧
        Differ q.value q'.value (List.intercalate [.literal '/'] names)
        (List.intercalate [.literal '/'] names'))

variable {q q' : Naming} {names names' : List Template} {cwd : List String}

lemma sober_names (q : Naming) : ∀ x ∈ q.values, Sober x.1 := by
  intro x hx
  have hname := List.mem_map_of_mem (f := Prod.fst) hx
  rw [q.names] at hname
  have hsober :
      ∀ n ∈ ["virtualFile", "transferId", "timestamp", "date", "time", "partnerId",
      "serverId"], Sober n := by
    unfold Sober
    decide
  exact hsober _ hname

lemma Plain.resolved (h : q.Plain names) : (resolvePlaceholders q.pattern q.values).toList =
    List.intercalate ['/'] (names.map (render q.value)) := by
  rw [← render_intercalate]
  refine resolvePlaceholders_render h.pattern ?_ ?_ q.sober_names fun x hx => (h.values x hx).1
  · intro p hp
    rcases mem_intercalate hp with rfl | ⟨t, ht, hp⟩
    · unfold PlainPart
      decide
    · exact (h.parts t ht p hp).1
  · rw [q.names]
    decide

lemma Plain.unslashed (h : q.Plain names) {t : Template} (ht : t ∈ names) : '/' ∉ render q.value t := by
  intro hmem
  obtain ⟨p, hp, hslash⟩ := List.mem_flatMap.mp hmem
  have hpart := (h.parts t ht p hp).2
  cases p with
  | literal c => exact hpart hslash
  | hole name =>
    rcases assign_cases q.values name with hmark | ⟨x, hx, hvalue⟩
    · rw [Part.text, value, hmark] at hslash
      rw [Part.text] at hpart
      simp [mark, hpart] at hslash
    · rw [Part.text, value, hvalue] at hslash
      exact (h.values x hx).2 hslash

/-- The names that the path has below its directory. -/
def below (q : Naming) (names : List Template) : List String :=
  names.map fun t => String.ofList (render q.value t)

lemma Plain.below_ne (h : q.Plain names) : ∀ n ∈ q.below names, n ≠ "" ∧ n ≠ "." ∧ n ≠ ".." := by
  intro n hn
  obtain ⟨t, ht, rfl⟩ := List.mem_map.mp hn
  obtain ⟨c, hc, hdot⟩ := h.solid t ht
  have hdots : ∀ m : String, (∀ d ∈ m.toList, d = '.') → String.ofList (render q.value t) ≠ m := by
    intro m hm heq
    refine hdot (hm c ?_)
    rw [← heq, String.toList_ofList]
    exact hc
  exact ⟨hdots "" (by simp), hdots "." (by simp), hdots ".." (by simp)⟩

lemma Plain.ofString (h : q.Plain names) :
    (FilePath.ofString (resolvePlaceholders q.pattern q.values)).absolute = false ∧
    (FilePath.ofString (resolvePlaceholders q.pattern q.values)).names = q.below names := by
  have hsplit :
      (List.intercalate ['/'] (names.map (render q.value))).splitOn '/' =
      names.map (render q.value) := by
    refine List.splitOn_intercalate '/' ?_ (by simpa using h.some)
    intro l hl
    obtain ⟨t, ht, rfl⟩ := List.mem_map.mp hl
    exact h.unslashed ht
  constructor
  · -- the first name is there, and begins with no slash
    obtain ⟨t, ts, rfl⟩ := List.exists_cons_of_ne_nil h.some
    obtain ⟨c, cs, hrender⟩ : ∃ c cs, render q.value t = c :: cs := by
      obtain ⟨c, hc, -⟩ := h.solid t List.mem_cons_self
      exact List.exists_cons_of_ne_nil (List.ne_nil_of_mem hc)
    have hc : c ≠ '/' := by
      rintro rfl
      exact h.unslashed List.mem_cons_self (by rw [hrender]; exact List.mem_cons_self)
    simp only [FilePath.ofString, h.resolved, List.map_cons, hrender, head_intercalate]
    simpa using hc
  · rw [FilePath.ofString]
    simp only [h.resolved, hsplit, List.map_map]
    rw [List.filter_eq_self.mpr]
    · rfl
    · intro n hn
      obtain ⟨hempty, hdot, -⟩ := h.below_ne n hn
      exact decide_eq_true ⟨hempty, hdot⟩

lemma Plain.locate (h : q.Plain names) : q.path.locate cwd = q.dir.locate cwd ++ q.below names := by
  obtain ⟨habsolute, hnames⟩ := h.ofString
  rw [path, FilePath.locate_join habsolute, hnames]
  rw [hnames]
  exact fun n hn => (h.below_ne n hn).2.2

/-- Names that are told apart lead to different files. -/
theorem Tells.locate_ne (h : q.Tells cwd q') : q.path.locate cwd ≠ q'.path.locate cwd := by
  obtain ⟨names, names', hq, hq', ⟨hdir, hdepth⟩ | ⟨hdir, hdiffer⟩⟩ := h
  · intro heq
    rw [hq.locate, hq'.locate] at heq
    exact hdir (List.append_inj' heq (by simpa [below] using hdepth)).1
  · intro heq
    rw [hq.locate, hq'.locate, hdir] at heq
    apply hdiffer.render_ne
    have hnames : names.map (render q.value) = names'.map (render q'.value) := by
      have hbelow := congrArg (List.map String.toList) (List.append_cancel_left heq)
      simpa [below, Function.comp_def] using hbelow
    rw [render_intercalate, render_intercalate, hnames]

end Naming

end PesitWizard.Node
