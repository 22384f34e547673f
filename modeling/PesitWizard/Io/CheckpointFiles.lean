import Mathlib.Logic.Function.Basic
import PesitWizard.Core.Num
import PesitWizard.Io.Checkpoint
import PesitWizard.Library.Disk
import PesitWizard.Library.FilePath
import PesitWizard.Library.Moves

/-! Stores of checkpoints that are kept in files, each of them written beside the file and then
put in its place. -/

namespace PesitWizard.Io

open PesitWizard.Core Library

/-- How checkpoints are written as bytes and read again. -/
structure Codec where
  encode : MemoryCheckpoints → Bytes
  decode : Bytes → Option MemoryCheckpoints
  lossless : ∀ m, decode (encode m) = some m

/-- The path of a store, which has the key of its transfer in it. -/
abbrev StorePath := { p : FilePath // ∃ key, key ≠ "" ∧ p.fileName = some (key ++ ".json") }

namespace StorePath

def tmp (p : StorePath) : FilePath := p.1.withExtension "tmp"

lemma stem_json {key : String} (h : key ≠ "") : FilePath.stem (key ++ ".json") = key := by
  obtain ⟨c, cs, hkey⟩ : ∃ c cs, key.toList.reverse = c :: cs := by
    cases hr : key.toList.reverse with
    | nil => exact absurd (String.toList_inj.mp (List.reverse_eq_nil_iff.mp hr)) h
    | cons c cs => exact ⟨c, cs, rfl⟩
  have hdrop : ((key ++ ".json").toList.reverse.dropWhile (· ≠ '.')) = '.' :: c :: cs := by
    rw [String.toList_append, List.reverse_append, hkey]
    rfl
  rw [FilePath.stem, hdrop]
  change String.ofList (c :: cs).reverse = key
  rw [← hkey, List.reverse_reverse, String.ofList_toList]

lemma tmp_eq (p : StorePath) : ∃ init key, p.1.names = init ++ [key ++ ".json"] ∧ p.tmp.names = init ++
    [key ++ ".tmp"] ∧
    p.tmp.absolute = p.1.absolute := by
  obtain ⟨p, key, hkey, hname⟩ := p
  obtain ⟨habsolute, hnames⟩ := FilePath.withExtension_eq hname "tmp"
  refine ⟨p.names.dropLast, key, FilePath.fileName_eq_some hname, ?_, habsolute⟩
  rw [tmp, hnames, stem_json hkey, String.append_assoc]
  rfl

lemma tmp_injective {p q : StorePath} (h : p.tmp = q.tmp) : p = q := by
  obtain ⟨init, key, hnames, htmp, habsolute⟩ := p.tmp_eq
  obtain ⟨init', key', hnames', htmp', habsolute'⟩ := q.tmp_eq
  rw [h, htmp'] at htmp
  rw [h, habsolute'] at habsolute
  obtain ⟨rfl, hkey⟩ := List.append_inj' htmp rfl
  have hkey : key' = key := by
    have := congrArg String.toList (List.singleton_inj.mp hkey)
    rw [String.toList_append, String.toList_append, List.append_cancel_right_eq] at this
    exact String.toList_inj.mp this
  apply Subtype.ext
  apply FilePath.ext habsolute.symm
  rw [hnames, hnames', hkey]

lemma ne_tmp (p q : StorePath) : p.1 ≠ q.tmp := by
  obtain ⟨init, key, hnames, -, -⟩ := p.tmp_eq
  obtain ⟨init', key', -, htmp', -⟩ := q.tmp_eq
  intro h
  rw [h, htmp'] at hnames
  obtain ⟨-, hkey⟩ := List.append_inj' hnames rfl
  have := congrArg (fun s => s.toList.getLast?) (List.singleton_inj.mp hkey)
  simp at this

end StorePath

structure FileCheckpoints where
  path : StorePath
  mem : MemoryCheckpoints

/-- A store that a transfer has open, and how far it has come in saving it. -/
inductive Opened
  | idle (c : FileCheckpoints)
  | starting (c : FileCheckpoints)
  | writing (c : FileCheckpoints) (file written : ℕ)

def Opened.store : Opened → FileCheckpoints
  | idle c | starting c | writing c _ _ => c

structure Files where
  disk : Disk FilePath Bytes
  opened : ℕ → Option Opened

/-- What the transfers do with their stores, each of them in steps between which the others go on. A step
of a save may fail, a file may stay where it is although it was to be removed, and the process may be
killed at any time. -/
inductive FileMove
  | opens (h : ℕ) (p : StorePath)
  | records (h : ℕ) (cp : Checkpoint)
  | acknowledges (h : ℕ) (sync : ℕ)
  | creates (h : ℕ)
  | writes (h : ℕ) (n : ℕ)
  | renames (h : ℕ)
  | fails (h : ℕ)
  | clears (h : ℕ) (removed : Bool)
  | closes (h : ℕ)
  | crashes

namespace Files

variable (x : Codec)

def load (disk : Disk FilePath Bytes) (p : StorePath) : MemoryCheckpoints :=
  match disk.read p.1 with
  | some data => (x.decode data).getD .empty
  | none => .empty

def put (s : Files) (h : ℕ) (o : Opened) : Files :=
  { s with opened := Function.update s.opened h (some o) }

def idle (s : Files) (h : ℕ) : Option FileCheckpoints :=
  match s.opened h with
  | some (.idle c) => some c
  | _ => none

def step (s : Files) : FileMove → Option Files
  | .opens h p => if (s.opened h).isNone then some (s.put h (.idle ⟨p, load x s.disk p⟩)) else none
  | .records h cp => (s.idle h).map fun c => s.put h (.starting { c with mem := c.mem.record cp })
  | .acknowledges h sync =>
    (s.idle h).map fun c => s.put h (.starting { c with mem := c.mem.acknowledge sync })
  | .creates h =>
    match s.opened h with
    | some (.starting c) =>
      let (disk, i) := s.disk.truncate c.path.tmp []
      some (put { s with disk := disk } h (.writing c i 0))
    | _ => none
  | .writes h n =>
    match s.opened h with
    | some (.writing c i k) =>
      some (put { s with disk := s.disk.write i ((x.encode c.mem).take (k + n)) } h
        (.writing c i (k + n)))
    | _ => none
  | .renames h =>
    match s.opened h with
    | some (.writing c _ k) =>
      if (x.encode c.mem).length ≤ k then
        (s.disk.rename c.path.tmp c.path.1).map fun disk => put { s with disk := disk } h (.idle c)
      else none
    | _ => none
  | .fails h =>
    match s.opened h with
    | some (.starting c) | some (.writing c _ _) => some (s.put h (.idle c))
    | _ => none
  | .clears h removed =>
    (s.idle h).map fun c =>
      put { s with disk := if removed then s.disk.remove c.path.1 else s.disk } h
        (.idle { c with mem := c.mem.clear })
  | .closes h => some { s with opened := Function.update s.opened h none }
  | .crashes => some { s with opened := fun _ => none }

end Files

/-- What the files are for: for every transfer the checkpoints that its last successful step has left. -/
structure Shelf where
  kept : StorePath → MemoryCheckpoints
  hands : ℕ → Option FileCheckpoints

namespace Shelf

def alter (s : Shelf) (h : ℕ) (f : MemoryCheckpoints → MemoryCheckpoints) : Shelf :=
  { s with hands := Function.update s.hands h ((s.hands h).map fun c => { c with mem := f c.mem }) }

/-- The checkpoints of a transfer take the place of those that are kept. -/
def publish (s : Shelf) (h : ℕ) : Shelf :=
  match s.hands h with
  | some c => { s with kept := Function.update s.kept c.path c.mem }
  | none => s

def step (s : Shelf) : FileMove → Shelf
  | .opens h p => { s with hands := Function.update s.hands h (some ⟨p, s.kept p⟩) }
  | .records h cp => s.alter h fun m => m.record cp
  | .acknowledges h sync => s.alter h fun m => m.acknowledge sync
  | .creates _ | .writes _ _ | .fails _ => s
  | .renames h => s.publish h
  | .clears h removed =>
    if removed then (s.alter h fun m => m.clear).publish h else s.alter h fun m => m.clear
  | .closes h => { s with hands := Function.update s.hands h none }
  | .crashes => { s with hands := fun _ => none }

end Shelf

namespace Files

section Disks

variable {x : Codec} {d d' : Disk FilePath Bytes}

lemma load_congr {p : StorePath} (h : d'.read p.1 = d.read p.1) :
    load x d' p = load x d p := by rw [load, load, h]

lemma load_saved {p : StorePath} {m : MemoryCheckpoints} (h : d.read p.1 = some (x.encode m)) :
    load x d p = m := by
  rw [load, h]
  simp [x.lossless]

lemma load_missing {p : StorePath} (h : d.read p.1 = none) : load x d p = .empty := by rw [load, h]

end Disks

variable {x : Codec} {s s' : Files}

lemma put_same (s : Files) (h : ℕ) (o : Opened) : (s.put h o).opened h = some o := by simp [put]

lemma put_other (s : Files) {h h' : ℕ} (hne : h' ≠ h) (o : Opened) :
    (s.put h o).opened h' = s.opened h' := by
  simp [put, hne]

/-- A file that is being written holds what has been written of the checkpoints, and no two
transfers write one file. -/
structure Sound (x : Codec) (s : Files) : Prop where
  drafts : ∀ h c i k, s.opened h = some (.writing c i k) →
    s.disk.names c.path.tmp = some i ∧ s.disk.content i = (x.encode c.mem).take k
  lone : ∀ h h' c c' i i' k k', s.opened h = some (.writing c i k) →
    s.opened h' = some (.writing c' i' k') →
    c.path = c'.path → h = h'

/-- A transfer starts to write only while no other one writes to the same store. -/
def Alone (s : Files) : FileMove → Prop
  | .creates h => ∀ c, s.opened h = some (.starting c) → ∀ h' c' i k,
    s.opened h' = some (.writing c' i k) → c'.path ≠ c.path
  | _ => True

/-- Those that write go on to, and what they have written is untouched. -/
lemma Sound.frame (hs : Sound x s) (hopened : ∀ h c i k, s'.opened h = some (.writing c i k) →
    s.opened h = some (.writing c i k) ∧ s'.disk.names c.path.tmp = s.disk.names c.path.tmp ∧
      s'.disk.content i = s.disk.content i) : Sound x s' := by
  refine ⟨fun h c i k ho => ?_, fun h h' c c' i i' k k' ho ho' => ?_⟩
  · obtain ⟨ho, hnames, hcontent⟩ := hopened h c i k ho
    rw [hnames, hcontent]
    exact hs.drafts h c i k ho
  · exact hs.lone h h' c c' i i' k k' (hopened h c i k ho).1 (hopened h' c' i' k' ho').1

/-- The same with one transfer that writes from now on. -/
lemma Sound.write (hs : Sound x s) {disk : Disk FilePath Bytes} {h : ℕ} {c : FileCheckpoints} {i k : ℕ}
    (halone : ∀ h' c' i' k', s.opened h' = some (.writing c' i' k') → h' ≠ h → c'.path ≠ c.path)
    (hdraft : disk.names c.path.tmp = some i ∧ disk.content i = (x.encode c.mem).take k)
    (hother : ∀ h' c' i' k', s.opened h' = some (.writing c' i' k') → h' ≠ h →
      disk.names c'.path.tmp = s.disk.names c'.path.tmp ∧ disk.content i' = s.disk.content i') :
    Sound x (put { s with disk := disk } h (.writing c i k)) := by
  have hcases (h' : ℕ) {c' : FileCheckpoints} {i' k' : ℕ}
      (ho : (put { s with disk := disk } h (.writing c i k)).opened h' = some (.writing c' i' k')) :
      h' = h ∧ c' = c ∧ i' = i ∧ k' = k ∨ h' ≠ h ∧ s.opened h' = some (.writing c' i' k') := by
    by_cases heq : h' = h
    · subst heq
      rw [put_same] at ho
      cases ho
      exact .inl ⟨rfl, rfl, rfl, rfl⟩
    · rw [put_other _ heq] at ho
      exact .inr ⟨heq, ho⟩
  refine ⟨fun h' c' i' k' ho => ?_, fun h' h'' c' c'' i' i'' k' k'' ho ho' hpath => ?_⟩
  · rcases hcases h' ho with ⟨rfl, rfl, rfl, rfl⟩ | ⟨hne, ho⟩
    · exact hdraft
    · obtain ⟨hnames, hcontent⟩ := hother h' c' i' k' ho hne
      exact ⟨hnames.trans (hs.drafts h' c' i' k' ho).1, hcontent.trans (hs.drafts h' c' i' k' ho).2⟩
  · rcases hcases h' ho with ⟨rfl, rfl, -, -⟩ | ⟨hne, hwriting⟩
    · rcases hcases h'' ho' with ⟨rfl, -⟩ | ⟨hne', ho'⟩
      · rfl
      · exact absurd hpath.symm (halone h'' c'' i'' k'' ho' hne')
    · rcases hcases h'' ho' with ⟨rfl, rfl, -, -⟩ | ⟨-, ho'⟩
      · exact absurd hpath (halone h' c' i' k' hwriting hne)
      · exact hs.lone h' h'' c' c'' i' i'' k' k'' hwriting ho' hpath

def shelf (x : Codec) (s : Files) : Shelf := ⟨load x s.disk, fun h => (s.opened h).map Opened.store⟩

lemma idle_iff {h : ℕ} {c : FileCheckpoints} : s.idle h = some c ↔ s.opened h = some (.idle c) := by
  rw [idle]
  split
  · rename_i c' ho
    rw [ho]
    simp
  · rename_i hnot
    simp only [reduceCtorEq, false_iff]
    exact hnot c

lemma hands_put (s : Files) (h : ℕ) (o : Opened) :
    (s.put h o).shelf x =
    { s.shelf x with hands := Function.update (s.shelf x).hands h (some o.store) } := by
  refine congrArg (Shelf.mk _) ?_
  funext h'
  by_cases heq : h' = h
  · subst heq
    simp [put, shelf]
  · simp [put, shelf, heq]

/-- Nothing changes in what is kept when a transfer goes from one step of a save to the next. -/
lemma shelf_put {h : ℕ} {o o' : Opened} (ho : s.opened h = some o) (hstore : o'.store = o.store) :
    (s.put h o').shelf x = s.shelf x := by
  rw [hands_put]
  have hsame : Function.update (s.shelf x).hands h (some o'.store) = (s.shelf x).hands := by
    rw [Function.update_eq_self_iff, hstore]
    exact (congrArg (Option.map Opened.store) ho).symm
  rw [hsame]

lemma shelf_move (disk : Disk FilePath Bytes) {h : ℕ} {o : Opened}
    (ho : s.opened h = some o) (o' : Opened) (hstore : o'.store = o.store) :
    (put { s with disk := disk } h o').shelf x = shelf x { s with disk := disk } :=
  shelf_put ho hstore

lemma shelf_disk {disk : Disk FilePath Bytes} (h : ∀ p : StorePath, disk.read p.1 = s.disk.read p.1) :
    shelf x { s with disk := disk } = s.shelf x := by
  refine congrArg (Shelf.mk · _) ?_
  funext p
  exact load_congr (h p)

lemma Sound.rest (hs : Sound x s) {disk : Disk FilePath Bytes} {h : ℕ} {o : Opened}
    (ho : ∀ c i k, o ≠ .writing c i k)
    (hdisk : ∀ h' c i k, s.opened h' = some (.writing c i k) → h' ≠ h →
      disk.names c.path.tmp = s.disk.names c.path.tmp ∧ disk.content i = s.disk.content i) :
    Sound x (put { s with disk := disk } h o) := by
  apply hs.frame
  intro h' c i k hwriting
  by_cases heq : h' = h
  · subst heq
    rw [put_same] at hwriting
    exact absurd (Option.some.inj hwriting) (ho c i k)
  · rw [put_other _ heq] at hwriting
    exact ⟨hwriting, hdisk h' c i k hwriting heq⟩

lemma Sound.other (hs : Sound x s) {h h' : ℕ} {c c' : FileCheckpoints} {i i' k k' : ℕ}
    (ho : s.opened h = some (.writing c i k))
    (ho' : s.opened h' = some (.writing c' i' k')) (hne : h' ≠ h) :
    c'.path ≠ c.path := fun hpath => hne (hs.lone h' h c' c i' i k' k ho' ho hpath)

/-- A file that one transfer writes is none that another one writes. -/
lemma Sound.file_ne (hs : Sound x s) {h h' : ℕ} {c c' : FileCheckpoints} {i i' k k' : ℕ}
    (ho : s.opened h = some (.writing c i k)) (ho' : s.opened h' = some (.writing c' i' k'))
    (hne : h' ≠ h) : i' ≠ i := by
  rintro rfl
  apply hs.other ho ho' hne
  apply StorePath.tmp_injective
  exact s.disk.single _ _ i' (hs.drafts h' c' i' k' ho').1 (hs.drafts h c i' k ho).1

lemma step_sound (hs : Sound x s) {m : FileMove} (ha : s.Alone m) (hm : step x s m = some s') :
    Sound x s' := by
  cases m with
  | opens h p =>
    simp only [step] at hm
    split at hm
    · cases hm
      exact hs.rest (by simp) fun _ _ _ _ _ _ => ⟨rfl, rfl⟩
    · cases hm
  | records h cp =>
    obtain ⟨c, -, rfl⟩ := Option.map_eq_some_iff.mp hm
    exact hs.rest (by simp) fun _ _ _ _ _ _ => ⟨rfl, rfl⟩
  | acknowledges h sync =>
    obtain ⟨c, -, rfl⟩ := Option.map_eq_some_iff.mp hm
    exact hs.rest (by simp) fun _ _ _ _ _ _ => ⟨rfl, rfl⟩
  | creates h =>
    simp only [step] at hm
    split at hm
    · rename_i c ho
      cases hm
      have hapart {h' : ℕ} {c' : FileCheckpoints} {i' k' : ℕ}
          (ho' : s.opened h' = some (.writing c' i' k')) :
          c'.path.tmp ≠ c.path.tmp := fun htmp => ha c ho h' c' i' k' ho' (StorePath.tmp_injective htmp)
      refine hs.write (fun h' c' i' k' ho' _ => ha c ho h' c' i' k' ho')
        ⟨Disk.names_truncate _ _ _, ?_⟩ ?_
      · rw [Disk.content_truncate, List.take_zero]
      · intro h' c' i' k' ho' _
        refine ⟨Disk.names_truncate_of_ne (hapart ho') _, ?_⟩
        exact Disk.content_truncate_of_ne (hapart ho') _ (hs.drafts h' c' i' k' ho').1
    · cases hm
  | writes h n =>
    simp only [step] at hm
    split at hm
    · rename_i c i k ho
      cases hm
      refine hs.write (fun h' c' i' k' ho' hne => hs.other ho ho' hne)
        ⟨(hs.drafts h c i k ho).1, if_pos rfl⟩ ?_
      intro h' c' i' k' ho' hne
      exact ⟨rfl, if_neg (hs.file_ne ho ho' hne)⟩
    · cases hm
  | renames h =>
    simp only [step] at hm
    split at hm
    · rename_i c i k ho
      split at hm
      · obtain ⟨disk, hdisk, rfl⟩ := Option.map_eq_some_iff.mp hm
        refine hs.rest (by simp) fun h' c' i' k' ho' hne => ⟨?_, ?_⟩
        · apply Disk.names_rename_of_ne hdisk
          · exact fun htmp => hs.other ho ho' hne (StorePath.tmp_injective htmp)
          · exact (StorePath.ne_tmp c.path c'.path).symm
        · rw [(Disk.rename_eq_some hdisk).2.2.1]
      · cases hm
    · cases hm
  | fails h =>
    simp only [step] at hm
    split at hm
    · cases hm
      exact hs.rest (by simp) fun _ _ _ _ _ _ => ⟨rfl, rfl⟩
    · cases hm
      exact hs.rest (by simp) fun _ _ _ _ _ _ => ⟨rfl, rfl⟩
    · cases hm
  | clears h removed =>
    obtain ⟨c, -, rfl⟩ := Option.map_eq_some_iff.mp hm
    refine hs.rest (by simp) fun h' c' i' k' _ _ => ?_
    cases removed with
    | true => exact ⟨Disk.names_remove_of_ne _ (StorePath.ne_tmp c.path c'.path).symm, rfl⟩
    | false => exact ⟨rfl, rfl⟩
  | closes h =>
    cases hm
    refine hs.frame fun h' c i k hwriting => ?_
    by_cases heq : h' = h
    · subst heq
      simp at hwriting
    · simp only [Function.update_of_ne heq] at hwriting
      exact ⟨hwriting, rfl, rfl⟩
  | crashes =>
    cases hm
    exact hs.frame fun h' c i k hwriting => by cases hwriting

lemma shelf_idle {h : ℕ} {c : FileCheckpoints} (ho : s.idle h = some c) : (s.shelf x).hands h = some c :=
  congrArg (Option.map Opened.store) (idle_iff.mp ho)

lemma step_shelf (hs : Sound x s) {m : FileMove} (hm : step x s m = some s') :
    s'.shelf x = (s.shelf x).step m := by
  cases m with
  | opens h p =>
    simp only [step] at hm
    split at hm
    · cases hm
      exact hands_put s h _
    · cases hm
  | records h cp =>
    obtain ⟨c, ho, rfl⟩ := Option.map_eq_some_iff.mp hm
    rw [hands_put, Shelf.step, Shelf.alter, shelf_idle ho]
    rfl
  | acknowledges h sync =>
    obtain ⟨c, ho, rfl⟩ := Option.map_eq_some_iff.mp hm
    rw [hands_put, Shelf.step, Shelf.alter, shelf_idle ho]
    rfl
  | creates h =>
    simp only [step] at hm
    split at hm
    · rename_i c ho
      cases hm
      rw [shelf_move _ ho (.writing c _ _) rfl]
      exact shelf_disk fun p => Disk.read_truncate_of_ne (p.ne_tmp c.path) []
    · cases hm
  | writes h n =>
    simp only [step] at hm
    split at hm
    · rename_i c i k ho
      cases hm
      rw [shelf_move _ ho (.writing c i (k + n)) rfl]
      refine shelf_disk fun p => ?_
      apply Disk.read_write_of_ne
      intro hp
      exact p.ne_tmp c.path (s.disk.single _ _ i hp (hs.drafts h c i k ho).1)
    · cases hm
  | renames h =>
    simp only [step] at hm
    split at hm
    · rename_i c i k ho
      split at hm
      · rename_i hall
        obtain ⟨disk, hdisk, rfl⟩ := Option.map_eq_some_iff.mp hm
        have hhands : (s.shelf x).hands h = some c := congrArg (Option.map Opened.store) ho
        rw [shelf_move disk ho (.idle c) rfl, Shelf.step, Shelf.publish, hhands]
        refine congrArg (Shelf.mk · _) ?_
        funext p
        by_cases heq : p = c.path
        · subst heq
          obtain ⟨hnames, hcontent⟩ := hs.drafts h c i k ho
          rw [Function.update_self]
          apply load_saved
          rw [Disk.read_rename_self hdisk, Disk.read, hnames, Option.map_some, hcontent,
            List.take_of_length_le hall]
        · rw [Function.update_of_ne heq]
          apply load_congr
          exact Disk.read_rename_of_ne hdisk (p.ne_tmp c.path) fun hpath => heq (Subtype.ext hpath)
      · cases hm
    · cases hm
  | fails h =>
    simp only [step] at hm
    split at hm
    · rename_i c ho
      cases hm
      exact shelf_put ho rfl
    · rename_i c i k ho
      cases hm
      exact shelf_put ho rfl
    · cases hm
  | clears h removed =>
    obtain ⟨c, ho, rfl⟩ := Option.map_eq_some_iff.mp hm
    have hhands := shelf_idle (x := x) ho
    rw [hands_put, Shelf.step]
    cases removed with
    | false =>
      rw [Shelf.alter, hhands]
      rfl
    | true =>
      simp only [if_true, Shelf.alter, hhands, Option.map_some, Shelf.publish, Function.update_self]
      refine congrArg (Shelf.mk · _) ?_
      funext p
      by_cases heq : p = c.path
      · subst heq
        rw [Function.update_self]
        exact load_missing (Disk.read_remove_self _ _)
      · rw [Function.update_of_ne heq]
        exact load_congr (Disk.read_remove_of_ne _ fun hpath => heq (Subtype.ext hpath))
  | closes h =>
    cases hm
    refine congrArg (Shelf.mk _) ?_
    funext h'
    by_cases heq : h' = h
    · subst heq
      simp [shelf]
    · simp [shelf, heq]
  | crashes =>
    cases hm
    rfl

/-- The files do what the shelf does, however the steps of the transfers are interleaved, which of
them fail and when the process is killed: each store holds what its last successful save or
removal has left. -/
theorem files_refine (x : Codec) {s₀ s : Files} (hclosed : ∀ h, s₀.opened h = none) (ms : List FileMove)
    (halone : Each (after (step x)) Alone s₀ ms) (hruns : ms.foldlM (step x) s₀ = some s) :
    s.shelf x = ms.foldl Shelf.step (s₀.shelf x) := by
  have hs : Sound x s₀ := by
    refine ⟨fun h c i k ho => ?_, fun h h' c c' i i' k k' ho => ?_⟩
    · rw [hclosed h] at ho
      cases ho
    · rw [hclosed h] at ho
      cases ho
  clear hclosed
  induction ms generalizing s₀ with
  | nil =>
    cases hruns
    rfl
  | cons m ms ih =>
    rw [List.foldlM_cons] at hruns
    obtain ⟨s₁, hm, hruns⟩ := Option.bind_eq_some_iff.mp hruns
    have hafter : after (step x) s₀ m = s₁ := by rw [after, hm, Option.getD_some]
    rw [List.foldl_cons, ← step_shelf hs hm]
    exact ih (hafter ▸ halone.2) hruns (step_sound hs halone.1 hm)

def hand : FileMove → Option ℕ
  | .opens h _ | .records h _ | .acknowledges h _ | .creates h | .writes h _ | .renames
    h | .fails h | .clears h _
  | .closes h => some h
  | .crashes => none

lemma step_other {m : FileMove} (hm : step x s m = some s') {h' : ℕ} (hne : hand m ≠ some h')
    (hnone : s.opened h' = none) :
    s'.opened h' = none := by
  have hput (disk : Disk FilePath Bytes) (h : ℕ) (o : Opened) (hh : hand m = some h) :
      (put { s with disk := disk } h o).opened h' = none := by
    rw [put_other _ fun heq => hne (hh.trans (congrArg some heq.symm))]
    exact hnone
  cases m with
  | opens h p =>
    simp only [step] at hm
    split at hm <;> cases hm
    exact hput _ h _ rfl
  | records h cp =>
    obtain ⟨c, -, rfl⟩ := Option.map_eq_some_iff.mp hm
    exact hput _ h _ rfl
  | acknowledges h sync =>
    obtain ⟨c, -, rfl⟩ := Option.map_eq_some_iff.mp hm
    exact hput _ h _ rfl
  | creates h =>
    simp only [step] at hm
    split at hm <;> cases hm
    exact hput _ h _ rfl
  | writes h n =>
    simp only [step] at hm
    split at hm <;> cases hm
    exact hput _ h _ rfl
  | renames h =>
    simp only [step] at hm
    split at hm
    · split at hm
      · obtain ⟨disk, -, rfl⟩ := Option.map_eq_some_iff.mp hm
        exact hput _ h _ rfl
      · cases hm
    · cases hm
  | fails h =>
    simp only [step] at hm
    split at hm <;> cases hm <;> exact hput _ h _ rfl
  | clears h removed =>
    obtain ⟨c, -, rfl⟩ := Option.map_eq_some_iff.mp hm
    exact hput _ h _ rfl
  | closes h =>
    cases hm
    exact (Function.update_of_ne (fun heq => hne (congrArg some heq.symm)) _ _).trans hnone
  | crashes =>
    cases hm
    rfl

/-- A transfer is alone with its stores as long as it is the only one. -/
lemma alone_only (h : ℕ) {ms : List FileMove} (hms : ∀ m ∈ ms, ∀ h', hand m = some h' → h' = h)
    (hs : ∀ h', h' ≠ h → s.opened h' = none) : Each (after (step x)) Alone s ms := by
  induction ms generalizing s with
  | nil => trivial
  | cons m ms ih =>
    rw [List.forall_mem_cons] at hms
    refine ⟨?_, ih hms.2 fun h' hne => ?_⟩
    · cases m with
      | creates h₀ =>
        intro c ho h' c' i k ho'
        obtain rfl := hms.1 h₀ rfl
        by_cases heq : h' = h₀
        · subst heq
          rw [ho] at ho'
          cases ho'
        · rw [hs h' heq] at ho'
          cases ho'
      | _ => trivial
    · rw [after]
      cases hm : step x s m with
      | none => exact hs h' hne
      | some s' =>
        rw [Option.getD_some]
        exact step_other hm (fun hh => hne (hms.1 h' hh)) (hs h' hne)

end Files

namespace Codec

def numeral (n : ℕ) (rest : List Char) : List Char := Nat.toDigits 10 n ++ rest

def pointText (c : Checkpoint) (rest : List Char) : List Char :=
  '"' :: numeral c.sync
    ('"' :: (":\x7b\"sync\":".toList ++ numeral c.sync (',' :: ("\"file_offset\":".toList ++
    numeral c.fileOffset
    (',' :: ("\"data_bytes\":".toList ++ numeral c.dataBytes (',' :: ("\"articles\":".toList ++
      numeral c.articles ('\x7d' :: rest)))))))))

def laterText : List Checkpoint → List Char → List Char
  | [], rest => '\x7d' :: rest
  | c :: cs, rest => ',' :: pointText c (laterText cs rest)

def pointsText : List Checkpoint → List Char → List Char
  | [], rest => '\x7d' :: rest
  | c :: cs, rest => pointText c (laterText cs rest)

def text (m : MemoryCheckpoints) : List Char :=
  "\x7b\"points\":\x7b".toList ++ pointsText m.points (",\"acknowledged\":".toList ++
    numeral m.acknowledged ['\x7d'])

lemma numeral_cut {n m : ℕ} {c d : Char} {xs ys : List Char} (hc : c.isDigit = false)
    (hd : d.isDigit = false) (h : numeral n (c :: xs) = numeral m (d :: ys)) :
    n = m ∧ c :: xs = d :: ys := by
  have hdigits (k : ℕ) : ∀ a ∈ Nat.toDigits 10 k, a.isDigit = true :=
    fun a ha => Nat.isDigit_of_mem_toDigits (by omega) (by omega) ha
  have htake := congrArg (List.takeWhile Char.isDigit) h
  have hdrop := congrArg (List.dropWhile Char.isDigit) h
  rw [numeral, numeral, List.takeWhile_append_of_pos (hdigits n),
    List.takeWhile_append_of_pos (hdigits m), List.takeWhile_cons_of_neg (by simp [hc]),
    List.takeWhile_cons_of_neg (by simp [hd]), List.append_nil, List.append_nil] at htake
  rw [numeral, numeral, List.dropWhile_append_of_pos (hdigits n),
    List.dropWhile_append_of_pos (hdigits m), List.dropWhile_cons_of_neg (by simp [hc]),
    List.dropWhile_cons_of_neg (by simp [hd])] at hdrop
  refine ⟨?_, hdrop⟩
  have hinj : Function.LeftInverse (Nat.ofDigitChars 10 · 0) (Nat.toDigits 10) :=
    fun k => Nat.ofDigitChars_ten_toDigits
  exact hinj.injective htake

lemma pointText_cut {c d : Checkpoint} {xs ys : List Char} (h : pointText c xs = pointText d ys) :
    c = d ∧ xs = ys := by
  rw [pointText, pointText, List.cons_inj_right] at h
  obtain ⟨hsync, h⟩ := numeral_cut rfl rfl h
  rw [List.cons_inj_right, List.append_right_inj] at h
  obtain ⟨-, h⟩ := numeral_cut rfl rfl h
  rw [List.cons_inj_right, List.append_right_inj] at h
  obtain ⟨hoffset, h⟩ := numeral_cut rfl rfl h
  rw [List.cons_inj_right, List.append_right_inj] at h
  obtain ⟨hbytes, h⟩ := numeral_cut rfl rfl h
  rw [List.cons_inj_right, List.append_right_inj] at h
  obtain ⟨harticles, h⟩ := numeral_cut rfl rfl h
  have hrest : xs = ys := (List.cons.inj h).2
  obtain ⟨sync, fileOffset, dataBytes, articles⟩ := c
  obtain ⟨sync', fileOffset', dataBytes', articles'⟩ := d
  obtain ⟨rfl, rfl, rfl, rfl⟩ :
      sync = sync' ∧ fileOffset = fileOffset' ∧ dataBytes = dataBytes' ∧ articles = articles' :=
    ⟨hsync, hoffset, hbytes, harticles⟩
  exact ⟨rfl, hrest⟩

lemma laterText_cut {cs ds : List Checkpoint} {xs ys : List Char}
    (h : laterText cs xs = laterText ds ys) :
    cs = ds ∧ xs = ys := by
  induction cs generalizing ds with
  | nil =>
    cases ds with
    | nil => exact ⟨rfl, (List.cons.inj h).2⟩
    | cons d ds => exact absurd (List.cons.inj h).1 (by decide)
  | cons c cs ih =>
    cases ds with
    | nil => exact absurd (List.cons.inj h).1 (by decide)
    | cons d ds =>
      obtain ⟨rfl, hrest⟩ := pointText_cut (List.cons.inj h).2
      obtain ⟨rfl, hxs⟩ := ih hrest
      exact ⟨rfl, hxs⟩

lemma pointsText_cut {cs ds : List Checkpoint} {xs ys : List Char}
    (h : pointsText cs xs = pointsText ds ys) :
    cs = ds ∧ xs = ys := by
  cases cs with
  | nil =>
    cases ds with
    | nil => exact ⟨rfl, (List.cons.inj h).2⟩
    | cons d ds => exact absurd (List.cons.inj h).1 (by decide)
  | cons c cs =>
    cases ds with
    | nil => exact absurd (List.cons.inj h).1 (by decide)
    | cons d ds =>
      obtain ⟨rfl, hrest⟩ := pointText_cut h
      obtain ⟨rfl, hxs⟩ := laterText_cut hrest
      exact ⟨rfl, hxs⟩

lemma text_injective {m m' : MemoryCheckpoints} (h : text m = text m') : m = m' := by
  obtain ⟨hpoints, hrest⟩ := pointsText_cut ((List.append_right_inj _).mp h)
  have hacknowledged : m.acknowledged = m'.acknowledged :=
    (numeral_cut rfl rfl ((List.append_right_inj _).mp hrest)).1
  cases m
  cases m'
  cases hpoints
  cases hacknowledged
  rfl

def bytes (m : MemoryCheckpoints) : Bytes := (String.ofList (text m)).toByteArray.data.toList

lemma bytes_injective {m m' : MemoryCheckpoints} (h : bytes m = bytes m') : m = m' := by
  apply text_injective
  apply String.ofList_injective
  apply String.toByteArray_inj.mp
  exact ByteArray.ext (Array.toList_inj.mp h)

open Classical in
/-- The text in JSON of the checkpoints; what is not such a text is refused. -/
noncomputable def json : Codec where
  encode := bytes
  decode data := if h : ∃ m, bytes m = data then some h.choose else none
  lossless m := by
    have h : ∃ m', bytes m' = bytes m := ⟨m, rfl⟩
    rw [dif_pos h, bytes_injective h.choose_spec]

end Codec

namespace Files

def samplePath : StorePath :=
  ⟨FilePath.ofString "checkpoints/S/A_F_7.json", "A_F_7", by decide, by decide⟩

/-- A point is saved, and the process is killed when it has written three bytes of the next save. -/
def killed : List FileMove :=
  [.opens 0 samplePath, .records 0 ⟨1, 5, 5, 1⟩, .creates 0, .writes 0 500, .renames 0,
    .records 0 ⟨2, 9, 9, 2⟩, .creates 0, .writes 0 3, .crashes]

def blank : Files := ⟨.blank [], fun _ => none⟩

theorem files_refine_killed :
    ∃ s, killed.foldlM (step Codec.json) blank = some s ∧
      s.shelf Codec.json = killed.foldl Shelf.step (blank.shelf Codec.json) := by
  have hruns : (killed.foldlM (step Codec.json) blank).isSome = true := by decide +kernel
  obtain ⟨s, hs⟩ := Option.isSome_iff_exists.mp hruns
  refine ⟨s, hs, files_refine Codec.json (fun _ => rfl) killed (alone_only 0 ?_ fun _ _ => rfl) hs⟩
  intro m hm h' hh
  have hall : ∀ m ∈ killed, hand m = some 0 ∨ hand m = none := by decide
  rcases hall m hm with h0 | h0
  · exact (Option.some.inj (h0.symm.trans hh)).symm
  · rw [h0] at hh
    cases hh

end Files

end PesitWizard.Io
