import PesitWizard.Io.CheckpointFiles
import PesitWizard.Node.Reception

/-! The files that hold the checkpoints of the transfers of a listener, and which transfers share one. -/

namespace PesitWizard.Node

open PesitWizard.Core Io Library

/-- A transfer as a listener is asked for it. -/
structure Requested where
  session : SessionInfo
  file : FileSpec
  tid : ℕ
  direction : TransferDirection

namespace Requested

def identity (x : Requested) : String × String × ℕ × TransferDirection :=
  (x.session.requester, x.file.fileName, x.tid, x.direction)

def key (x : Requested) : String := restartKey x.session x.file x.tid

def checkpointFile (dir : FilePath) (l : Listener) (x : Requested) : FilePath :=
  (dir.join (FilePath.ofString l.serverId)).join (FilePath.ofString (x.key ++ ".json"))

def names (x : Requested) : List Char := x.session.requester.toList ++ '_' :: x.file.fileName.toList

/-- The checkpoints of the two transfers are in two files, and what is done to the first does not
touch the second. -/
structure Apart (dir : FilePath) (l : Listener) (x y : Requested) : Prop where
  file : x.checkpointFile dir l ≠ y.checkpointFile dir l
  kept : ∀ (s t : Site) (store : MemoryCheckpoints),
    s.move (.checkpoint l.serverId x.key store) = some t →
    t.checkpoints l.serverId y.key = s.checkpoints l.serverId y.key

end Requested

def keyChar (c : Char) : Char := if c.isAlphanum || c == '_' || c == '-' then c else '_'

/-- The characters that a key shows as they are, but for the one that it shows all others as. -/
def Shown (c : Char) : Prop := c.isAlphanum = true ∨ c = '-'

def AlikeChars (c d : Char) : Prop := c = d ∨ ¬ Shown c ∧ ¬ Shown d

lemma keyChar_of_shown {c : Char} (h : Shown c) : keyChar c = c := by
  obtain h | rfl := h
  · simp [keyChar, h]
  · rfl

lemma keyChar_of_not_shown {c : Char} (h : ¬ Shown c) : keyChar c = '_' := by
  obtain ⟨halpha, hdash⟩ := not_or.mp h
  by_cases hc : c = '_'
  · rw [hc]
    rfl
  · simp [keyChar, halpha, hdash, hc]

lemma not_shown_keyChar {c : Char} (h : ¬ Shown c) : ¬ Shown (keyChar c) := by
  rw [keyChar_of_not_shown h, Shown]
  decide

lemma keyChar_eq_iff (c d : Char) : keyChar c = keyChar d ↔ AlikeChars c d := by
  constructor
  · intro h
    by_cases hc : Shown c
    · by_cases hd : Shown d
      · rw [keyChar_of_shown hc, keyChar_of_shown hd] at h
        exact .inl h
      · rw [keyChar_of_shown hc] at h
        exact absurd (h ▸ hc) (not_shown_keyChar hd)
    · by_cases hd : Shown d
      · rw [keyChar_of_shown hd] at h
        exact absurd (h ▸ hd) (not_shown_keyChar hc)
      · exact .inr ⟨hc, hd⟩
  · rintro (rfl | ⟨hc, hd⟩)
    · rfl
    · rw [keyChar_of_not_shown hc, keyChar_of_not_shown hd]

lemma keyChar_ne_slash (c : Char) : keyChar c ≠ '/' := by
  intro h
  by_cases hc : Shown c
  · rw [keyChar_of_shown hc] at h
    rw [h, Shown] at hc
    exact absurd hc (by decide)
  · rw [keyChar_of_not_shown hc] at h
    exact absurd h (by decide)

lemma keyChar_digit {c : Char} (h : c.isDigit = true) : keyChar c = c :=
  keyChar_of_shown (.inl (by simp [Char.isAlphanum, h]))

lemma map_keyChar_eq_iff (cs ds : List Char) :
    cs.map keyChar = ds.map keyChar ↔ List.Forall₂ AlikeChars cs ds := by
  rw [← List.forall₂_eq_eq_eq, List.forall₂_map_left_iff, List.forall₂_map_right_iff]
  simp only [keyChar_eq_iff]

lemma first_cut_inj {α : Type} {a : α} {cs ds xs ys : List α} (hcs : a ∉ cs) (hds : a ∉ ds) :
    cs ++ a :: xs = ds ++ a :: ys ↔ cs = ds ∧ xs = ys := by
  induction cs generalizing ds with
  | nil =>
    cases ds with
    | nil => simp
    | cons d ds => simp_all
  | cons c cs ih =>
    cases ds with
    | nil => simp_all [eq_comm]
    | cons d ds =>
      rw [List.cons_append, List.cons_append, List.cons.injEq, List.cons.injEq,
        ih (List.not_mem_of_not_mem_cons hcs) (List.not_mem_of_not_mem_cons hds), and_assoc]

lemma last_cut_inj {α : Type} {a : α} {xs ys cs ds : List α} (hcs : a ∉ cs) (hds : a ∉ ds) :
    xs ++ a :: cs = ys ++ a :: ds ↔ xs = ys ∧ cs = ds := by
  have hreverse (us vs : List α) : (us ++ a :: vs).reverse = vs.reverse ++ a :: us.reverse := by simp
  rw [← List.reverse_inj, hreverse, hreverse,
    first_cut_inj (mt List.mem_reverse.mp hcs) (mt List.mem_reverse.mp hds), List.reverse_inj,
    List.reverse_inj]
  exact and_comm

lemma toDigits_injective : Function.Injective (Nat.toDigits 10) :=
  Function.LeftInverse.injective fun n => (Nat.ofDigitChars_ten_toDigits (n := n))

lemma ofString_name {name : String} (hslash : '/' ∉ name.toList) (hne : name ≠ "") (hdot : name ≠ ".") :
    (FilePath.ofString name).absolute = false ∧ (FilePath.ofString name).names = [name] := by
  constructor
  · have hhead : name.toList.head? ≠ some '/' := fun h => hslash (List.mem_of_mem_head? h)
    simpa [FilePath.ofString] using hhead
  · simp [FilePath.ofString, List.splitOn_eq_singleton hslash, hne, hdot]

namespace Requested

lemma toList_key (x : Requested) :
    x.key.toList = x.names.map keyChar ++ '_' :: Nat.toDigits 10 x.tid := by
  have hkey : x.key.toList = (x.names ++ '_' :: Nat.toDigits 10 x.tid).map keyChar := by
    rw [key, restartKey, String.toList_ofList]
    refine congrArg (List.map keyChar) ?_
    simp [names, toString]
  have hdigits : (Nat.toDigits 10 x.tid).map keyChar = Nat.toDigits 10 x.tid := by
    conv_rhs => rw [← List.map_id (Nat.toDigits 10 x.tid)]
    exact List.map_congr_left fun c hc =>
      keyChar_digit (Nat.isDigit_of_mem_toDigits (by omega) (by omega) hc)
  rw [hkey, List.map_append, List.map_cons, hdigits]
  rfl

/-- The number of a transfer is what stands behind the last underscore of its key. -/
lemma key_eq_iff (x y : Requested) :
    x.key = y.key ↔ List.Forall₂ AlikeChars x.names y.names ∧ x.tid = y.tid := by
  rw [← String.toList_inj, toList_key, toList_key,
    last_cut_inj Nat.underscore_not_in_toDigits Nat.underscore_not_in_toDigits, map_keyChar_eq_iff]
  exact and_congr_right fun _ => toDigits_injective.eq_iff

lemma key_file (x : Requested) :
    (FilePath.ofString (x.key ++ ".json")).absolute = false ∧
      (FilePath.ofString (x.key ++ ".json")).names = [x.key ++ ".json"] := by
  apply ofString_name
  · rw [String.toList_append, toList_key]
    intro h
    obtain h | h := List.mem_append.mp h
    · obtain h | h := List.mem_append.mp h
      · obtain ⟨c, -, hc⟩ := List.mem_map.mp h
        exact keyChar_ne_slash c hc
      · obtain h | h := List.mem_cons.mp h
        · exact absurd h (by decide)
        · exact absurd (Nat.isDigit_of_mem_toDigits (by omega) (by omega) h) (by decide)
    · exact absurd h (by decide)
  · intro h
    have hlist := congrArg String.toList h
    rw [String.toList_append, toList_key] at hlist
    simp at hlist
  · intro h
    have hlist := congrArg List.length (congrArg String.toList h)
    rw [String.toList_append, toList_key] at hlist
    simp at hlist
    omega

lemma checkpointFile_names (dir : FilePath) (l : Listener) (x : Requested) :
    (x.checkpointFile dir l).names = (dir.join (FilePath.ofString l.serverId)).names ++
    [x.key ++ ".json"] := by
  rw [checkpointFile, FilePath.names_join _ x.key_file.1, x.key_file.2]

lemma checkpointFile_eq_iff (dir : FilePath) (l : Listener) (x y : Requested) :
    x.checkpointFile dir l = y.checkpointFile dir l ↔ x.key = y.key := by
  constructor
  · intro h
    have hnames := congrArg FilePath.names h
    rw [checkpointFile_names, checkpointFile_names, List.append_cancel_left_eq, List.cons.injEq,
      ← String.toList_inj, String.toList_append, String.toList_append, List.append_cancel_right_eq,
      String.toList_inj] at hnames
    exact hnames.1
  · intro h
    rw [checkpointFile, checkpointFile, h]

lemma apart_iff (dir : FilePath) (l : Listener) (x y : Requested) : Apart dir l x y ↔ x.key ≠ y.key := by
  constructor
  · intro h
    exact fun hkey => h.file ((checkpointFile_eq_iff dir l x y).mpr hkey)
  · intro hkey
    refine ⟨fun h => hkey ((checkpointFile_eq_iff dir l x y).mp h), ?_⟩
    rintro s t store hmove
    cases hmove
    exact if_neg fun h => hkey h.2.symm

/-- Two transfers that are not the same have stores of their own when their numbers differ, or their
names at a place where one of them has a letter, a digit or a dash. -/
theorem apart_iff_names (dir : FilePath) (l : Listener) (x y : Requested) :
    (x.identity ≠ y.identity → Apart dir l x y) ↔
      x.identity = y.identity ∨ x.tid ≠ y.tid ∨ ¬ List.Forall₂ AlikeChars x.names y.names := by
  rw [apart_iff, Ne, Ne, key_eq_iff]
  tauto

/-- Two partners write files under one number. -/
def crossed (requester fileName : String) : Requested :=
  ⟨{ Site.sampleSession with requester := requester }, { sampleFile with
    fileName := fileName }, 7, .receive⟩

theorem checkpoints_shared : ¬ ∀ (dir : FilePath) (l : Listener) (x y : Requested),
    x.identity ≠ y.identity → Apart dir l x y := by
  intro h
  have hapart :=
    h (FilePath.ofString "") Site.sampleListener (crossed "A" "B_C") (crossed "A_B" "C") (by decide)
  exact absurd (show (crossed "A" "B_C").key = (crossed "A_B" "C").key by decide)
    ((apart_iff _ _ _ _).mp hapart)

end Requested

end PesitWizard.Node
