import PesitWizard.Io.Attempt
import PesitWizard.Io.FileSource

/-! A file that is read as articles and received as a file. -/

namespace PesitWizard.Io

open PesitWizard.Core Library

namespace FileSink

/-- The articles written to a new file under its temporary name, which then gets its own name. -/
def receive (disk : FileSystem) (path : FilePath) (format : RecordFormat) (ebcdic : Bool)
    (articles : List Bytes) :
    Option FileSystem :=
  let (disk, file) := create disk path none
  let sink := articles.foldl writeArticle (.new format ebcdic)
  finish (disk.write file sink.content) path

lemma foldl_content (s : FileSink) (articles : List Bytes) :
    (articles.foldl writeArticle s).content = s.content ++ articles.flatMap s.image := by
  induction articles generalizing s with
  | nil => simp
  | cons a articles ih =>
    rw [List.foldl_cons, ih, List.flatMap_cons, ← List.append_assoc]
    rfl

lemma receive_reads (disk : FileSystem) (path : FilePath) (format : RecordFormat) (ebcdic : Bool)
    (articles : List Bytes) :
    ∃ disk', receive disk path format ebcdic articles = some disk' ∧
      disk'.read path = some (articles.flatMap (FileSink.new format ebcdic).image) := by
  rw [receive]
  have hnames := create_names disk path none
  generalize create disk path none = x at hnames ⊢
  obtain ⟨disk, file⟩ := x
  have hread (c : Bytes) : (disk.write file c).read (partPath path) = some c := by
    show (disk.names (partPath path)).map (disk.write file c).content = some c
    rw [hnames]
    exact congrArg some (if_pos rfl)
  have hfile (c : Bytes) : (disk.write file c).isFile (partPath path) = true := by
    rw [← Disk.isSome_read, hread]
    rfl
  cases hrename : (disk.write file (articles.foldl writeArticle (.new format ebcdic)).content).rename
    (partPath path) path with
  | none =>
    rw [Disk.rename, if_pos (hfile _)] at hrename
    cases hrename
  | some disk' =>
    refine ⟨disk', hrename, ?_⟩
    rw [Disk.read_rename_self hrename, hread, foldl_content]
    rfl

end FileSink

namespace FileSource

/-- The calls return these articles, and then that there are no more. -/
def Yields (s : FileSource) (articles : List Bytes) : Prop :=
  (s.outputs (articles.length + 1)).map Prod.fst = articles.map (fun a => .ok (some a)) ++ [.ok none]

def Fails (s : FileSource) : Prop := ∃ n, ∃ y ∈ s.outputs n, ∃ e, y.1 = .error e

variable {s : FileSource} {xs : Bytes} {bs as : List Bytes}

lemma fails_drains (h : At s xs) {r : Except RecordError Bytes} (hd : s.Cut xs bs r) :
    Fails s ↔ ∃ e, r = .error e := by
  cases r with
  | ok ys =>
    obtain rfl := cut_complete s hd
    refine iff_of_false ?_ (by simp)
    rintro ⟨n, y, hy, e, he⟩
    exact outputs_ok h hd n y hy e he
  | error e =>
    refine iff_of_true ?_ ⟨e, rfl⟩
    have hmem : Except.error e ∈ (s.outputs (bs.length + 1)).map Prod.fst := by
      rw [outputs_broken h hd]
      exact List.mem_append_right _ (List.mem_singleton_self _)
    obtain ⟨y, hy, he⟩ := List.mem_map.mp hmem
    exact ⟨_, y, hy, e, he⟩

lemma yields_whole (h : At s xs) (hd : s.Cut xs bs (.ok [])) : Yields s (bs.map s.translated) := by
  rw [Yields, List.length_map, outputs_whole h hd, List.map_map]
  rfl

lemma outputs_initial {m n : ℕ} (h : m ≤ n) : s.outputs m <+: s.outputs n := by
  obtain ⟨k, rfl⟩ := Nat.exists_eq_add_of_le h
  rw [outputs_add]
  exact List.prefix_append _ _

/-- Two lists of articles, each with what ends it, of which one goes on like the other. -/
lemma ended_unique {x y : Except RecordError (Option Bytes)} (hx : ∀ a, .ok (some a) ≠ x)
    (hy : ∀ a, .ok (some a) ≠ y)
    (h : as.map (fun a => .ok (some a)) ++ [x] <+: bs.map (fun a => .ok (some a)) ++ [y]) :
    as = bs ∧ x = y := by
  induction as generalizing bs with
  | nil =>
    cases bs with
    | nil => exact ⟨rfl, (List.cons_prefix_cons.mp h).1⟩
    | cons b bs => exact absurd (List.cons_prefix_cons.mp h).1.symm (hx b)
  | cons a as ih =>
    cases bs with
    | nil => exact absurd (List.cons_prefix_cons.mp h).1 (hy a)
    | cons b bs =>
      obtain ⟨hab, hrest⟩ := List.cons_prefix_cons.mp h
      obtain ⟨rfl, rfl⟩ := ih hrest
      exact ⟨by rw [Option.some.inj (Except.ok.inj hab)], rfl⟩

/-- A source that yields articles yields those into which its file is cut. -/
lemma Yields.drains (h : Yields s as) (hat : At s xs) {r : Except RecordError Bytes}
    (hd : s.Cut xs bs r) :
    as = bs.map s.translated ∧ r = .ok [] := by
  have hended : ∃ y, (s.outputs (bs.length + 1)).map Prod.fst =
      (bs.map s.translated).map (fun a => .ok (some a)) ++ [y] ∧ (∀ a, .ok (some a) ≠ y) ∧
      (y = .ok none → r = .ok []) := by
    cases r with
    | ok ys =>
      obtain rfl := cut_complete s hd
      exact ⟨.ok none, by rw [outputs_whole hat hd, List.map_map]; rfl, nofun, fun _ => rfl⟩
    | error e => exact ⟨.error e, by rw [outputs_broken hat hd, List.map_map]; rfl, nofun, nofun⟩
  obtain ⟨y, hy, hne, hr⟩ := hended
  have hfirst :=
    (outputs_initial (s := s) (Nat.le_max_left (as.length + 1) (bs.length + 1))).map Prod.fst
  have hsecond :=
    (outputs_initial (s := s) (Nat.le_max_right (as.length + 1) (bs.length + 1))).map Prod.fst
  have hnone : ∀ a, (.ok (some a) : Except RecordError (Option Bytes)) ≠ .ok none := nofun
  rw [h] at hfirst
  rw [hy] at hsecond
  rcases List.prefix_or_prefix_of_prefix hfirst hsecond with hp | hp
  · obtain ⟨has, hlast⟩ := ended_unique hnone hne hp
    exact ⟨has, hr hlast.symm⟩
  · obtain ⟨has, hlast⟩ := ended_unique hne hnone hp
    exact ⟨has.symm, hr hlast⟩

end FileSource

lemma image_translated (s : FileSource) (format : RecordFormat) (a : Bytes) :
    (FileSink.new format s.ebcdic).image (s.translated a) = articleToBytes format a := by
  rw [FileSink.image, FileSink.translated, FileSource.translated]
  show articleToBytes format (if s.ebcdic = true then _ else _) = _
  cases s.ebcdic with
  | false => rfl
  | true => rw [if_pos rfl, if_pos rfl, Ebcdic.map_toLatin1_toEbcdic]

/-- What is received of a file that is read to its end, and which files are. -/
theorem file_image (content : Bytes) (reads : ℕ → ℕ) (format : RecordFormat) (recordLen : ℕ)
    (hlen : 1 ≤ recordLen) (ebcdic : Bool) (disk : FileSystem) (path : FilePath) :
    (∀ as, (FileSource.openFile content reads format recordLen ebcdic).Yields as →
      ∃ disk', FileSink.receive disk path format ebcdic as = some disk' ∧
      disk'.read path = some (imageOf format content)) ∧
    ((FileSource.openFile content reads format recordLen ebcdic).Fails ↔
      Uncut format recordLen content) ∧
    (¬ Uncut format recordLen content →
      ∃ as, (FileSource.openFile content reads format recordLen ebcdic).Yields as) := by
  have hat := FileSource.at_openFile content reads format recordLen ebcdic
  have hmax : max recordLen 1 = recordLen := max_eq_left hlen
  obtain ⟨bs, r, hd⟩ :=
    ArticleCutter.cut_exists format
      (FileSource.max_pos (FileSource.openFile content reads format recordLen ebcdic)) content
  have huncut := uncut_drains hlen (hmax ▸ hd)
  have hfails := FileSource.fails_drains hat hd
  refine ⟨?_, hfails.trans huncut.symm, ?_⟩
  · intro as has
    obtain ⟨rfl, rfl⟩ := has.drains hat hd
    obtain ⟨disk', hreceive, hread⟩ := FileSink.receive_reads disk path format ebcdic
      (bs.map (FileSource.openFile content reads format recordLen ebcdic).translated)
    refine ⟨disk', hreceive, ?_⟩
    have himage := image_drains hlen (hmax ▸ hd)
    rw [hread, List.flatMap_map, ← himage]
    exact congrArg some (List.flatMap_congr fun a _ =>
      image_translated (FileSource.openFile content reads format recordLen ebcdic) format a)
  · intro hno
    cases r with
    | error e => exact absurd (huncut.mpr ⟨e, rfl⟩) hno
    | ok ys =>
      obtain rfl :=
        FileSource.cut_complete (FileSource.openFile content reads format recordLen ebcdic) hd
      exact ⟨_, FileSource.yields_whole hat hd⟩

/-- A line that ends with a space and CR, an empty line and a line without an end. -/
def paddedContent : Bytes := [97, space, cr, lf, lf, 98]

lemma paddedContent_yields : (FileSource.openFile paddedContent (fun _ => 2) .tf 3 true).Yields
    ([[97, space, space], [space, space, space], [98, space, space]].map
      (FileSource.openFile paddedContent (fun _ => 2) .tf 3 true).translated) :=
  FileSource.yields_whole (FileSource.at_openFile _ _ _ _ _)
    (.unit rfl (.unit rfl (.unit rfl (.short rfl))))

theorem file_image_padded :
    ∃ disk', FileSink.receive (Disk.blank []) (FilePath.ofString "padded") .tf true
      ([[97, space, space], [space, space, space], [98, space, space]].map
        (FileSource.openFile paddedContent (fun _ => 2) .tf 3 true).translated) = some disk' ∧
      disk'.read (FilePath.ofString "padded") = some [97, lf, lf, 98, lf] := by
  have himage :=
    file_image paddedContent (fun _ => 2) .tf 3 (by decide) true (Disk.blank [])
      (FilePath.ofString "padded")
  exact himage.1 _ paddedContent_yields

end PesitWizard.Io
