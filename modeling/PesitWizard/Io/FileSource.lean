import PesitWizard.Core.Ebcdic
import PesitWizard.Core.Records
import PesitWizard.Io.Stream

/-! Files that articles are read from. The operating system decides how much each read yields. -/

namespace PesitWizard.Io

open PesitWizard.Core Library.Incremental

structure FileSource where
  content : Bytes
  -- one more than so many bytes are asked of the file each time
  reads : ℕ → ℕ
  turns : ℕ
  cursor : ℕ
  format : RecordFormat
  recordLen : ℕ
  cutter : ArticleCutter
  pos : Position
  filePos : ℕ
  eof : Bool
  ebcdic : Bool

namespace FileSource

def openFile (content : Bytes) (reads : ℕ → ℕ) (format : RecordFormat) (recordLen : ℕ)
    (ebcdic : Bool) : FileSource :=
  ⟨content, reads, 0, 0, format, recordLen, .new format recordLen, .default, 0, false, ebcdic⟩

def translated (s : FileSource) (article : Bytes) : Bytes :=
  if s.ebcdic then article.map Ebcdic.toEbcdic else article

def fill (s : FileSource) : FileSource :=
  let buf := (s.content.drop s.cursor).take (s.reads s.turns + 1)
  if buf.isEmpty then { s with turns := s.turns + 1, eof := true }
  else { s with
    turns := s.turns + 1
    cutter := s.cutter.push buf
    cursor := s.cursor + buf.length
    filePos := s.filePos + buf.length }

def unread (s : FileSource) : ℕ := (s.content.drop s.cursor).length + if s.eof then 0 else 1

lemma unread_fill {s : FileSource} (h : s.eof = false) : s.fill.unread < s.unread := by
  rw [fill]
  split
  · simp [unread, h]
  · rename_i hbuf
    have hpos : 0 < ((s.content.drop s.cursor).take (s.reads s.turns + 1)).length := by
      rw [List.length_pos_iff]
      simpa using hbuf
    have hle := List.length_take_le' (s.reads s.turns + 1) (s.content.drop s.cursor)
    rw [List.length_drop] at hle
    simp only [unread, List.length_drop, h]
    omega

def give (s : FileSource) (cutter : ArticleCutter) (offset : ℕ) (article : Bytes) :
    Except RecordError (Option Bytes) × FileSource :=
  (.ok (some (s.translated article)), { s with
    cutter := cutter
    pos := ⟨offset, s.pos.dataBytes + article.length, s.pos.articles + 1⟩ })

def lastArticle (s : FileSource) : Except RecordError (Option Bytes) × FileSource :=
  match s.cutter.finish with
  | (.error e, cutter) => (.error e, { s with cutter := cutter })
  | (.ok none, cutter) => (.ok none, { s with cutter := cutter })
  | (.ok (some a), cutter) => s.give cutter s.filePos a

def nextArticle (s : FileSource) : Except RecordError (Option Bytes) × FileSource :=
  match s.cutter.nextArticle with
  | (.error e, cutter) => (.error e, { s with cutter := cutter })
  | (.ok (some a), cutter) => s.give cutter (s.filePos - cutter.buffered) a
  | (.ok none, cutter) =>
    let s := { s with cutter := cutter }
    if s.eof then s.lastArticle else nextArticle s.fill
termination_by s.unread
decreasing_by
  rename_i heof
  exact unread_fill (by simpa using heof)

def rewind (s : FileSource) (pos : Position) : FileSource :=
  { s with
    cursor := pos.fileOffset
    cutter := .new s.format s.recordLen
    filePos := pos.fileOffset
    pos := pos
    eof := false }

structure Same (s t : FileSource) : Prop where
  content : t.content = s.content
  format : t.format = s.format
  recordLen : t.recordLen = s.recordLen
  ebcdic : t.ebcdic = s.ebcdic

lemma Same.refl (s : FileSource) : Same s s := ⟨rfl, rfl, rfl, rfl⟩

lemma Same.trans {s t u : FileSource} (h : Same s t) (h' : Same t u) : Same s u :=
  ⟨h'.content.trans h.content, h'.format.trans h.format, h'.recordLen.trans h.recordLen,
    h'.ebcdic.trans h.ebcdic⟩

lemma Same.symm {s t : FileSource} (h : Same s t) : Same t s :=
  ⟨h.content.symm, h.format.symm, h.recordLen.symm, h.ebcdic.symm⟩

/-- What is left of the file, in the cutter and behind the cursor. -/
structure At (s : FileSource) (xs : Bytes) : Prop where
  format : s.cutter.format = s.format
  recordLen : s.cutter.recordLen = max s.recordLen 1
  synced : s.filePos = s.cursor
  inside : s.cursor ≤ s.content.length
  rest : s.cutter.avail ++ s.content.drop s.cursor = xs
  suffix : xs <:+ s.content
  offset : s.pos.fileOffset + xs.length = s.content.length
  eof : s.eof = true → s.cursor = s.content.length

variable {s t : FileSource} {xs : Bytes}

lemma at_openFile (content : Bytes) (reads : ℕ → ℕ) (format : RecordFormat) (recordLen : ℕ)
    (ebcdic : Bool) :
    At (openFile content reads format recordLen ebcdic) content :=
  ⟨rfl, rfl, rfl, Nat.zero_le _, rfl, List.suffix_refl _, Nat.zero_add _, nofun⟩

lemma drop_taken (xs : Bytes) (n : ℕ) : xs.drop (xs.take n).length = xs.drop n := by
  rw [List.length_take]
  rcases le_total n xs.length with h | h
  · rw [min_eq_left h]
  · rw [min_eq_right h, List.drop_length, List.drop_of_length_le h]

lemma At.fill (h : At s xs) : At s.fill xs ∧ Same s s.fill ∧ s.fill.pos = s.pos := by
  rw [FileSource.fill]
  split
  · rename_i hbuf
    have hend : s.content.length ≤ s.cursor := by simpa using hbuf
    refine ⟨⟨h.format, h.recordLen, h.synced, h.inside, h.rest, h.suffix, h.offset, ?_⟩,
      ⟨rfl, rfl, rfl, rfl⟩, rfl⟩
    exact fun _ => le_antisymm h.inside hend
  · rename_i hbuf
    have heof : s.eof = false := by
      by_contra hne
      have hend := h.eof (by simpa using hne)
      simp [hend] at hbuf
    have hsplit := List.take_append_drop (s.reads s.turns + 1) (s.content.drop s.cursor)
    have hlen := congrArg List.length hsplit
    have hcursor := h.inside
    rw [List.length_append, List.length_drop (i := s.cursor)] at hlen
    have hdrop := drop_taken (s.content.drop s.cursor) (s.reads s.turns + 1)
    rw [List.drop_drop] at hdrop
    refine ⟨⟨?_, ?_, ?_, ?_, ?_, h.suffix, h.offset, ?_⟩, ⟨rfl, rfl, rfl, rfl⟩, rfl⟩
    · rw [ArticleCutter.push_format, h.format]
    · rw [ArticleCutter.push_recordLen, h.recordLen]
    · rw [h.synced]
    · show s.cursor + _ ≤ s.content.length
      omega
    · rw [ArticleCutter.avail_push, hdrop, List.append_assoc, hsplit]
      exact h.rest
    · intro ht
      rw [heof] at ht
      cases ht

/-- The next article of what is left, with the position behind it. -/
def Answers (s : FileSource) (xs : Bytes) (y : Except RecordError (Option Bytes) × FileSource) : Prop :=
  match ArticleCutter.cut s.format (max s.recordLen 1) xs with
  | .error e => y.1 = .error e
  | .ok none => y.1 = .ok none ∧ At y.2 xs ∧ Same s y.2 ∧ y.2.pos = s.pos
  | .ok (some (a, rest)) => y.1 = .ok (some (s.translated a)) ∧ At y.2 rest ∧ Same s y.2 ∧
    y.2.pos = ⟨s.content.length - rest.length, s.pos.dataBytes + a.length, s.pos.articles + 1⟩

lemma translated_same (h : Same s t) (a : Bytes) : t.translated a = s.translated a := by
  rw [translated, translated, h.ebcdic]

lemma Answers.same (h : Same s t) (hpos : t.pos = s.pos)
    {y : Except RecordError (Option Bytes) × FileSource} (ht : Answers t xs y) : Answers s xs y := by
  rw [Answers, h.format, h.recordLen, h.content, hpos] at ht
  rw [Answers]
  split
  · rename_i e he
    rw [he] at ht
    exact ht
  · rename_i he
    rw [he] at ht
    exact ⟨ht.1, ht.2.1, h.trans ht.2.2.1, ht.2.2.2⟩
  · rename_i a rest he
    rw [he] at ht
    refine ⟨?_, ht.2.1, h.trans ht.2.2.1, ht.2.2.2⟩
    rw [← translated_same h]
    exact ht.1

lemma max_pos (s : FileSource) : 0 < max s.recordLen 1 :=
  Nat.lt_of_lt_of_le Nat.one_pos (le_max_right _ _)

lemma give_answers (h : At s xs) {a rest : Bytes}
    (hcut : ArticleCutter.cut s.format (max s.recordLen 1) xs = .ok (some (a, rest)))
    (cutter : ArticleCutter) (hformat : cutter.format = s.cutter.format)
    (hlen : cutter.recordLen = s.cutter.recordLen)
    (hrest : cutter.avail ++ s.content.drop s.cursor = rest) {offset : ℕ}
    (hoffset : offset + rest.length = s.content.length) : Answers s xs (s.give cutter offset a) := by
  have hsuffix := (ArticleCutter.cut_consumes (max_pos s) hcut).2
  rw [Answers, hcut]
  refine ⟨rfl, ?_, ⟨rfl, rfl, rfl, rfl⟩, ?_⟩
  · exact ⟨hformat.trans h.format, hlen.trans h.recordLen, h.synced, h.inside, hrest,
      hsuffix.trans h.suffix, hoffset, h.eof⟩
  · obtain rfl : offset = s.content.length - rest.length := by omega
    rfl

/-- At the end of the file the cutter gives what it has. -/
lemma lastArticle_answers (h : At s xs) (heof : s.eof = true)
    (hread : ArticleCutter.read s.format (max s.recordLen 1) s.cutter.avail = .ok none) :
    Answers s xs s.lastArticle := by
  have hend := h.eof heof
  have hdrop : s.content.drop s.cursor = [] := by rw [hend, List.drop_length]
  obtain rfl : s.cutter.avail = xs := by rw [← h.rest, hdrop, List.append_nil]
  have hempty :
      (s.cutter.advance s.cutter.avail.length le_rfl).avail ++ s.content.drop s.cursor = [] := by
    rw [ArticleCutter.avail_advance, List.drop_length, hdrop]
    rfl
  have hcut := ArticleCutter.cut_short hread
  simp only [lastArticle, ArticleCutter.finish, h.format, h.recordLen]
  cases hlast : ArticleCutter.lastArticle s.format (max s.recordLen 1) s.cutter.avail with
  | error e =>
    rw [hlast] at hcut
    rw [Answers, hcut]
    rfl
  | ok a =>
    rw [hlast] at hcut
    cases a with
    | none =>
      have hnil := ArticleCutter.cut_none hcut
      rw [Answers, hcut]
      exact ⟨rfl, ⟨h.format, h.recordLen, h.synced, h.inside, hempty.trans hnil.symm, h.suffix, h.offset,
        h.eof⟩, ⟨rfl, rfl, rfl, rfl⟩, rfl⟩
    | some a =>
      apply give_answers h hcut (s.cutter.advance _ le_rfl) rfl rfl hempty
      rw [h.synced, hend]
      rfl

lemma nextArticle_answers (h : At s xs) : Answers s xs s.nextArticle := by
  induction hn : s.unread using Nat.strongRecOn generalizing s with
  | _ n ih =>
    rw [nextArticle]
    obtain ⟨hread, hnext⟩ | ⟨n, a, hle, hcuts, hnext⟩ | ⟨e, hfails, hnext⟩ := s.cutter.nextArticle_cases
    · rw [ArticleCutter.reader, h.format, h.recordLen] at hread
      rw [hnext]
      change Answers s xs (if s.eof = true then s.lastArticle else s.fill.nextArticle)
      by_cases heof : s.eof = true
      · rw [if_pos heof]
        exact lastArticle_answers h heof hread
      · rw [if_neg heof]
        obtain ⟨hat, hsame, hpos⟩ := h.fill
        exact (ih _ (hn ▸ unread_fill (by simpa using heof)) hat rfl).same hsame hpos
    · rw [h.format, h.recordLen] at hcuts
      have hreads := hcuts.reads (s.content.drop s.cursor)
      rw [h.rest] at hreads
      rw [hnext]
      apply give_answers h (ArticleCutter.cut_unit hreads) (s.cutter.advance n hle) rfl rfl
      · rw [ArticleCutter.avail_advance]
      · have hlen := congrArg List.length h.rest
        have hxs := h.suffix.length_le
        have hinside := h.inside
        rw [List.length_append, List.length_drop] at hlen
        rw [ArticleCutter.buffered_eq, ArticleCutter.avail_advance, h.synced, List.length_append,
          List.length_drop, List.length_drop]
        omega
    · rw [h.format, h.recordLen] at hfails
      have hreads := hfails.reads (s.content.drop s.cursor)
      rw [h.rest] at hreads
      rw [hnext, Answers, ArticleCutter.cut_error hreads]

/-- What the calls of `nextArticle` return, each with the position after it. -/
def outputs : ℕ → FileSource → List (Except RecordError (Option Bytes) × Position)
  | 0, _ => []
  | n + 1, s => (s.nextArticle.1, s.nextArticle.2.pos) :: outputs n s.nextArticle.2

def after : ℕ → FileSource → FileSource
  | 0, s => s
  | n + 1, s => after n s.nextArticle.2

lemma outputs_length (n : ℕ) (s : FileSource) : (s.outputs n).length = n := by
  induction n generalizing s with
  | zero => rfl
  | succ n ih => rw [outputs, List.length_cons, ih]

lemma outputs_add (k n : ℕ) (s : FileSource) :
    s.outputs (k + n) = s.outputs k ++ (s.after k).outputs n := by
  induction k generalizing s with
  | zero => rw [Nat.zero_add, outputs, after, List.nil_append]
  | succ k ih => rw [Nat.succ_add, outputs, outputs, after, ih, List.cons_append]

lemma outputs_drop (k n : ℕ) (s : FileSource) : (s.outputs (k + n)).drop k = (s.after k).outputs n := by
  rw [outputs_add, List.drop_left' (outputs_length k s)]

section Whole

variable {bs : List Bytes}

abbrev Cut (s : FileSource) : Bytes → List Bytes → Except RecordError Bytes → Prop :=
  Drains (ArticleCutter.cut s.format (max s.recordLen 1))

lemma Cut.same (h : Same s t) {r : Except RecordError Bytes} (hd : s.Cut xs bs r) : t.Cut xs bs r := by
  rw [Cut, h.format, h.recordLen]
  exact hd

lemma next_unit (h : At s xs) {a rest : Bytes}
    (hcut : ArticleCutter.cut s.format (max s.recordLen 1) xs = .ok (some (a, rest))) :
    s.nextArticle.1 = .ok (some (s.translated a)) ∧ At s.nextArticle.2 rest ∧ Same s s.nextArticle.2 ∧
      s.nextArticle.2.pos =
      ⟨s.content.length - rest.length, s.pos.dataBytes + a.length, s.pos.articles + 1⟩ := by
  have hanswers := nextArticle_answers h
  rwa [Answers, hcut] at hanswers

lemma next_short (h : At s xs) (hcut : ArticleCutter.cut s.format (max s.recordLen 1) xs = .ok none) :
    s.nextArticle.1 = .ok none ∧ At s.nextArticle.2 xs ∧ Same s s.nextArticle.2 ∧
    s.nextArticle.2.pos = s.pos := by
  have hanswers := nextArticle_answers h
  rwa [Answers, hcut] at hanswers

lemma next_error (h : At s xs) {e : RecordError}
    (hcut : ArticleCutter.cut s.format (max s.recordLen 1) xs = .error e) :
    s.nextArticle.1 = .error e := by
  have hanswers := nextArticle_answers h
  rwa [Answers, hcut] at hanswers

lemma outputs_end (n : ℕ) (h : At s []) : (s.outputs n).map Prod.fst = List.replicate n (.ok none) := by
  induction n generalizing s with
  | zero => rfl
  | succ n ih =>
    obtain ⟨hnone, hat, -, -⟩ := next_short h (ArticleCutter.cut_nil s.format (max_pos s))
    rw [outputs, List.map_cons, hnone, ih hat, List.replicate_succ]

lemma outputs_whole (h : At s xs) (hd : s.Cut xs bs (.ok [])) (n : ℕ) :
    (s.outputs (bs.length + n)).map Prod.fst = bs.map (fun a => .ok (some (s.translated a))) ++
    List.replicate n (.ok none) := by
  induction bs generalizing s xs with
  | nil =>
    cases hd with
    | short _ =>
      rw [List.length_nil, Nat.zero_add]
      exact outputs_end n h
  | cons b bs ih =>
    cases hd with
    | unit hcut hd =>
      obtain ⟨hsome, hat, hsame, -⟩ := next_unit h hcut
      have hrest := ih hat (Cut.same hsame hd)
      simp only [translated_same hsame] at hrest
      rw [List.length_cons, Nat.succ_add, outputs, List.map_cons, hsome, hrest]
      rfl

lemma outputs_broken (h : At s xs) {e : RecordError} (hd : s.Cut xs bs (.error e)) :
    (s.outputs (bs.length + 1)).map Prod.fst =
    bs.map (fun a => .ok (some (s.translated a))) ++ [.error e] := by
  induction bs generalizing s xs with
  | nil =>
    cases hd with
    | error hcut =>
      rw [List.length_nil, outputs, List.map_cons, next_error h hcut]
      rfl
  | cons b bs ih =>
    cases hd with
    | unit hcut hd =>
      obtain ⟨hsome, hat, hsame, -⟩ := next_unit h hcut
      have hrest := ih hat (Cut.same hsame hd)
      simp only [translated_same hsame] at hrest
      rw [List.length_cons, outputs, List.map_cons, hsome, hrest]
      rfl

lemma cut_complete (s : FileSource) {ys : Bytes} (hd : s.Cut xs bs (.ok ys)) : ys = [] := by
  induction bs generalizing xs with
  | nil =>
    cases hd with
    | short hcut => exact ArticleCutter.cut_none hcut
  | cons b bs ih =>
    cases hd with
    | unit _ hd => exact ih hd

/-- A file of which no call fails is cut to its end. -/
lemma cut_of_outputs (h : At s xs) (hok : ∀ n, ∀ y ∈ s.outputs n, ∀ e, y.1 ≠ .error e) :
    ∃ bs, s.Cut xs bs (.ok []) := by
  obtain ⟨bs, r, hd⟩ := ArticleCutter.cut_exists s.format (max_pos s) xs
  cases r with
  | ok ys =>
    obtain rfl := cut_complete s hd
    exact ⟨bs, hd⟩
  | error e =>
    have hbroken := outputs_broken h hd
    have hmem : Except.error e ∈ (s.outputs (bs.length + 1)).map Prod.fst := by
      rw [hbroken]
      exact List.mem_append_right _ (List.mem_singleton_self _)
    obtain ⟨y, hy, he⟩ := List.mem_map.mp hmem
    exact absurd he (hok _ y hy e)

lemma outputs_ok (h : At s xs) (hd : s.Cut xs bs (.ok [])) :
    ∀ n, ∀ y ∈ s.outputs n, ∀ e, y.1 ≠ .error e := by
  intro n y hy e he
  have hmem : y.1 ∈ (s.outputs (bs.length + n)).map Prod.fst := by
    rw [Nat.add_comm, outputs_add, List.map_append]
    exact List.mem_append_left _ (List.mem_map_of_mem hy)
  rw [outputs_whole h hd, he] at hmem
  rcases List.mem_append.mp hmem with hmem | hmem
  · obtain ⟨a, -, ha⟩ := List.mem_map.mp hmem
    cases ha
  · cases List.eq_of_mem_replicate hmem

lemma after_at (h : At s xs) (hd : s.Cut xs bs (.ok [])) (k : ℕ) :
    ∃ ys cs, At (s.after k) ys ∧ Same s (s.after k) ∧ s.Cut ys cs (.ok []) := by
  induction k generalizing s xs bs with
  | zero => exact ⟨xs, bs, h, .refl s, hd⟩
  | succ k ih =>
    have hnext : ∃ ys cs, At s.nextArticle.2 ys ∧ Same s s.nextArticle.2 ∧ s.Cut ys cs (.ok []) := by
      cases hd with
      | short hcut =>
        obtain ⟨-, hat, hsame, -⟩ := next_short h hcut
        exact ⟨_, _, hat, hsame, .short hcut⟩
      | unit hcut hd =>
        obtain ⟨-, hat, hsame, -⟩ := next_unit h hcut
        exact ⟨_, _, hat, hsame, hd⟩
    obtain ⟨ys, cs, hat, hsame, hys⟩ := hnext
    obtain ⟨zs, ds, hat', hsame', hzs⟩ := ih hat (Cut.same hsame hys)
    exact ⟨zs, ds, hat', hsame.trans hsame', Cut.same hsame.symm hzs⟩

/-- Two sources with the same rest of the same file and the same position go on in the same way. -/
lemma outputs_alike (hs : At s xs) (ht : At t xs) (hsame : Same s t) (hpos : t.pos = s.pos)
    (hd : s.Cut xs bs (.ok [])) (n : ℕ) : t.outputs n = s.outputs n := by
  induction n generalizing s t xs bs with
  | zero => rfl
  | succ n ih =>
    have hcut_eq :
        ArticleCutter.cut t.format (max t.recordLen 1) xs = ArticleCutter.cut s.format
        (max s.recordLen 1) xs := by
      rw [hsame.format, hsame.recordLen]
    cases hd with
    | short hcut =>
      obtain ⟨hs₁, hs₂, hs₃, hs₄⟩ := next_short hs hcut
      obtain ⟨ht₁, ht₂, ht₃, ht₄⟩ := next_short ht (hcut_eq.trans hcut)
      have hpos' : t.nextArticle.2.pos = s.nextArticle.2.pos := by rw [ht₄, hs₄, hpos]
      have hrest := ih hs₂ ht₂ (hs₃.symm.trans (hsame.trans ht₃)) hpos' (Cut.same hs₃ (.short hcut))
      rw [outputs, outputs, hrest, ht₁, hs₁, hpos']
    | unit hcut hd =>
      obtain ⟨hs₁, hs₂, hs₃, hs₄⟩ := next_unit hs hcut
      obtain ⟨ht₁, ht₂, ht₃, ht₄⟩ := next_unit ht (hcut_eq.trans hcut)
      have hpos' : t.nextArticle.2.pos = s.nextArticle.2.pos := by rw [ht₄, hs₄, hpos, hsame.content]
      have hrest := ih hs₂ ht₂ (hs₃.symm.trans (hsame.trans ht₃)) hpos' (Cut.same hs₃ hd)
      rw [outputs, outputs, hrest, ht₁, hs₁, hpos', translated_same hsame]

end Whole

lemma rewind_at (h : At t xs) (hsame : Same s t) : At (s.rewind t.pos) xs ∧ Same t (s.rewind t.pos) := by
  have hoffset := h.offset
  have hdrop := List.suffix_iff_eq_drop.mp h.suffix
  refine ⟨⟨rfl, rfl, rfl, ?_, ?_, ?_, ?_, nofun⟩,
    ⟨hsame.content.symm, hsame.format.symm, hsame.recordLen.symm, hsame.ebcdic.symm⟩⟩
  · show t.pos.fileOffset ≤ s.content.length
    rw [← hsame.content]
    omega
  · show [] ++ s.content.drop t.pos.fileOffset = xs
    have hlen : t.pos.fileOffset = t.content.length - xs.length := by omega
    rw [List.nil_append, ← hsame.content, hlen]
    exact hdrop.symm
  · show xs <:+ s.content
    rw [← hsame.content]
    exact h.suffix
  · show t.pos.fileOffset + xs.length = s.content.length
    rw [← hsame.content]
    exact hoffset

/-- A file that is cut without error yields its articles and then no more. From any state of reading
it, going back to the position after the first of the articles makes the rest come again, each with
the position it had. -/
theorem rewind_exact (content : Bytes) (reads : ℕ → ℕ) (format : RecordFormat)
    (recordLen : ℕ) (ebcdic : Bool)
    (hok : ∀ n, ∀ y ∈ (openFile content reads format recordLen ebcdic).outputs n, ∀ e, y.1 ≠ .error e) :
    ∃ as : List Bytes,
      (∀ n, ((openFile content reads format recordLen ebcdic).outputs (as.length + n)).map Prod.fst =
        as.map (fun a => .ok (some a)) ++ List.replicate n (.ok none)) ∧
      ∀ k j n, (((openFile content reads format recordLen ebcdic).after j).rewind
          ((openFile content reads format recordLen ebcdic).after k).pos).outputs n =
        ((openFile content reads format recordLen ebcdic).outputs (k + n)).drop k := by
  have hat := at_openFile content reads format recordLen ebcdic
  obtain ⟨bs, hd⟩ := cut_of_outputs hat hok
  refine ⟨bs.map (openFile content reads format recordLen ebcdic).translated, ?_, ?_⟩
  · intro n
    have hwhole := outputs_whole hat hd n
    rwa [List.length_map, List.map_map]
  · intro k j n
    obtain ⟨ys, cs, hk, hksame, hys⟩ := after_at hat hd k
    obtain ⟨-, -, -, hjsame, -⟩ := after_at hat hd j
    obtain ⟨hrewound, hsame⟩ := rewind_at hk (hjsame.symm.trans hksame)
    rw [outputs_drop]
    exact outputs_alike hk hrewound hsame rfl (Cut.same hksame hys) n

/-- Three lines of which the first ends with CR and the second is empty, read one byte at a time. -/
def linesSource : FileSource := openFile [97, cr, lf, lf, 98] (fun _ => 0) .tv 2 true

lemma linesSource_cut : linesSource.Cut [97, cr, lf, lf, 98] [[97], [space], [98]] (.ok []) :=
  .unit rfl (.unit rfl (.unit rfl (.short rfl)))

theorem rewind_exact_lines :
    ((linesSource.after 3).rewind (linesSource.after 1).pos).outputs 2 =
    (linesSource.outputs (1 + 2)).drop 1 := by
  obtain ⟨as, -, hrewind⟩ := rewind_exact [97, cr, lf, lf, 98] (fun _ => 0) .tv 2 true
    (outputs_ok (at_openFile _ _ _ _ _) linesSource_cut)
  exact hrewind 1 3 2

end FileSource

end PesitWizard.Io
