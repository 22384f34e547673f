import PesitWizard.Core.Cutter

/-! What is cut from a whole file, and what the articles make of the file when they are written again. -/

namespace PesitWizard.Core

open Library.Incremental

section Lines

/-- The lines of a text: each ends with LF, the last one may go on to the end. -/
def lines (xs : Bytes) : List Bytes :=
  if (xs.splitOn lf).getLast? = some [] then (xs.splitOn lf).dropLast else xs.splitOn lf

lemma lines_cons {line : Bytes} (h : lf ∉ line) (rest : Bytes) :
    lines (line ++ lf :: rest) = line :: lines rest := by
  have hne := List.splitOn_ne_nil lf rest
  rw [lines, lines, List.splitOn_append_cons_self_of_not_mem h, List.dropLast_cons_of_ne_nil hne,
    List.getLast?_cons_of_ne_nil hne]
  split <;> rfl

lemma lines_rest {xs : Bytes} (h : lf ∉ xs) (hne : xs ≠ []) : lines xs = [xs] := by
  rw [lines, List.splitOn_eq_singleton h, if_neg]
  simpa using hne

end Lines

namespace ArticleCutter

/-- The next article of a file of which the rest is known to its end. -/
def cut (format : RecordFormat) (recordLen : ℕ) : Reader UInt8 Bytes RecordError := fun xs =>
  match read format recordLen xs with
  | .ok none => (lastArticle format recordLen xs).map fun a => a.map fun a => (a, [])
  | r => r

variable {format : RecordFormat} {recordLen : ℕ}

lemma cut_short {xs : Bytes} (h : read format recordLen xs = .ok none) :
    cut format recordLen xs = (lastArticle format recordLen xs).map fun a => a.map fun a => (a, []) := by
  rw [cut, h]

lemma cut_unit {xs : Bytes} {y : Bytes × Bytes} (h : read format recordLen xs = .ok (some y)) :
    cut format recordLen xs = .ok (some y) := by
  rw [cut, h]

lemma cut_error {xs : Bytes} {e : RecordError} (h : read format recordLen xs = .error e) :
    cut format recordLen xs = .error e := by
  rw [cut, h]

lemma read_nil (format : RecordFormat) (hpos : 0 < recordLen) : read format recordLen [] = .ok none := by
  cases htext : format.isText with
  | false =>
    rw [read_binary htext, if_neg]
    exact Nat.not_le_of_lt hpos
  | true => exact read_text_none htext rfl

lemma cut_nil (format : RecordFormat) (hpos : 0 < recordLen) : cut format recordLen [] = .ok none :=
  cut_short (read_nil format hpos)

lemma cut_line (htext : format.isText = true) {line : Bytes} (h : lf ∉ line) (rest : Bytes) :
    cut format recordLen (line ++ lf :: rest) =
      (textArticle format recordLen (stripCr line)).map fun a => some (a, rest) := by
  have hfind : (line ++ lf :: rest).findIdx? (· == lf) = some line.length := by
    have hnone : line.findIdx? (· == lf) = none := by
      rw [List.findIdx?_eq_none_iff]
      intro b hb
      rw [beq_eq_false_iff_ne]
      rintro rfl
      exact h hb
    rw [List.findIdx?_append, hnone]
    simp [List.findIdx?_cons]
  have hdrop : (line ++ lf :: rest).drop (line.length + 1) = rest := by simp
  have hread : read format recordLen (line ++ lf :: rest) = _ := read_text htext hfind
  rw [List.take_left, hdrop] at hread
  cases harticle : textArticle format recordLen (stripCr line) with
  | error e =>
    rw [harticle] at hread
    exact cut_error hread
  | ok a =>
    rw [harticle] at hread
    exact cut_unit hread

lemma lastArticle_text (htext : format.isText = true) {xs : Bytes} (hne : xs ≠ []) :
    lastArticle format recordLen xs = (textArticle format recordLen (stripCr xs)).map some := by
  have hempty : xs.isEmpty = false := by simpa using hne
  cases format with
  | tv | tf => simp only [lastArticle, hempty, Bool.false_eq_true, if_false]
  | _ => cases htext

lemma cut_rest (htext : format.isText = true) {xs : Bytes} (h : lf ∉ xs) (hne : xs ≠ []) :
    cut format recordLen xs = (textArticle format recordLen (stripCr xs)).map fun a => some (a, []) := by
  have hfind : xs.findIdx? (· == lf) = none := by
    rw [List.findIdx?_eq_none_iff]
    intro b hb
    rw [beq_eq_false_iff_ne]
    rintro rfl
    exact h hb
  rw [cut_short (read_text_none htext hfind), lastArticle_text htext hne]
  cases textArticle format recordLen (stripCr xs) <;> rfl

/-- A text goes on with a line that ends, or is a line to its end. -/
lemma text_rest (xs : Bytes) : (∃ line rest, xs = line ++ lf :: rest ∧ lf ∉ line) ∨ lf ∉ xs := by
  by_cases h : lf ∈ xs
  · obtain ⟨line, rest, hxs, hline⟩ := List.eq_append_cons_of_mem h
    exact .inl ⟨line, rest, hxs, hline⟩
  · exact .inr h

lemma cut_consumes (hpos : 0 < recordLen) {xs a rest : Bytes}
    (h : cut format recordLen xs = .ok (some (a, rest))) :
    rest.length < xs.length ∧ rest <:+ xs := by
  cases hread : read format recordLen xs with
  | error e =>
    rw [cut_error hread] at h
    cases h
  | ok y =>
    cases y with
    | some y =>
      rw [cut_unit hread] at h
      obtain rfl := Option.some.inj (Except.ok.inj h)
      obtain ⟨n, rfl, hcuts⟩ := read_ok hpos hread
      exact ⟨(read_stable format hpos).consumes hread, List.drop_suffix n xs⟩
    | none =>
      rw [cut_short hread] at h
      cases hlast : lastArticle format recordLen xs with
      | error e =>
        rw [hlast] at h
        cases h
      | ok b =>
        rw [hlast] at h
        cases b with
        | none => cases h
        | some b =>
          obtain ⟨rfl, rfl⟩ := Prod.mk.inj (Option.some.inj (Except.ok.inj h))
          refine ⟨?_, List.nil_suffix⟩
          rw [List.length_nil, List.length_pos_iff]
          rintro rfl
          cases hlast

lemma cut_none {xs : Bytes} (h : cut format recordLen xs = .ok none) : xs = [] := by
  cases hread : read format recordLen xs with
  | error e =>
    rw [cut_error hread] at h
    cases h
  | ok y =>
    cases y with
    | some y =>
      rw [cut_unit hread] at h
      cases h
    | none =>
      rw [cut_short hread] at h
      by_contra hne
      cases htext : format.isText with
      | true =>
        rw [lastArticle_text htext hne] at h
        cases harticle : textArticle format recordLen (stripCr xs) with
        | error e =>
          rw [harticle] at h
          cases h
        | ok a =>
          rw [harticle] at h
          cases h
      | false =>
        have hempty : xs.isEmpty = false := by simpa using hne
        cases format with
        | tv | tf => cases htext
        | _ =>
          simp only [lastArticle, hempty, Bool.false_eq_true, if_false] at h
          cases h

section Drained

variable {xs : Bytes} {bs : List Bytes} {r : Except RecordError Bytes}

lemma cut_exists (format : RecordFormat) (hpos : 0 < recordLen) (xs : Bytes) :
    ∃ bs r, Drains (cut format recordLen) xs bs r :=
  Drains.exists (fun h => (cut_consumes hpos h).1) xs

lemma cut_text (recordLen : ℕ) (htext : format.isText = true) (hne : xs ≠ []) :
    ∃ line rest, lines xs = line :: lines rest ∧
      cut format recordLen xs = (textArticle format recordLen (stripCr line)).map fun a =>
      some (a, rest) := by
  obtain ⟨line, rest, rfl, hline⟩ | hnone := text_rest xs
  · exact ⟨line, rest, lines_cons hline rest, cut_line htext hline rest⟩
  · exact ⟨xs, [], lines_rest hnone hne, cut_rest htext hnone hne⟩

/-- A text is cut into its lines, or one of them is too long. -/
lemma drains_text (hpos : 0 < recordLen) (htext : format.isText = true)
    (h : Drains (cut format recordLen) xs bs r) :
    (∀ ys, r = .ok ys →
      List.Forall₂ (fun line a => textArticle format recordLen (stripCr line) = .ok a) (lines xs) bs) ∧
    ∀ e, r = .error e → ∃ line ∈ lines xs, recordLen < (stripCr line).length := by
  induction h with
  | short hcut =>
    obtain rfl := cut_none hcut
    exact ⟨fun _ _ => .nil, nofun⟩
  | @error xs e hcut =>
    refine ⟨nofun, fun _ _ => ?_⟩
    have hne : xs ≠ [] := by
      rintro rfl
      rw [cut_nil format hpos] at hcut
      cases hcut
    obtain ⟨line, rest, hlines, heq⟩ := cut_text recordLen htext hne
    refine ⟨line, by rw [hlines]; exact List.mem_cons_self, ?_⟩
    obtain ⟨hlong, -⟩ | ⟨a, hok⟩ := textArticle_cases format recordLen (stripCr line)
    · exact hlong
    · rw [heq, hok] at hcut
      cases hcut
  | @unit xs b rest bs r hcut _ ih =>
    have hne : xs ≠ [] := by
      rintro rfl
      rw [cut_nil format hpos] at hcut
      cases hcut
    obtain ⟨line, rest', hlines, heq⟩ := cut_text recordLen htext hne
    obtain ⟨-, herr⟩ | ⟨a, hok⟩ := textArticle_cases format recordLen (stripCr line)
    · rw [heq, herr] at hcut
      cases hcut
    · rw [heq, hok] at hcut
      obtain ⟨rfl, rfl⟩ := Prod.mk.inj (Option.some.inj (Except.ok.inj hcut))
      rw [hlines]
      refine ⟨fun ys hr => .cons hok (ih.1 ys hr), fun e hr => ?_⟩
      obtain ⟨l, hl, hlong⟩ := ih.2 e hr
      exact ⟨l, List.mem_cons_of_mem _ hl, hlong⟩

lemma cut_binary (htext : format.isText = false) (hle : recordLen ≤ xs.length) :
    cut format recordLen xs = .ok (some (xs.take recordLen, xs.drop recordLen)) :=
  cut_unit (by rw [read_binary htext, if_pos hle])

lemma cut_binary_rest (htext : format.isText = false) (hlt : xs.length < recordLen) (hne : xs ≠ []) :
    cut format recordLen xs =
      if format = .bf then .error (.unfilledRecord xs.length recordLen) else .ok (some (xs, [])) := by
  have hempty : xs.isEmpty = false := by simpa using hne
  rw [cut_short (by rw [read_binary htext, if_neg (Nat.not_le_of_lt hlt)])]
  cases format with
  | tv | tf => cases htext
  | _ =>
    simp only [lastArticle, hempty, Bool.false_eq_true, if_false]
    rfl

/-- Other files are cut into records, of which only a fixed format insists that the last one is full. -/
lemma drains_binary (hpos : 0 < recordLen) (htext : format.isText = false)
    (h : Drains (cut format recordLen) xs bs r) :
    (∀ ys, r = .ok ys → bs.flatten = xs ∧ (format = .bf → recordLen ∣ xs.length)) ∧
    ∀ e, r = .error e → format = .bf ∧ ¬ recordLen ∣ xs.length := by
  induction h with
  | short hcut =>
    obtain rfl := cut_none hcut
    exact ⟨fun _ _ => ⟨rfl, fun _ => Nat.dvd_zero recordLen⟩, nofun⟩
  | @error xs e hcut =>
    refine ⟨nofun, fun _ _ => ?_⟩
    have hne : xs ≠ [] := by
      rintro rfl
      rw [cut_nil format hpos] at hcut
      cases hcut
    have hlt : xs.length < recordLen := by
      by_contra hle
      rw [cut_binary htext (Nat.le_of_not_lt hle)] at hcut
      cases hcut
    rw [cut_binary_rest htext hlt hne] at hcut
    split at hcut
    · rename_i hbf
      exact ⟨hbf, Nat.not_dvd_of_pos_of_lt (List.length_pos_iff.mpr hne) hlt⟩
    · cases hcut
  | @unit xs b rest bs r hcut _ ih =>
    by_cases hle : recordLen ≤ xs.length
    · rw [cut_binary htext hle] at hcut
      obtain ⟨rfl, rfl⟩ := Prod.mk.inj (Option.some.inj (Except.ok.inj hcut))
      have hdvd : recordLen ∣ (xs.drop recordLen).length ↔ recordLen ∣ xs.length := by
        rw [List.length_drop]
        exact Nat.dvd_sub_iff_left hle (Nat.dvd_refl recordLen)
      rw [hdvd] at ih
      refine ⟨fun ys hr => ?_, ih.2⟩
      obtain ⟨hflat, hbf⟩ := ih.1 ys hr
      rw [List.flatten_cons, hflat, List.take_append_drop]
      exact ⟨rfl, hbf⟩
    · have hne : xs ≠ [] := by
        rintro rfl
        rw [cut_nil format hpos] at hcut
        cases hcut
      rw [cut_binary_rest htext (Nat.lt_of_not_le hle) hne] at hcut
      split at hcut
      · cases hcut
      · rename_i hbf
        obtain ⟨rfl, rfl⟩ := Prod.mk.inj (Option.some.inj (Except.ok.inj hcut))
        refine ⟨fun ys hr => ?_, fun e hr => absurd (ih.2 e hr).1 hbf⟩
        rw [List.flatten_cons, (ih.1 ys hr).1, List.append_nil]
        exact ⟨rfl, fun h => absurd h hbf⟩

end Drained

end ArticleCutter

def trimTrailingSpaces (a : Bytes) : Bytes := (a.reverse.dropWhile fun b => b = space).reverse

def articleToBytes (format : RecordFormat) (article : Bytes) : Bytes :=
  if format.isText then (if format = .tf then trimTrailingSpaces article else article) ++
    [lf] else article

/-- What a file becomes that is cut into articles and written again. -/
def imageOf (format : RecordFormat) (xs : Bytes) : Bytes :=
  match format with
  | .bu | .bf | .bv => xs
  | .tv => (lines xs).flatMap fun line => (if stripCr line = [] then [space] else stripCr line) ++ [lf]
  | .tf => (lines xs).flatMap fun line => trimTrailingSpaces (stripCr line) ++ [lf]

/-- A file that is not cut to its end. -/
def Uncut (format : RecordFormat) (recordLen : ℕ) (xs : Bytes) : Prop :=
  (format.isText = true ∧ ∃ line ∈ lines xs, recordLen < (stripCr line).length) ∨
    (format = .bf ∧ ¬ recordLen ∣ xs.length)

lemma trimTrailingSpaces_padded (a : Bytes) (n : ℕ) :
    trimTrailingSpaces (a ++ List.replicate n space) = trimTrailingSpaces a := by
  rw [trimTrailingSpaces, trimTrailingSpaces, List.reverse_append, List.reverse_replicate]
  congr 1
  induction n with
  | zero => rfl
  | succ n ih =>
    rw [List.replicate_succ, List.cons_append, List.dropWhile_cons_of_pos (by decide)]
    exact ih

/-- The space that stands for an empty record goes as well. -/
lemma trimTrailingSpaces_filled (a : Bytes) :
    trimTrailingSpaces (if a.isEmpty then [space] else a) = trimTrailingSpaces a := by
  cases a <;> rfl

lemma flatMap_of_forall₂ {α β γ : Type} {R : α → β → Prop} {f : β → List γ} {g : α → List γ}
    {as : List α} {bs : List β} (h : List.Forall₂ R as bs) (hfg : ∀ a b, R a b → f b = g a) :
    bs.flatMap f = as.flatMap g := by
  induction h with
  | nil => rfl
  | cons hab _ ih => rw [List.flatMap_cons, List.flatMap_cons, hfg _ _ hab, ih]

section Image

open ArticleCutter Library.Incremental

variable {recordLen : ℕ} {line a xs : Bytes} {bs : List Bytes}

lemma textArticle_fits {format : RecordFormat} (h : textArticle format recordLen line = .ok a) :
    line.length ≤ recordLen := by
  rw [textArticle] at h
  split at h
  · cases h
  · omega

lemma articleToBytes_tv (h : textArticle .tv recordLen line = .ok a) :
    articleToBytes .tv a = (if line = [] then [space] else line) ++ [lf] := by
  have hfits := textArticle_fits h
  rw [textArticle, if_neg (Nat.not_lt_of_le hfits)] at h
  obtain rfl := Except.ok.inj h
  cases line <;> rfl

lemma articleToBytes_tf (h : textArticle .tf recordLen line = .ok a) :
    articleToBytes .tf a = trimTrailingSpaces line ++ [lf] := by
  have hfits := textArticle_fits h
  rw [textArticle, if_neg (Nat.not_lt_of_le hfits)] at h
  obtain rfl := Except.ok.inj h
  show trimTrailingSpaces
    (if (line ++ List.replicate (recordLen - line.length) space).isEmpty then [space]
    else line ++ List.replicate (recordLen - line.length) space) ++ [lf] = _
  rw [trimTrailingSpaces_filled, trimTrailingSpaces_padded]

/-- The articles of a file that is cut to its end, written again. -/
lemma image_drains {format : RecordFormat} (hpos : 0 < recordLen) {ys : Bytes}
    (h : Drains (cut format recordLen) xs bs (.ok ys)) :
    bs.flatMap (articleToBytes format) = imageOf format xs := by
  cases htext : format.isText with
  | false =>
    have hflat := ((drains_binary hpos htext h).1 ys rfl).1
    have hsame : articleToBytes format = id := by
      funext a
      rw [articleToBytes, htext]
      rfl
    rw [hsame, List.flatMap_id, hflat]
    cases format with
    | tv | tf => cases htext
    | _ => rfl
  | true =>
    have hlines := (drains_text hpos htext h).1 ys rfl
    cases format with
    | tv => exact flatMap_of_forall₂ hlines fun _ _ harticle => articleToBytes_tv harticle
    | tf => exact flatMap_of_forall₂ hlines fun _ _ harticle => articleToBytes_tf harticle
    | _ => cases htext

/-- A file is cut to its end or it is not. -/
lemma uncut_drains {format : RecordFormat} (hpos : 0 < recordLen) {r : Except RecordError Bytes}
    (h : Drains (cut format recordLen) xs bs r) : Uncut format recordLen xs ↔ ∃ e, r = .error e := by
  cases r with
  | error e =>
    refine iff_of_true ?_ ⟨e, rfl⟩
    cases htext : format.isText with
    | true => exact .inl ⟨htext, (drains_text hpos htext h).2 e rfl⟩
    | false => exact .inr ((drains_binary hpos htext h).2 e rfl)
  | ok ys =>
    refine iff_of_false ?_ (by simp)
    rintro (⟨htext, line, hline, hlong⟩ | ⟨rfl, hdvd⟩)
    · have hlines := (drains_text hpos htext h).1 ys rfl
      have hfits : List.Forall₂ (fun l a => (stripCr l).length ≤ recordLen ∧
          textArticle format recordLen (stripCr l) = .ok a) (lines xs) bs :=
        hlines.imp fun _ _ harticle => ⟨textArticle_fits harticle, harticle⟩
      exact Nat.not_lt_of_le (((List.forall₂_and_left _ _).mp hfits).1 line hline) hlong
    · exact hdvd (((drains_binary hpos rfl h).1 ys rfl).2 rfl)

end Image

end PesitWizard.Core
