import PesitWizard.App.Http
import PesitWizard.Library.Template

/-! What a pattern with placeholders becomes: the placeholders are replaced one after the other, and the
result is the pattern with all of them filled at once. -/

namespace PesitWizard.App

open Library

/-- The text that stands for a placeholder. -/
def mark (name : String) : List Char := '$' :: '\x7b' :: name.toList ++ ['\x7d']

def Sober (name : String) : Prop := '$' ∉ name.toList ∧ '\x7d' ∉ name.toList

def PlainPart : Part → Prop
  | .literal c => c ≠ '$'
  | .hole name => Sober name

/-- What is put for each placeholder; the others stay as they are. -/
def assign (values : List (String × String)) : String → List Char :=
  values.foldl (fun v x => Function.update v x.1 x.2.toList) mark

section Replace

variable {x rest : List Char} {name other : String}

lemma replaceFrom_skip (m ys : List Char) :
    replaceFrom m x ys.length (ys ++ rest) = replaceFrom m x 0 rest := by
  induction ys with
  | nil => rfl
  | cons c ys ih => exact ih

lemma replaceFrom_copy {xs : List Char} (h : '$' ∉ xs) :
    replaceFrom (mark name) x 0 (xs ++ rest) = xs ++ replaceFrom (mark name) x 0 rest := by
  induction xs with
  | nil => rfl
  | cons c xs ih =>
    have hprefix : (mark name).isPrefixOf (c :: (xs ++ rest)) = false := by
      have hc : ('$' == c) = false := beq_false_of_ne fun heq => h (heq ▸ List.mem_cons_self)
      simp [mark, List.isPrefixOf, hc]
    rw [List.cons_append, replaceFrom, hprefix]
    exact congrArg (c :: ·) (ih fun hmem => h (List.mem_cons_of_mem c hmem))

lemma replaceFrom_mark :
    replaceFrom (mark name) x 0 (mark name ++ rest) = x ++ replaceFrom (mark name) x 0 rest := by
  have hprefix : (mark name).isPrefixOf (mark name ++ rest) = true :=
    List.isPrefixOf_iff_prefix.mpr (List.prefix_append _ _)
  obtain ⟨tail, htail⟩ : ∃ tail, mark name = '$' :: tail := ⟨_, rfl⟩
  have hlength :
      (mark name).length - 1 = tail.length := by rw [htail, List.length_cons, Nat.add_sub_cancel]
  rw [htail, List.cons_append] at hprefix ⊢
  rw [replaceFrom, hprefix, if_pos rfl, ← htail, hlength, replaceFrom_skip]

lemma mark_at_front (hname : Sober name) (hother : Sober other) (h : mark name <+: mark other ++ rest) :
    name = other := by
  obtain ⟨tail, htail⟩ := h
  simp only [mark, List.cons_append, List.cons.injEq, true_and, List.append_assoc] at htail
  have hspan : ∀ n : String, '\x7d' ∉ n.toList → ∀ ys : List Char,
      (n.toList ++ '\x7d' :: ys).takeWhile (fun c => c ≠ '\x7d') = n.toList := by
    intro n hn ys
    rw [List.takeWhile_append_of_pos]
    · simp
    · intro c hc
      simp only [ne_eq, decide_not, Bool.not_eq_eq_eq_not, Bool.not_true, decide_eq_false_iff_not]
      rintro rfl
      exact hn hc
  apply String.toList_injective
  rw [← hspan name hname.2 tail, ← hspan other hother.2 rest]
  exact congrArg _ htail

lemma replaceFrom_other (hname : Sober name) (hother : Sober other) (hne : name ≠ other) :
    replaceFrom (mark name) x 0 (mark other ++ rest) = mark other ++
    replaceFrom (mark name) x 0 rest := by
  have hprefix : (mark name).isPrefixOf (mark other ++ rest) = false := by
    rw [Bool.eq_false_iff, ne_eq, List.isPrefixOf_iff_prefix]
    exact fun h => hne (mark_at_front hname hother h)
  obtain ⟨tail, htail⟩ : ∃ tail, mark other = '$' :: tail := ⟨_, rfl⟩
  have hcopy : '$' ∉ tail := by
    obtain rfl := (List.cons.inj htail).2
    simp [hother.1]
  rw [htail, List.cons_append] at hprefix ⊢
  rw [replaceFrom, hprefix]
  exact congrArg ('$' :: ·) (replaceFrom_copy hcopy)

end Replace

/-- A placeholder that is still there is replaced, and what was put for the others is left. -/
lemma replaceFrom_render {v : String → List Char} {name : String} {x : List Char} (hname : Sober name)
    (hv : v name = mark name) (hothers : ∀ k, v k = mark k ∨ '$' ∉ v k) {t : Template}
    (ht : ∀ p ∈ t, PlainPart p) :
    replaceFrom (mark name) x 0 (Template.render v t) =
    Template.render (Function.update v name x) t := by
  induction t with
  | nil => rfl
  | cons p t ih =>
    rw [List.forall_mem_cons] at ht
    rw [Template.render_cons, Template.render_cons, ← ih ht.2]
    cases p with
    | literal c =>
      refine replaceFrom_copy ?_
      intro hmem
      exact ht.1 (List.mem_singleton.mp hmem).symm
    | hole other =>
      simp only [Part.text]
      by_cases hne : other = name
      · subst hne
        rw [hv, Function.update_self]
        exact replaceFrom_mark
      · rw [Function.update_of_ne hne]
        rcases hothers other with hother | hother
        · rw [hother]
          exact replaceFrom_other hname ht.1 (Ne.symm hne)
        · exact replaceFrom_copy hother

lemma resolve_render {values : List (String × String)} {v : String → List Char}
    {s : String} {t : Template} (hs : s.toList = Template.render v t) (ht : ∀ p ∈ t, PlainPart p)
    (hnames : (values.map Prod.fst).Nodup) (hsober : ∀ x ∈ values, Sober x.1)
    (hvalues : ∀ x ∈ values, '$' ∉ x.2.toList) (hfresh : ∀ x ∈ values, v x.1 = mark x.1)
    (hothers : ∀ k, v k = mark k ∨ '$' ∉ v k) :
    (resolvePlaceholders s values).toList =
      Template.render (values.foldl (fun v x => Function.update v x.1 x.2.toList) v) t := by
  induction values generalizing v s with
  | nil => exact hs
  | cons x values ih =>
    rw [List.map_cons, List.nodup_cons] at hnames
    rw [List.forall_mem_cons] at hsober hvalues hfresh
    have hmark : ("$\x7b" ++ x.1 ++ "\x7d").toList = mark x.1 := by simp [mark]
    refine ih (v := Function.update v x.1 x.2.toList) (s := replace s ("$\x7b" ++ x.1 ++ "\x7d") x.2) ?_
      hnames.2 hsober.2 hvalues.2 ?_ ?_
    · rw [replace, String.toList_ofList, hmark, hs]
      exact replaceFrom_render hsober.1 hfresh.1 hothers ht
    · intro y hy
      rw [Function.update_of_ne]
      · exact hfresh.2 y hy
      · intro heq
        exact hnames.1 (heq ▸ List.mem_map_of_mem hy)
    · intro k
      by_cases hk : k = x.1
      · subst hk
        rw [Function.update_self]
        exact .inr hvalues.1
      · rw [Function.update_of_ne hk]
        exact hothers k

/-- Values without a dollar sign are put for their placeholders as if all at once. -/
theorem resolvePlaceholders_render {values : List (String × String)} {pattern : String} {t : Template}
    (hpattern : pattern.toList = Template.render mark t) (ht : ∀ p ∈ t, PlainPart p)
    (hnames : (values.map Prod.fst).Nodup) (hsober : ∀ x ∈ values, Sober x.1)
    (hvalues : ∀ x ∈ values, '$' ∉ x.2.toList) :
    (resolvePlaceholders pattern values).toList = Template.render (assign values) t :=
  resolve_render hpattern ht hnames hsober hvalues (fun _ _ => rfl) fun _ => .inl rfl

/-- The text for a placeholder is its value, or the placeholder itself. -/
lemma assign_cases (values : List (String × String)) (name : String) :
    assign values name = mark name ∨ ∃ x ∈ values, assign values name = x.2.toList := by
  suffices h :
      ∀ v : String → List Char,
      (values.foldl (fun v x => Function.update v x.1 x.2.toList) v) name = v name ∨
      ∃ x ∈ values, (values.foldl (fun v x => Function.update v x.1 x.2.toList) v) name =
      x.2.toList from h mark
  induction values with
  | nil => exact fun v => .inl rfl
  | cons x values ih =>
    intro v
    rcases ih (Function.update v x.1 x.2.toList) with h | ⟨y, hy, h⟩
    · by_cases hname : name = x.1
      · subst hname
        rw [Function.update_self] at h
        exact .inr ⟨x, List.mem_cons_self, h⟩
      · rw [Function.update_of_ne hname] at h
        exact .inl h
    · exact .inr ⟨y, List.mem_cons_of_mem x hy, h⟩

end PesitWizard.App
