import PesitWizard.Core.Packing

/-! Runs of a packer and of a reassembler over any number of calls: what is packed comes back, and which
articles the limit of the reassembler reaches. -/

namespace PesitWizard.Core

open Library.BigEndian Library.Scan

namespace ArticlePacker

open Reassembler

inductive Call
  | push (article : Bytes)
  | flush
  deriving DecidableEq

namespace Call

def article : Call → Option Bytes
  | push a => some a
  | flush => none

def perform (p : ArticlePacker) : Call → List Fpdu × ArticlePacker
  | push a => p.push a
  | flush =>
    let (f, p) := p.flush
    (f.toList, p)

end Call

def packAll : ArticlePacker → List Call → List Fpdu × ArticlePacker
  | p, [] => ([], p)
  | p, c :: cs =>
    let (fs, p) := c.perform p
    let (gs, p) := packAll p cs
    (fs ++ gs, p)

/-- A DTF with a count carries that many articles, more than one of them. -/
def Counted (f : Fpdu) : Prop :=
  0 < f.idSrc → ∃ ws, articlesOf f = .ok ws ∧ 2 ≤ ws.length ∧ ws.length ≤ maxArticlesPerDtf ∧
    f.idSrc.toNat = ws.length

lemma counted_of_zero {f : Fpdu} (h : f.idSrc = 0) : Counted f := by
  intro hpos
  rw [h] at hpos
  exact absurd hpos (by decide)

variable {p : ArticlePacker} {ws : List Bytes}

lemma new_holds (idDst : UInt8) {maxDtfLen : ℕ} (h : maxDtfLen ≤ maxFpduLen) (multiArticle : Bool) :
    (new idDst maxDtfLen multiArticle).Holds [] := by
  refine ⟨rfl, rfl, by simp, by simp, by simp, ?_, ?_⟩
  · exact lt_of_lt_of_le (Nat.lt_succ_self _) (le_max_right _ _)
  · exact max_le h (by decide)

lemma articlesOf_of_feedAll {f : Fpdu} {r : Reassembler} (hk : f.kind = .dtf)
    (h : feedAll (Reassembler.new 0) [f] = .ok (ws, r)) : articlesOf f = .ok ws := by
  simp only [feedAll, feed, hk, Reassembler.new, Option.isSome_none, Bool.false_eq_true, if_false] at h
  cases hof : articlesOf f with
  | error e =>
    rw [hof] at h
    cases h
  | ok articles =>
    rw [hof] at h
    simp only [List.append_nil, Except.ok.injEq, Prod.mk.injEq] at h
    rw [h.1]

lemma flushInto_counted (h : p.Holds ws) : ∀ f ∈ (p.flushInto []).1, Counted f := by
  obtain ⟨fs, hflush, -, -, hfeed⟩ := flushInto_spec h 0 []
  intro f hf
  simp only [flushInto, List.nil_append] at hflush hf
  split at hf
  · simp at hf
  · rename_i hcount
    rw [if_neg hcount] at hflush
    obtain rfl := List.mem_singleton.mp hf
    obtain ⟨rfl, -⟩ := Prod.mk.inj hflush
    by_cases hone : p.pendingCount = 1
    · refine counted_of_zero ?_
      rw [if_pos hone]
      rfl
    · rw [if_neg hone] at hfeed ⊢
      have hof := articlesOf_of_feedAll rfl hfeed
      have hfew := h.few
      have hc := h.count
      intro _
      refine ⟨ws, hof, by omega, hfew, ?_⟩
      rw [Fpdu.ofData, hc, UInt8.toNat_ofNat']
      exact Nat.mod_eq_of_lt (by simp only [maxArticlesPerDtf] at hfew; omega)

lemma segments_idSrc (d : UInt8) (first : Bool) (cs : List Bytes) :
    ∀ f ∈ segments d first cs, f.idSrc = 0 := by
  induction cs generalizing first with
  | nil => simp [segments]
  | cons c cs ih =>
    cases cs with
    | nil => simp [segments, Fpdu.ofData]
    | cons c' cs =>
      simp only [segments, List.forall_mem_cons]
      exact ⟨rfl, ih false⟩

lemma push_counted (h : p.Holds ws) (a : Bytes) : ∀ f ∈ (p.push a).1, Counted f := by
  intro f hf
  simp only [push] at hf
  split at hf
  · rcases List.mem_append.mp hf with hf | hf
    · exact flushInto_counted h f hf
    · exact counted_of_zero (segments_idSrc _ _ _ f hf)
  · split at hf
    · obtain rfl := List.mem_singleton.mp hf
      exact counted_of_zero rfl
    · split at hf
      · exact flushInto_counted h f hf
      · simp at hf

lemma perform_spec (h : p.Holds ws) (hmono : p.multiArticle = false → ws = []) (c : Call) :
    ∃ out ws', (c.perform p).2.Holds ws' ∧ (c.perform p).2.maxDtfLen = p.maxDtfLen ∧
      ((c.perform p).2.multiArticle = false → ws' = []) ∧
      (∀ f ∈ (c.perform p).1, Emits p.maxDtfLen f ∧ Counted f) ∧
      feedAll (Reassembler.new 0) (c.perform p).1 = .ok (out, Reassembler.new 0) ∧
      out ++ ws' = ws ++ c.article.toList ∧ (c = .flush → ws' = []) := by
  cases c with
  | push a =>
    obtain ⟨fs, ws', p', hpush, hholds, hmax, hmono', hemit, hok, -⟩ := push_spec h 0 (w := a) hmono
    obtain ⟨out, hfeed, hout⟩ := hok (.inr (.inl rfl))
    have hcounted := push_counted h a
    rw [hpush] at hcounted
    simp only [Call.perform, hpush]
    exact ⟨out, ws', hholds, hmax, hmono', fun f hf => ⟨hemit f hf, hcounted f hf⟩, hfeed, hout, by simp⟩
  | flush =>
    obtain ⟨fs, hflush, hemit, hlen, hfeed⟩ := flushInto_spec h 0 []
    have hcounted := flushInto_counted h
    rw [hflush] at hcounted
    have hfs : fs.getLast?.toList = fs := by
      match fs, hlen with
      | [], _ => rfl
      | [f], _ => rfl
    simp only [Call.perform, flush, hflush, List.nil_append, hfs]
    exact ⟨ws, [], h.emptied, rfl, fun _ => rfl, fun f hf => ⟨hemit f hf, hcounted f hf⟩, hfeed,
      by simp [Call.article], fun _ => rfl⟩

lemma packAll_spec (h : p.Holds ws) (hmono : p.multiArticle = false → ws = []) (cs : List Call) :
    ∃ out ws', (packAll p cs).2.Holds ws' ∧ (∀ f ∈ (packAll p cs).1, Emits p.maxDtfLen f ∧ Counted f) ∧
      feedAll (Reassembler.new 0) (packAll p cs).1 = .ok (out, Reassembler.new 0) ∧
      out ++ ws' = ws ++ cs.filterMap Call.article ∧ (cs.getLast? = some .flush → ws' = []) := by
  induction cs generalizing p ws with
  | nil => exact ⟨[], ws, h, by simp [packAll], rfl, by simp, by simp⟩
  | cons c cs ih =>
    obtain ⟨out, ws₁, hholds, hmax, hmono₁, hemit, hfeed, hout, hflush⟩ := perform_spec h hmono c
    obtain ⟨more, ws₂, hholds₂, hemit₂, hfeed₂, hout₂, hflush₂⟩ := ih hholds hmono₁
    rw [hmax] at hemit₂
    refine ⟨out ++ more, ws₂, hholds₂, ?_, ?_, ?_, ?_⟩
    · intro f hf
      rcases List.mem_append.mp hf with hf | hf
      · exact hemit f hf
      · exact hemit₂ f hf
    · simp only [packAll]
      rw [feedAll_append, hfeed]
      simp only [Except.bind, hfeed₂]
    · rw [List.append_assoc, hout₂, ← List.append_assoc, hout, List.append_assoc]
      cases hc : c.article <;> simp [hc]
    · cases cs with
      | nil =>
        intro hlast
        obtain rfl : c = .flush := by simpa using hlast
        obtain rfl := hflush rfl
        exact (List.append_eq_nil_iff.mp hout₂).2
      | cons c' cs =>
        intro hlast
        exact hflush₂ (by simpa using hlast)

/-- The articles come back in order, from FPDUs that fit. -/
theorem feedAll_packAll (idDst : UInt8) (maxDtfLen : ℕ) (hmax : maxDtfLen ≤ 65535) (multiArticle : Bool)
    (cs : List Call) :
    feedAll (Reassembler.new 0) (packAll (new idDst maxDtfLen multiArticle) (cs ++ [.flush])).1 =
        .ok (cs.filterMap Call.article, Reassembler.new 0) ∧
      ∀ f ∈ (packAll (new idDst maxDtfLen multiArticle) (cs ++ [.flush])).1,
        f.encodedLen ≤ max maxDtfLen 7 ∧
          (f.kind = .dtf → 0 < f.idSrc → ∃ ws, articlesOf f = .ok ws ∧ 2 ≤ ws.length ∧ ws.length ≤ 255 ∧
            f.idSrc.toNat = ws.length) := by
  obtain ⟨out, ws, -, hemit, hfeed, hout, hflush⟩ :=
    packAll_spec (new_holds idDst hmax multiArticle) (fun _ => rfl) (cs ++ [.flush])
  obtain rfl := hflush (by simp)
  refine ⟨?_, ?_⟩
  · have hlast : List.filterMap Call.article [Call.flush] = [] := rfl
    rw [List.append_nil, List.nil_append, List.filterMap_append, hlast, List.append_nil] at hout
    rw [hfeed, hout]
  · intro f hf
    obtain ⟨hemits, hcounted⟩ := hemit f hf
    exact ⟨hemits.2.2, fun _ hpos => hcounted hpos⟩

theorem feedAll_packAll_sixteen :
    feedAll (Reassembler.new 0)
        (packAll (new 3 16 true)
          ([.push [1, 2], .push [], .flush, .push (List.replicate 11 7), .push [9]] ++ [.flush])).1 =
      .ok ([[1, 2], [], List.replicate 11 7, [9]], Reassembler.new 0) :=
  (feedAll_packAll 3 16 (by decide) true [.push [1, 2], .push [], .flush,
    .push (List.replicate 11 7), .push [9]]).1

end ArticlePacker

section Carried

/-- The articles that a DTF carries: its whole content, or the counted articles with their
lengths before them. -/
def Fpdu.Carries (f : Fpdu) (ws : List Bytes) : Prop :=
  if f.idSrc = 0 then ws = [f.data]
  else f.data = ws.flatMap prefixed ∧ ws.length = f.idSrc.toNat ∧ ∀ w ∈ ws, w.length < 65536

lemma readArticle_ok {xs w rest : Bytes} (h : readArticle xs = .ok (w, rest)) :
    xs = prefixed w ++ rest ∧ w.length < 65536 := by
  match xs with
  | [] | [_] => cases h
  | hi :: lo :: xs =>
    simp only [readArticle] at h
    split at h
    · cases h
    · rename_i hlen
      obtain ⟨rfl, rfl⟩ := Prod.mk.inj (Except.ok.inj h)
      have hw : (xs.take (ofBe16 hi lo)).length = ofBe16 hi lo := by
        rw [List.length_take]
        omega
      refine ⟨?_, ?_⟩
      · rw [prefixed, hw, be16_ofBe16]
        simp
      · rw [hw]
        exact ofBe16_lt hi lo

lemma chunks_prefixed {xs : Bytes} {ws : List Bytes} (h : Chunks readArticle xs ws) :
    xs = ws.flatMap prefixed ∧ ∀ w ∈ ws, w.length < 65536 := by
  induction h with
  | nil => exact ⟨rfl, by simp⟩
  | cons _ hr _ ih =>
    obtain ⟨rfl, hlen⟩ := readArticle_ok hr
    obtain ⟨rfl, hrest⟩ := ih
    refine ⟨by simp, ?_⟩
    rw [List.forall_mem_cons]
    exact ⟨hlen, hrest⟩

lemma articlesOf_iff {f : Fpdu} (hk : f.kind = .dtf) (ws : List Bytes) :
    articlesOf f = .ok ws ↔ f.Carries ws := by
  rw [articlesOf, Fpdu.Carries]
  by_cases hsrc : f.idSrc = 0
  · have hnot : ¬ (f.kind = .dtf ∧ 0 < f.idSrc) := by
      rw [hsrc]
      simp
    rw [if_neg hnot, if_pos hsrc, Except.ok.injEq]
    exact eq_comm
  · have hpos : f.kind = .dtf ∧ 0 < f.idSrc := ⟨hk, UInt8.pos_iff_ne_zero.mpr hsrc⟩
    rw [if_pos hpos, if_neg hsrc]
    constructor
    · intro h
      cases hscan : scanAll readArticle (fun out a => .ok (out ++ [a])) f.data [] with
      | error e =>
        rw [hscan] at h
        cases h
      | ok out =>
        rw [hscan] at h
        simp only at h
        split at h
        · cases h
        · rename_i hcount
          obtain rfl := Except.ok.inj h
          obtain ⟨bs, hchunks, hfold⟩ := scanAll_ok readArticle_consumes hscan
          rw [Frame.foldlM_snoc, List.nil_append] at hfold
          obtain rfl := Except.ok.inj hfold
          obtain ⟨hdata, hlen⟩ := chunks_prefixed hchunks
          exact ⟨hdata, not_not.mp hcount, hlen⟩
    · rintro ⟨hdata, hcount, hlen⟩
      rw [hdata, articles_prefixed hlen]
      simp [hcount]

def Fpdu.octets (f : Fpdu) : Bytes := ((articlesOf f).toOption.getD []).flatten

end Carried

namespace Reassembler

lemma octets_segment {f : Fpdu} (h : f.kind ≠ .dtf) : f.octets = f.data := by
  rw [Fpdu.octets, articlesOf, if_neg (fun hf => h hf.1)]
  simp [Except.toOption]

lemma feed_octets {r r' : Reassembler} {f : Fpdu} {out : List Bytes} (hf : f.kind.isData = true)
    (h : r.feed f = .ok (out, r')) :
    r.part.getD [] ++ f.octets = out.flatten ++ r'.part.getD [] ∧
      r'.inProgress = (f.kind == .dtfDa || f.kind == .dtfMa) := by
  cases hk : f.kind with
  | dtf =>
    simp only [feed, hk] at h
    split at h
    · cases h
    · rename_i hpart
      split at h
      · cases h
      · rename_i articles harticles
        obtain ⟨rfl, rfl⟩ := Prod.mk.inj (Except.ok.inj h)
        obtain hnone : r.part = none := by simpa using hpart
        refine ⟨?_, ?_⟩
        · simp [Fpdu.octets, harticles, hnone, Except.toOption]
        · simp [inProgress, hnone]
  | dtfDa =>
    have hoctets := octets_segment (f := f) (by rw [hk]; decide)
    simp only [feed, hk] at h
    split at h
    · cases h
    · rename_i hpart
      split at h
      · cases h
      · obtain ⟨rfl, rfl⟩ := Prod.mk.inj (Except.ok.inj h)
        obtain hnone : r.part = none := by simpa using hpart
        exact ⟨by simp [hoctets, hnone], rfl⟩
  | dtfMa =>
    have hoctets := octets_segment (f := f) (by rw [hk]; decide)
    simp only [feed, hk, if_true] at h
    split at h
    · cases h
    · rename_i p hpart
      split at h
      · cases h
      · obtain ⟨rfl, rfl⟩ := Prod.mk.inj (Except.ok.inj h)
        exact ⟨by simp [hoctets, hpart], rfl⟩
  | dtfFa =>
    have hoctets := octets_segment (f := f) (by rw [hk]; decide)
    simp only [feed, hk] at h
    split at h
    · cases h
    · rename_i p hpart
      split at h
      · cases h
      · obtain ⟨rfl, rfl⟩ := Prod.mk.inj (Except.ok.inj h)
        exact ⟨by simp [hoctets, hpart], rfl⟩
  | _ =>
    rw [hk] at hf
    cases hf

/-- A call with the reassembler it leaves, also when it fails: a piece that makes the article too long
takes the article with it. -/
def call (r : Reassembler) (f : Fpdu) : Except ReassemblyError (List Bytes) × Reassembler :=
  match f.kind with
  | .dtf =>
    if r.part.isSome then (.error (.interleaved f.kind), r)
    else
      match articlesOf f with
      | .error _ => (.error (.interleaved f.kind), r)
      | .ok articles => (.ok articles, r)
  | .dtfDa =>
    if r.part.isSome then (.error (.interleaved f.kind), r)
    else
      match r.check f.data.length with
      | .error e => (.error e, r)
      | .ok _ => (.ok [], { r with part := some f.data })
  | .dtfMa | .dtfFa =>
    match r.part with
    | none => (.error (.noStart f.kind), r)
    | some p =>
      match r.check (p.length + f.data.length) with
      | .error e => (.error e, { r with part := none })
      | .ok _ =>
        if f.kind = .dtfMa then (.ok [], { r with part := some (p ++ f.data) })
        else (.ok [p ++ f.data], { r with part := none })
  | _ => (.ok [], r)

lemma feed_eq_call (r : Reassembler) (f : Fpdu) :
    r.feed f = (r.call f).1.map fun out => (out, (r.call f).2) := by
  simp only [feed, call]
  cases f.kind <;> simp only [Except.map] <;> (repeat' split) <;> simp_all

def callAll : Reassembler → List Fpdu → List (Except ReassemblyError (List Bytes)) × Reassembler
  | r, [] => ([], r)
  | r, f :: fs =>
    let (x, r) := r.call f
    let (xs, r) := callAll r fs
    (x :: xs, r)

lemma call_maxLen (r : Reassembler) (f : Fpdu) : (r.call f).2.maxLen = r.maxLen := by
  simp only [call]
  cases f.kind <;> simp only <;> (repeat' split) <;> rfl

/-- No article of the result is longer than `n`. -/
def Limited (n : ℕ) (x : Except ReassemblyError (List Bytes)) : Prop :=
  ∀ as, x = .ok as → ∀ a ∈ as, a.length ≤ n

lemma limited_error (n : ℕ) (e : ReassemblyError) : Limited n (.error e) := by
  intro as h
  cases h

lemma limited_nil (n : ℕ) : Limited n (.ok []) := by
  intro as h a ha
  obtain rfl := Except.ok.inj h
  simp at ha

lemma limited_call {r : Reassembler} (hr : 0 < r.maxLen) (f : Fpdu) :
    Limited r.maxLen (r.call f).1 ↔
      (f.kind = .dtf → r.part = none → ∀ ws, f.Carries ws → ∀ w ∈ ws, w.length ≤ r.maxLen) := by
  by_cases hk : f.kind = .dtf
  · simp only [call, hk, forall_const]
    cases hp : r.part with
    | some p =>
      simp only [Option.isSome_some, if_true, reduceCtorEq, false_imp_iff, iff_true]
      exact limited_error _ _
    | none =>
      simp only [Option.isSome_none, Bool.false_eq_true, if_false, forall_const, ← articlesOf_iff hk]
      cases articlesOf f with
      | error e =>
        refine iff_of_true (limited_error _ _) ?_
        intro ws h
        cases h
      | ok articles =>
        constructor
        · intro h ws hws
          obtain rfl := Except.ok.inj hws
          exact h articles rfl
        · intro h ws hws
          obtain rfl := Except.ok.inj hws
          exact h articles rfl
  · refine iff_of_true ?_ (fun h => absurd h hk)
    cases hkind : f.kind with
    | dtf => exact absurd hkind hk
    | dtfDa =>
      simp only [call, hkind]
      (repeat' split) <;> first | exact limited_error _ _ | exact limited_nil _
    | dtfMa =>
      simp only [call, hkind, if_true]
      (repeat' split) <;> first | exact limited_error _ _ | exact limited_nil _
    | dtfFa =>
      simp only [call, hkind]
      cases hp : r.part with
      | none => exact limited_error _ _
      | some p =>
        by_cases hlen : Within r.maxLen (p.length + f.data.length)
        · simp only [check_ok hlen]
          intro as h a ha
          obtain rfl := Except.ok.inj h
          obtain rfl := List.mem_singleton.mp ha
          rw [List.length_append]
          exact hlen.resolve_left (by omega)
        · simp only [check_error hlen]
          exact limited_error _ _
    | _ =>
      simp only [call, hkind]
      exact limited_nil _

lemma callAll_limited {r : Reassembler} (hr : 0 < r.maxLen) (fs : List Fpdu) :
    (∀ x ∈ (r.callAll fs).1, Limited r.maxLen x) ↔
      ∀ i f, fs[i]? = some f → f.kind = .dtf → (r.callAll (fs.take i)).2.part = none →
        ∀ ws, f.Carries ws → ∀ w ∈ ws, w.length ≤ r.maxLen := by
  induction fs generalizing r with
  | nil => simp [callAll]
  | cons f fs ih =>
    have hmax := call_maxLen r f
    have ih := ih (r := (r.call f).2) (by rwa [hmax])
    rw [hmax] at ih
    simp only [callAll, List.forall_mem_cons, ih, limited_call hr f]
    constructor
    · rintro ⟨hfirst, hrest⟩ i g hi
      cases i with
      | zero =>
        obtain rfl := Option.some.inj hi
        exact hfirst
      | succ i => exact hrest i g hi
    · intro h
      exact ⟨h 0 f rfl, fun i g hi => h (i + 1) g hi⟩

/-- In every sequence of calls the limit holds of what is returned exactly when every DTF that finds no
article in progress carries articles within it. -/
theorem callAll_limited_iff (maxLen : ℕ) (hmax : 0 < maxLen) (fs : List Fpdu) :
    (∀ x ∈ ((new maxLen).callAll fs).1, Limited maxLen x) ↔
      ∀ i f, fs[i]? = some f → f.kind = .dtf → ((new maxLen).callAll (fs.take i)).2.part = none →
        ∀ ws, f.Carries ws → ∀ w ∈ ws, w.length ≤ maxLen :=
  callAll_limited (r := new maxLen) hmax fs

theorem callAll_limited_iff_segments :
    ∃ x y, ((new 2).callAll [Fpdu.ofData .dtfDa 1 0 [7], Fpdu.ofData .dtfFa 1 0 [8, 9]]).1 = [x, y] ∧
      Limited 2 x ∧ Limited 2 y := by
  have hlimited :=
    (callAll_limited_iff 2 (by decide) [Fpdu.ofData .dtfDa 1 0 [7],
      Fpdu.ofData .dtfFa 1 0 [8, 9]]).mpr ?_
  · exact ⟨_, _, rfl, hlimited _ List.mem_cons_self,
      hlimited _ (List.mem_cons_of_mem _ List.mem_cons_self)⟩
  · intro i f hi hk
    match i with
    | 0 | 1 =>
      obtain rfl := Option.some.inj hi
      cases hk
    | _ + 2 => cases hi

/-- One DTF is enough to exceed the limit. -/
theorem callAll_dtf_unlimited :
    ¬ ∀ x ∈ ((new 2).callAll [Fpdu.ofData .dtf 1 0 [7, 8, 9]]).1, Limited 2 x := by
  intro h
  have := h (.ok [[7, 8, 9]]) (by decide) [[7, 8, 9]] rfl [7, 8, 9] (by decide)
  exact absurd this (by decide)

end Reassembler

end PesitWizard.Core
