import Mathlib.Tactic.Common

/-! Readers that take units off a buffer to which input is appended from time to time. What a stable
reader makes of a stream does not depend on how the stream came. -/

namespace PesitWizard.Library.Incremental

variable {α β ε : Type}

abbrev Reader (α β ε : Type) := List α → Except ε (Option (β × List α))

/-- More input changes nothing about a unit or an error that is there, and a unit takes
some of the input. -/
structure Stable (read : Reader α β ε) : Prop where
  unit : ∀ {xs b rest}, read xs = .ok (some (b, rest)) →
    ∀ ys, read (xs ++ ys) = .ok (some (b, rest ++ ys))
  error : ∀ {xs e}, read xs = .error e → ∀ ys, read (xs ++ ys) = .error e
  consumes : ∀ {xs b rest}, read xs = .ok (some (b, rest)) → rest.length < xs.length

inductive Drains (read : Reader α β ε) : List α → List β → Except ε (List α) → Prop
  | short {xs} : read xs = .ok none → Drains read xs [] (.ok xs)
  | error {xs e} : read xs = .error e → Drains read xs [] (.error e)
  | unit {xs b rest bs r} :
    read xs = .ok (some (b, rest)) → Drains read rest bs r → Drains read xs (b :: bs) r

variable {read : Reader α β ε}

lemma Drains.det {xs : List α} {bs cs : List β} {r t : Except ε (List α)} (h : Drains read xs bs r)
    (k : Drains read xs cs t) : bs = cs ∧ r = t := by
  induction h generalizing cs t with
  | short h =>
    cases k with
    | short _ => exact ⟨rfl, rfl⟩
    | error k =>
      rw [h] at k
      cases k
    | unit k _ =>
      rw [h] at k
      cases k
  | error h =>
    cases k with
    | short k =>
      rw [h] at k
      cases k
    | error k =>
      rw [h] at k
      cases k
      exact ⟨rfl, rfl⟩
    | unit k _ =>
      rw [h] at k
      cases k
  | unit h _ ih =>
    cases k with
    | short k =>
      rw [h] at k
      cases k
    | error k =>
      rw [h] at k
      cases k
    | unit k hrest =>
      rw [h] at k
      cases k
      obtain ⟨rfl, rfl⟩ := ih hrest
      exact ⟨rfl, rfl⟩

lemma Drains.exists (hs : ∀ {xs b rest}, read xs = .ok (some (b, rest)) → rest.length < xs.length)
    (xs : List α) :
    ∃ bs r, Drains read xs bs r := by
  induction hn : xs.length using Nat.strongRecOn generalizing xs with
  | _ n ih =>
    cases hr : read xs with
    | error e => exact ⟨[], _, .error hr⟩
    | ok x =>
      cases x with
      | none => exact ⟨[], _, .short hr⟩
      | some p =>
        obtain ⟨b, rest⟩ := p
        obtain ⟨bs, r, h⟩ := ih rest.length (hn ▸ hs hr) rest rfl
        exact ⟨b :: bs, r, .unit hr h⟩

/-- What has been read so far of a stream, of which the buffer holds the rest: whatever follows, the
units of the stream are those read and those of the rest. -/
def Reads (read : Reader α β ε) (stream : List α) (bs : List β) (rest : List α) : Prop :=
  ∀ ys cs r, Drains read (rest ++ ys) cs r → Drains read (stream ++ ys) (bs ++ cs) r

lemma Reads.refl (xs : List α) : Reads read xs [] xs := fun _ _ _ h => h

lemma Reads.append {stream rest : List α} {bs : List β} (h : Reads read stream bs rest) (xs : List α) :
    Reads read (stream ++ xs) bs (rest ++ xs) := by
  intro ys cs r hd
  rw [List.append_assoc] at hd ⊢
  exact h (xs ++ ys) cs r hd

lemma Reads.unit (hs : Stable read) {stream xs rest : List α} {bs : List β} {b : β}
    (h : Reads read stream bs xs) (hr : read xs = .ok (some (b, rest))) :
    Reads read stream (bs ++ [b]) rest := by
  intro ys cs r hd
  rw [List.append_assoc]
  exact h ys (b :: cs) r (.unit (hs.unit hr ys) hd)

lemma Reads.drains {stream rest : List α} {bs cs : List β} {r : Except ε (List α)}
    (h : Reads read stream bs rest) (hd : Drains read rest cs r) : Drains read stream (bs ++ cs) r := by
  have := h [] cs r (by rwa [List.append_nil])
  rwa [List.append_nil] at this

end PesitWizard.Library.Incremental
