import PesitWizard.Io.Checkpoint

/-! Article sources and sinks. -/

namespace PesitWizard.Io

open PesitWizard.Core

structure Position where
  fileOffset : ℕ
  dataBytes : ℕ
  articles : ℕ
  deriving DecidableEq

def Position.default : Position := ⟨0, 0, 0⟩

def positionOf (cp : Checkpoint) : Position := ⟨cp.fileOffset, cp.dataBytes, cp.articles⟩

structure ArticleSource (σ : Type) where
  nextArticle : σ → Option (Bytes × σ)
  position : σ → Position
  rewind : σ → Position → σ

/-- `position` is what checkpoint() returns; its flush, and its failure, are moves of their
own (`Flushing`). -/
structure ArticleSink (τ : Type) where
  writeArticle : τ → Bytes → τ
  position : τ → Position
  truncate : τ → Position → τ

section Lawful

variable {σ τ : Type}

structure ArticleSource.Yields (src : ArticleSource σ) (articles : List Bytes)
    (At : σ → ℕ → Prop) : Prop where
  next : ∀ {s k a}, At s k → articles[k]? = some a →
    ∃ s', src.nextArticle s = some (a, s') ∧ At s' (k + 1)
  done : ∀ {s k}, At s k → articles[k]? = none → src.nextArticle s = none
  rewind : ∀ {s t j k}, At s k → At t j → ∀ bytes,
    At (src.rewind t ⟨(src.position s).fileOffset, bytes, k⟩) k
  rewindDefault : ∀ {t j}, At t j → At (src.rewind t .default) 0

/-- A position to which a source can be rewound. -/
def ArticleSource.Marks (src : ArticleSource σ) (At : σ → ℕ → Prop) (pos : Position) : Prop :=
  pos = .default ∨ ∃ s, At s pos.articles ∧ (src.position s).fileOffset = pos.fileOffset

lemma ArticleSource.Yields.rewind_marks {src : ArticleSource σ} {articles : List Bytes}
    {At : σ → ℕ → Prop} (h : src.Yields articles At) {pos : Position} (hpos : src.Marks At pos) {t : σ}
    {j : ℕ} (ht : At t j) :
    At (src.rewind t pos) pos.articles := by
  rcases hpos with rfl | ⟨s, hs, hoffset⟩
  · exact h.rewindDefault ht
  · obtain ⟨offset, bytes, k⟩ := pos
    obtain rfl : _ = offset := hoffset
    exact h.rewind hs ht bytes

structure ArticleSink.Keeps (ops : ArticleSink τ) (Holds : τ → List Bytes → Prop) : Prop where
  write : ∀ {t written}, Holds t written → ∀ a, Holds (ops.writeArticle t a) (written ++ [a])
  truncate : ∀ {t t' before after}, Holds t (before ++ after) → Holds t' before →
    ∀ bytes, Holds (ops.truncate t ⟨(ops.position t').fileOffset, bytes, before.length⟩) before
  truncateDefault : ∀ {t written}, Holds t written → Holds (ops.truncate t .default) []

end Lawful

structure VecSource where
  articles : List Bytes
  index : ℕ
  pos : Position

namespace VecSource

def new (articles : List Bytes) : VecSource := ⟨articles, 0, .default⟩

def nextArticle (s : VecSource) : Option (Bytes × VecSource) :=
  match s.articles[s.index]? with
  | none => none
  | some a =>
    let dataBytes := s.pos.dataBytes + a.length
    some (a, { s with index := s.index + 1, pos := ⟨dataBytes, dataBytes, s.pos.articles + 1⟩ })

def rewind (s : VecSource) (pos : Position) : VecSource := { s with index := pos.articles, pos := pos }

def ops : ArticleSource VecSource := ⟨nextArticle, pos, rewind⟩

lemma ops_yields (articles : List Bytes) :
    ops.Yields articles (fun s k => s.articles = articles ∧ s.index = k) where
  next := by
    rintro s k a ⟨rfl, rfl⟩ ha
    simp only [ops, nextArticle, ha]
    exact ⟨_, rfl, rfl, rfl⟩
  done := by
    rintro s k ⟨rfl, rfl⟩ ha
    simp only [ops, nextArticle, ha]
  rewind := by
    rintro s t j k - ⟨rfl, -⟩ bytes
    exact ⟨rfl, rfl⟩
  rewindDefault := by
    rintro t j ⟨rfl, -⟩
    exact ⟨rfl, rfl⟩

end VecSource

structure VecSink where
  articles : List Bytes
  pos : Position

namespace VecSink

def new : VecSink := ⟨[], .default⟩

def writeArticle (s : VecSink) (article : Bytes) : VecSink :=
  let dataBytes := s.pos.dataBytes + article.length
  ⟨s.articles ++ [article], ⟨dataBytes, dataBytes, s.pos.articles + 1⟩⟩

def truncate (s : VecSink) (pos : Position) : VecSink := ⟨s.articles.take pos.articles, pos⟩

def ops : ArticleSink VecSink := ⟨writeArticle, pos, truncate⟩

lemma ops_keeps : ops.Keeps (fun t written => t.articles = written) where
  write := by
    rintro t written rfl a
    rfl
  truncate := by
    rintro t t' before after h - bytes
    simp [ops, VecSink.truncate, h]
  truncateDefault := by
    rintro t written -
    simp [ops, VecSink.truncate, Position.default]

end VecSink

end PesitWizard.Io
