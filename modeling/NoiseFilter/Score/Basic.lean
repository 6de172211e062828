import NoiseFilter.Score.Measure
import NoiseFilter.Text.Blank

/-!
# Scoring a text

Five signals, a point each, that together mark a text as written by formula: sentences of like
length, stock phrases, many buzzwords, many dashes, and curly quotes for the most part. A signal is
computed from whole numbers, and compared with a threshold.
-/

namespace NoiseFilter.Score

/-- From where on signals count. -/
structure Thresholds where
  /-- A lower variance of sentence lengths counts. -/
  sentenceVariance : Float := 20.0
  /-- So many phrases count. -/
  formulaicPhrases : Nat := 1
  buzzwordDensity : Float := 0.03
  emDashDensity : Float := 0.005
  curlyQuoteRatio : Float := 0.8
  /-- So many points mark a text. -/
  finalScore : Nat := 3

/-- The values of the signals. -/
structure Signals where
  sentenceVariance : Float := 0
  formulaicCount : Nat := 0
  buzzwordDensity : Float := 0
  emDashDensity : Float := 0
  curlyQuoteRatio : Float := 0

/-- What a text scores. -/
structure Result where
  /-- The number of signals that count. -/
  score : Nat := 0
  isFlagged : Bool := false
  signals : Signals := {}

/-- A share of a whole; 0 of nothing. -/
def share (part whole : Nat) : Float := if whole = 0 then 0 else part.toFloat / whole.toFloat

/-- The population variance of some lengths; 0 for fewer than two. -/
def variance (lengths : List Nat) : Float :=
  if lengths.length < 2 then 0
  else
    let values := lengths.map Nat.toFloat
    let count := lengths.length.toFloat
    let mean := values.foldl (· + ·) 0 / count
    (values.map fun x => (x - mean) * (x - mean)).foldl (· + ·) 0 / count

namespace Measure

def quotes (m : Measure) : Nat := m.curlyQuotes + m.straightQuotes

def signals (m : Measure) : Signals where
  sentenceVariance := variance m.sentenceLengths
  formulaicCount := m.phrases
  buzzwordDensity := share m.buzzwords m.words
  emDashDensity := share m.dashes m.characters
  curlyQuoteRatio := share m.curlyQuotes m.quotes

/-- Which signals count. A text without quotes has no share of curly ones. -/
def fired (m : Measure) (t : Thresholds) : List Bool :=
  let s := m.signals
  [s.sentenceVariance < t.sentenceVariance, t.formulaicPhrases ≤ s.formulaicCount,
    s.buzzwordDensity > t.buzzwordDensity, s.emDashDensity > t.emDashDensity,
    m.quotes != 0 && s.curlyQuoteRatio > t.curlyQuoteRatio]

def result (m : Measure) (t : Thresholds) : Result :=
  let score := (m.fired t).countP id
  { score, isFlagged := t.finalScore ≤ score, signals := m.signals }

end Measure

/-- Why a text is not scored: it is empty or holds nothing but blanks. -/
structure BlankText

def BlankText.message (_ : BlankText) : String := "text is empty or whitespace-only"

/-- Score a text that says something. -/
def scoreChecked (t : Thresholds) (text : String) : Except BlankText Result :=
  if Text.isAllBlank text then .error {} else .ok ((measure text).result t)

/-- Score a text; one that says nothing scores 0. -/
def score (t : Thresholds) (text : String) : Result :=
  match scoreChecked t text with
  | .ok r => r
  | .error _ => {}

end NoiseFilter.Score
