import NoiseFilter.Pattern.Basic
import NoiseFilter.Text.LowerCase

/-!
# Measuring a text

What a text is scored by, as whole numbers: the lengths of its sentences, the stock phrases and the
buzzwords in it, its dashes and its quotes.
-/

namespace NoiseFilter.Score

/-! ## Sentences -/

/-- The characters that end a sentence. -/
def isTerminator (c : Char) : Bool := c == '.' || c == '!' || c == '?'

/-- The sentences of a text: runs of other characters, each with the run of terminators behind it.
Terminators at the very front and an end without terminator belong to no sentence. -/
def sentences (s : List Char) : List (List Char) :=
  match h : s.dropWhile isTerminator with
  | [] => []
  | c :: rest =>
    let behind := rest.dropWhile (!isTerminator ·)
    have : (behind.dropWhile isTerminator).length < s.length := by
      have le : (s.dropWhile isTerminator).length ≤ s.length :=
        (List.dropWhile_suffix _).length_le
      have : behind.length ≤ rest.length := (List.dropWhile_suffix _).length_le
      have : (behind.dropWhile isTerminator).length ≤ behind.length :=
        (List.dropWhile_suffix _).length_le
      rw [h] at le
      simp only [List.length_cons] at le
      omega
    if behind.isEmpty then []
    else
      (c :: rest.takeWhile (!isTerminator ·) ++ behind.takeWhile isTerminator)
        :: sentences (behind.dropWhile isTerminator)
termination_by s.length

/-- The number of words in a sentence; a bare terminator counts as one. -/
def sentenceLength (s : List Char) : Nat := max 1 (Text.wordsOf s).length

/-! ## Phrases -/

/-- A character in any case. -/
def anyCase (c : Char) : Pattern := .set (Pattern.CharSet.singleton c).foldCase

/-- A phrase in any case of letters. -/
def phrase (s : String) : Pattern :=
  s.toList.foldr (fun c p => .sequence (anyCase c) p) .empty

/-- The stock phrases of engagement. -/
def stockPhrases : List Pattern := [
  .sequence (phrase "here are ")
    (.sequence (.many (.set (Pattern.LetterClass.set .digit)) 1 none)
      (.sequence (phrase " ")
        (.choice (phrase "tips") (.choice (phrase "ways") (phrase "steps"))))),
  phrase "what do you think",
  phrase "comment below",
  phrase "let's connect",
  phrase "agree?",
  phrase "follow me"]

/-! ## Words and characters -/

def buzzwords : List String :=
  ["innovation", "value", "impact", "journey", "growth", "synergy", "passionate", "community",
    "transformation"]

/-- The runs of word characters in a text, lowered. -/
def lowerWords (s : List Char) : List String :=
  (((Text.lowercaseChars s).splitOnP (!Text.Property.isWord ·)).filter (!·.isEmpty)).map
    String.ofList

def isDash (c : Char) : Bool := c == '\u2014'

def isCurlyQuote (c : Char) : Bool :=
  c == '\u201C' || c == '\u201D' || c == '\u2018' || c == '\u2019'

def isStraightQuote (c : Char) : Bool := c == '\'' || c == '"'

/-- The numbers that a text is scored by. -/
structure Measure where
  sentenceLengths : List Nat := []
  phrases : Nat := 0
  words : Nat := 0
  buzzwords : Nat := 0
  characters : Nat := 0
  dashes : Nat := 0
  curlyQuotes : Nat := 0
  straightQuotes : Nat := 0
  deriving DecidableEq

/-- Measure a text. A phrase counts once, however often it occurs. -/
def measure (text : String) : Measure :=
  let s := text.toList
  let words := lowerWords s
  { sentenceLengths := (sentences s).map sentenceLength
    phrases := (stockPhrases.filter (·.occursIn text)).length
    words := words.length
    buzzwords := (words.filter buzzwords.contains).length
    characters := s.length
    dashes := s.countP isDash
    curlyQuotes := s.countP isCurlyQuote
    straightQuotes := s.countP isStraightQuote }

end NoiseFilter.Score
