import NoiseFilter.Proofs.Extended.Scan

/-!
# Escaped text

A text is written between delimiters with a backslash in front of every delimiter and every backslash
in it. The scanner then finds its end, whatever it holds, and what it stands for is the text again.
-/

namespace NoiseFilter.Extended

/-- A text as it is written between quotes. -/
def escape (quote : Char) (text : List Char) : List Char :=
  text.flatMap fun c => if c = quote ∨ c = '\\' then ['\\', c] else [c]

section

variable {q c : Char} {text s t u body rest r : List Char} {test : TextTest}

theorem escape_cons_special (special : c = q ∨ c = '\\') :
    escape q (c :: text) = '\\' :: c :: escape q text := by
  rw [escape, List.flatMap_cons, if_pos special]
  rfl

theorem escape_cons_plain (plain : ¬ (c = q ∨ c = '\\')) :
    escape q (c :: text) = c :: escape q text := by
  rw [escape, List.flatMap_cons, if_neg plain]
  rfl

/-- An escaped text ends at the quote behind it. -/
theorem scanDelimited_escape_append (notEscape : q ≠ '\\') (text t : List Char) :
    scanDelimited q (escape q text ++ q :: t) = some (escape q text, t) := by
  induction text with
  | nil => exact scanDelimited_close notEscape
  | cons c text ih =>
    by_cases special : c = q ∨ c = '\\'
    · rw [escape_cons_special special, List.cons_append, List.cons_append, scanDelimited_escape, ih]
      rfl
    · rw [escape_cons_plain special, List.cons_append,
        scanDelimited_char (fun same => special (.inr same)) (fun same => special (.inl same)), ih]
      rfl

/-- An escaped text stands for the text itself. -/
theorem unescape_escape (notSlash : q ≠ '/') (text : List Char) :
    TextTest.unescape q (escape q text) = text := by
  induction text with
  | nil => rfl
  | cons c text ih =>
    by_cases special : c = q ∨ c = '\\'
    · rw [escape_cons_special special, TextTest.unescape.eq_def]
      simp [notSlash, ih]
    · rw [escape_cons_plain special, TextTest.unescape.eq_def]
      simp [not_or.mp special, ih]

/-- A test is read from its delimiter, its body and the parenthesis behind it. -/
theorem testRead_delimited (delimiter : (isQuote q || q == '/') = true)
    (front : skipAsciiBlanks s = q :: u) (scan : scanDelimited q u = some (body, rest))
    (close : skipAsciiBlanks rest = ')' :: r) (means : TextTest.ofDelimited q body = .ok test) :
    TestRead s test r := by
  intro offset
  have shorter := length_lt_of_scanDelimited scan
  have front' := length_skipAsciiBlanks_le s
  have close' := length_skipAsciiBlanks_le rest
  rw [front, List.length_cons] at front'
  rw [close, List.length_cons] at close'
  have short : r.length < s.length := by omega
  refine ⟨short, ?_⟩
  rw [readTest]
  split
  · next nothing => rw [front] at nothing; cases nothing
  · next front' =>
    cases front.symm.trans front'
    rw [if_pos delimiter]
    split
    · next open_ => rw [scan] at open_; cases open_
    · next scan' =>
      cases scan.symm.trans scan'
      split
      · next close' =>
        cases close.symm.trans close'
        rw [means]
        rfl
      · next other => exact absurd close (other r)

theorem skipAsciiBlanks_append {blanks : List Char} (blank : ∀ c ∈ blanks, Text.isAsciiBlank c = true)
    (s : List Char) : skipAsciiBlanks (blanks ++ s) = skipAsciiBlanks s :=
  List.dropWhile_append_of_pos blank

/-- A literal is read from its escaped text in quotes, with blanks in front and behind. -/
theorem testRead_literal_of_blanks (quote : isQuote q = true) (before after : List Char)
    (blanks : ∀ c ∈ before, Text.isAsciiBlank c = true)
    (blanks' : ∀ c ∈ after, Text.isAsciiBlank c = true) (text t : List Char) :
    TestRead (before ++ (q :: escape q text ++ q :: (after ++ ')' :: t)))
      (.literal (String.ofList text)) t := by
  have kind : q = '"' ∨ q = '\'' := by simpa [isQuote] using quote
  have notEscape : q ≠ '\\' := by rcases kind with rfl | rfl <;> decide
  have notSlash : q ≠ '/' := by rcases kind with rfl | rfl <;> decide
  have notBlank : Text.isAsciiBlank q = false := by rcases kind with rfl | rfl <;> rfl
  have front : skipAsciiBlanks (before ++ (q :: escape q text ++ q :: (after ++ ')' :: t))) =
      q :: (escape q text ++ q :: (after ++ ')' :: t)) := by
    rw [skipAsciiBlanks_append blanks]
    exact List.dropWhile_cons_of_neg (by simp [notBlank])
  have close : skipAsciiBlanks (after ++ ')' :: t) = ')' :: t := by
    rw [skipAsciiBlanks_append blanks']
    exact List.dropWhile_cons_of_neg (by decide)
  exact testRead_delimited (by simp [quote]) front (scanDelimited_escape_append notEscape text _) close
    (by simp [TextTest.ofDelimited, notSlash, unescape_escape notSlash])

/-- A literal is read from its escaped text in quotes. -/
theorem testRead_literal (quote : isQuote q = true) (text t : List Char) :
    TestRead (q :: escape q text ++ q :: ')' :: t) (.literal (String.ofList text)) t :=
  testRead_literal_of_blanks quote [] [] nofun nofun text t

end

end NoiseFilter.Extended
