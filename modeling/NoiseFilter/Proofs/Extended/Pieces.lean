import NoiseFilter.Proofs.Extended.Indexed

/-!
# Bodies in pieces

Two readers pair a backslash with the character behind it: the one that looks for the closing delimiter, and
the one that takes the escapes out of what stands in front of it. Both cut a body into the same `pieces`: a
delimiter closes a body if and only if no piece of it is a lone backslash or the bare delimiter
(`scanDelimited_eq_some_iff`), and what the body stands for is what its pieces stand for (`unescape_eq`).
-/

namespace NoiseFilter.Extended

open Text (bytesOf byteOf byteSize slice)

/-! ## Pieces -/

/-- What a body is made of. -/
inductive Piece where
  | plain (c : Char)
  /-- A backslash and the character behind it. -/
  | escaped (c : Char)
  /-- A backslash at the end. -/
  | lone
  deriving DecidableEq

namespace Piece

/-- A piece as it is written. -/
def text : Piece → List Char
  | plain c => [c]
  | escaped c => ['\\', c]
  | lone => ['\\']

/-- What a piece stands for. Between slashes a backslash is dropped in front of a slash only. -/
def meaning (delimiter : Char) : Piece → List Char
  | plain c => [c]
  | escaped c => if delimiter = '/' ∧ c ≠ '/' then ['\\', c] else [c]
  | lone => ['\\']

/-- A piece can stand in a body: it does not run into the closing delimiter and is not one. -/
def Inside (delimiter : Char) (piece : Piece) : Prop := piece ≠ lone ∧ piece ≠ plain delimiter

@[simp] theorem inside_plain_iff {q c : Char} : (plain c).Inside q ↔ c ≠ q := by simp [Inside]

@[simp] theorem inside_escaped {q c : Char} : (escaped c).Inside q := by simp [Inside]

@[simp] theorem not_inside_lone {q : Char} : ¬ lone.Inside q := by simp [Inside]

end Piece

/-- The pieces of a body, from the front. -/
def pieces : List Char → List Piece
  | [] => []
  | c :: rest =>
    if c = '\\' then
      match rest with
      | [] => [.lone]
      | d :: rest => .escaped d :: pieces rest
    else .plain c :: pieces rest

section

variable {q c d : Char} {s body rest : List Char}

theorem pieces_escape : pieces ('\\' :: d :: s) = .escaped d :: pieces s := by
  rw [pieces.eq_def]
  rfl

theorem pieces_char (notEscape : c ≠ '\\') : pieces (c :: s) = .plain c :: pieces s := by
  rw [pieces.eq_def]
  simp [notEscape]

/-- Nothing of a body is left out. -/
theorem flatMap_text_pieces (body : List Char) : (pieces body).flatMap Piece.text = body := by
  fun_induction pieces body with
  | case1 => rfl
  | case2 => rfl
  | case3 d rest ih => rw [List.flatMap_cons, ih]; rfl
  | case4 c rest notEscape ih => rw [List.flatMap_cons, ih]; rfl

/-- A body stands for what its pieces stand for. -/
theorem unescape_eq (q : Char) (body : List Char) :
    TextTest.unescape q body = (pieces body).flatMap (Piece.meaning q) := by
  fun_induction TextTest.unescape q body with
  | case1 => rfl
  | case2 => rfl
  | case3 d rest kept ih =>
    rw [pieces_escape, List.flatMap_cons, Piece.meaning, if_pos kept, ih]
    rfl
  | case4 d rest dropped ih =>
    rw [pieces_escape, List.flatMap_cons, Piece.meaning, if_neg dropped, ih]
    rfl
  | case5 c rest notEscape ih =>
    rw [pieces_char notEscape, List.flatMap_cons, ih]
    rfl

/-- A body that is closed is made of whole pieces, none of which is the delimiter. -/
theorem inside_of_scanDelimited (scan : scanDelimited q s = some (body, rest)) :
    ∀ piece ∈ pieces body, piece.Inside q := by
  fun_induction scanDelimited q s generalizing body rest with
  | case1 => cases scan
  | case2 => cases scan
  | case3 d back ih =>
    obtain ⟨⟨inner, u⟩, found, same⟩ := Option.map_eq_some_iff.mp scan
    cases same
    rw [pieces_escape]
    exact List.forall_mem_cons.mpr ⟨Piece.inside_escaped, ih found⟩
  | case4 =>
    cases scan
    exact List.forall_mem_nil _
  | case5 c back notEscape notQuote ih =>
    obtain ⟨⟨inner, u⟩, found, same⟩ := Option.map_eq_some_iff.mp scan
    cases same
    rw [pieces_char notEscape]
    exact List.forall_mem_cons.mpr ⟨Piece.inside_plain_iff.mpr notQuote, ih found⟩

/-- Whole pieces are passed up to the delimiter behind them. -/
theorem scanDelimited_of_inside (notEscape : q ≠ '\\') (inside : ∀ piece ∈ pieces body, piece.Inside q)
    (rest : List Char) : scanDelimited q (body ++ q :: rest) = some (body, rest) := by
  fun_induction pieces body with
  | case1 => exact scanDelimited_close notEscape
  | case2 => exact absurd (inside .lone List.mem_cons_self) Piece.not_inside_lone
  | case3 d back ih =>
    rw [List.cons_append, List.cons_append, scanDelimited_escape, ih (List.forall_mem_cons.mp inside).2]
    rfl
  | case4 c back plain ih =>
    obtain ⟨first, others⟩ := List.forall_mem_cons.mp inside
    rw [List.cons_append, scanDelimited_char plain (Piece.inside_plain_iff.mp first), ih others]
    rfl

/-- Where a body ends. -/
theorem scanDelimited_eq_some_iff (notEscape : q ≠ '\\') : scanDelimited q s = some (body, rest) ↔
    s = body ++ q :: rest ∧ ∀ piece ∈ pieces body, piece.Inside q := by
  constructor
  · exact fun scan => ⟨eq_of_scanDelimited scan, inside_of_scanDelimited scan⟩
  · rintro ⟨rfl, inside⟩
    exact scanDelimited_of_inside notEscape inside rest

/-! ## Literals -/

/-- A literal in quotes is read as a whole, with blanks in front and behind. -/
theorem isCall_literal (quote : isQuote q = true) {before after : List Char}
    (blanks : ∀ c ∈ before, Text.isAsciiBlank c = true)
    (blanks' : ∀ c ∈ after, Text.isAsciiBlank c = true) (text : List Char) :
    Cursor.IsCall (before ++ (q :: escape q text ++ q :: (after ++ [')'])))
      (.literal (String.ofList text)) := by
  intro t
  have read := testRead_literal_of_blanks quote before after blanks blanks' text t
  simpa only [List.append_assoc, List.cons_append, List.nil_append] using read

end

namespace Cursor

/-! ## Bodies that the cursor cuts out -/

/-- Between an opening delimiter and the place that is found for the closing one stands what is scanned. -/
theorem exists_of_seek {source : List Char} {d : Char} {first last : Nat}
    (opens : (isQuote d || d == '/') = true) (here : (bytesOf source)[first]? = some (byteOf d))
    (found : seek (bytesOf source) (byteOf d) (first + 1) = some (some last)) :
    ∃ front body back, source = front ++ d :: (body ++ d :: back) ∧ first = byteSize front ∧
      last = byteSize (front ++ d :: body) ∧
      scanDelimited d (body ++ d :: back) = some (body, back) := by
  have ascii := ascii_of_opens opens
  obtain ⟨front, rest, rfl, rfl⟩ := Text.exists_append_of_getElem?_bytesOf ascii here
  have place := seek_eq ascii (front ++ [d]) rest
  rw [List.append_assoc, List.singleton_append, Text.byteSize_concat ascii, found, Option.some.injEq] at place
  obtain ⟨⟨body, back⟩, scan, same⟩ := Option.map_eq_some_iff.mp place.symm
  obtain rfl := eq_of_scanDelimited scan
  refine ⟨front, body, back, rfl, rfl, ?_, scan⟩
  rw [← same, List.append_assoc, List.singleton_append]

/-- The test is made of the body that is cut out. -/
theorem readPattern_of_seek {source body : List Char} {d : Char} {first last : Nat}
    (opens : (isQuote d || d == '/') = true) (here : (bytesOf source)[first]? = some (byteOf d))
    (found : seek (bytesOf source) (byteOf d) (first + 1) = some (some last))
    (cut : slice source (first + 1) last = some body) (offset : Nat) :
    readPattern source first offset = do
      let next ← close (bytesOf source) (last + 1) offset
      let test ← answer (TextTest.ofDelimited d body)
      return (next, test) := by
  have ascii := ascii_of_opens opens
  have is : ∀ c : Char, c.toNat < 0x80 → (byteOf d = byteOf c ↔ d = c) :=
    fun c ascii' => ⟨Text.byteOf_inj ascii ascii', congrArg byteOf⟩
  have opens' : (isQuoteByte (byteOf d) || byteOf d == byteOf '/') = true := by
    rw [isQuoteByte_eq is, ← opens, Bool.eq_iff_iff]
    simp [is '/' (by decide)]
  have name : Char.ofNat (byteOf d).toNat = d := by rw [Text.toNat_byteOf ascii, Char.ofNat_toNat]
  simp only [readPattern, here, if_pos opens', found, cut, name, liftM_some, pure_bind]

end Cursor

/-- A literal in quotes is read back as it was, wherever it stands: the scanner takes all of the call for it,
and the cursor stops behind the call. And wherever the cursor finds the end of a text in quotes or slashes,
the test is made of a body that takes the same pieces to read as to find: none is a backslash alone, and none
is the bare delimiter. -/
theorem literal_read_back :
    (∀ (p : String) (q : Char) (before after front back : List Char) (origin : Nat),
      isQuote q = true → (∀ c ∈ before, Text.isAsciiBlank c = true) →
      (∀ c ∈ after, Text.isAsciiBlank c = true) →
      let call := before ++ (q :: escape q p.toList ++ q :: (after ++ [')']))
      TestRead (call ++ back) (.literal p) back ∧
      Cursor.readTest (front ++ (containsToken ++ (call ++ back))) (byteSize front) origin =
        pure (byteSize (front ++ (containsToken ++ call)), .literal p)) ∧
    ∀ (source : List Char) (d : Char) (first last : Nat), (isQuote d || d == '/') = true →
      (bytesOf source)[first]? = some (byteOf d) →
      Cursor.seek (bytesOf source) (byteOf d) (first + 1) = some (some last) →
      ∃ body, slice source (first + 1) last = some body ∧ (bytesOf source)[last]? = some (byteOf d) ∧
        (∀ offset, Cursor.readPattern source first offset = do
          let next ← Cursor.close (bytesOf source) (last + 1) offset
          let test ← Cursor.answer (TextTest.ofDelimited d body)
          return (next, test)) ∧
        (pieces body).flatMap Piece.text = body ∧
        TextTest.unescape d body = (pieces body).flatMap (Piece.meaning d) ∧
        ∀ piece ∈ pieces body, piece.Inside d := by
  constructor
  · intro p q before after front back origin quote blanks blanks'
    have isCall := isCall_literal quote blanks blanks' p.toList
    rw [String.ofList_toList] at isCall
    exact ⟨isCall back, Cursor.readTest_of_isCall isCall front back origin⟩
  · intro source d first last opens here found
    obtain ⟨front, body, back, rfl, rfl, rfl, scan⟩ := Cursor.exists_of_seek opens here found
    have ascii := Cursor.ascii_of_opens opens
    have cut := Cursor.slice_delimited ascii front body back
    have close := Text.getElem?_bytesOf_ascii ascii (front ++ d :: body) back
    rw [List.append_assoc, List.cons_append] at close
    exact ⟨body, cut, close, Cursor.readPattern_of_seek opens here found cut, flatMap_text_pieces body,
      unescape_eq d body, inside_of_scanDelimited scan⟩

/-- A literal with both quotes and a backslash in it, and a pattern with an escaped slash. -/
theorem literal_read_back_quotes :
    TestRead (" 'it\\'s \"\\\\\"' ) b".toList) (.literal "it's \"\\\"") " b".toList ∧
      Cursor.seek (bytesOf "/a\\/b/".toList) (byteOf '/') 1 = some (some 5) ∧
      ∃ body, slice "/a\\/b/".toList 1 5 = some body ∧ ∀ piece ∈ pieces body, piece.Inside '/' := by
  have blank : ∀ c ∈ [' '], Text.isAsciiBlank c = true := List.forall_mem_singleton.mpr rfl
  have read := literal_read_back.1 "it's \"\\\"" '\'' [' '] [' '] [] " b".toList 0 rfl blank blank
  have found : Cursor.seek (bytesOf "/a\\/b/".toList) (byteOf '/') 1 = some (some 5) :=
    (Cursor.seek_eq (by decide) ['/'] "a\\/b/".toList).trans (by decide)
  obtain ⟨body, cut, -, -, -, -, inside⟩ :=
    literal_read_back.2 "/a\\/b/".toList '/' 0 5 rfl (by decide) found
  refine ⟨?_, found, body, cut, inside⟩
  have written : " 'it\\'s \"\\\\\"' ) b".toList =
      [' '] ++ ('\'' :: escape '\'' "it's \"\\\"".toList ++ '\'' :: ([' '] ++ [')'])) ++
        " b".toList := by decide
  rw [written]
  exact read.1

end NoiseFilter.Extended
