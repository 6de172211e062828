import NoiseFilter.Proofs.Text.Trim
import NoiseFilter.Text.Reading

/-!
# Bytes of a text

A text as the bytes of its UTF-8 form, with places in it counted in bytes. A part can be cut out of a
text only between characters (`slice_eq_some_iff`). Characters of ASCII are one byte each and are told
apart by it; all bytes of other characters are above these. So a loop that steps over bytes and stops for
some characters of ASCII only gets from anywhere in a character to its end (`passes_behind_first`).
-/

namespace NoiseFilter.Text

/-! ## Bytes -/

def bytesOf (s : List Char) : List UInt8 := s.flatMap String.utf8EncodeChar

/-- The byte of a character of ASCII. -/
def byteOf (c : Char) : UInt8 := UInt8.ofNat c.toNat

theorem bytesOf_append (s t : List Char) : bytesOf (s ++ t) = bytesOf s ++ bytesOf t :=
  List.flatMap_append

theorem bytesOf_cons (c : Char) (s : List Char) :
    bytesOf (c :: s) = String.utf8EncodeChar c ++ bytesOf s := rfl

theorem length_bytesOf (s : List Char) : (bytesOf s).length = byteSize s := by
  induction s with
  | nil => rfl
  | cons c s ih => rw [bytesOf_cons, List.length_append, ih, String.length_utf8EncodeChar, byteSize]

theorem byteSize_append (s t : List Char) : byteSize (s ++ t) = byteSize s + byteSize t := by
  rw [← length_bytesOf, bytesOf_append, List.length_append, length_bytesOf, length_bytesOf]

theorem byteSize_singleton (c : Char) : byteSize [c] = c.utf8Size := rfl

variable {c d : Char}

theorem utf8EncodeChar_of_ascii (ascii : c.toNat < 0x80) : String.utf8EncodeChar c = [byteOf c] :=
  if_pos (Nat.le_of_lt_succ ascii)

theorem utf8Size_of_ascii (ascii : c.toNat < 0x80) : c.utf8Size = 1 := by
  rw [← String.length_utf8EncodeChar, utf8EncodeChar_of_ascii ascii, List.length_singleton]

theorem utf8Size_toLower (c : Char) : c.toLower.utf8Size = c.utf8Size := by
  rcases toNat_toLower c with ⟨number, -, last⟩ | same
  · rw [utf8Size_of_ascii (c := c) (by omega), utf8Size_of_ascii (by omega)]
  · rw [same]

theorem byteSize_map_toLower (s : List Char) : byteSize (s.map Char.toLower) = byteSize s := by
  induction s with
  | nil => rfl
  | cons c s ih => rw [List.map_cons, byteSize, byteSize, utf8Size_toLower, ih]
theorem byteSize_concat (ascii : c.toNat < 0x80) (s : List Char) :
    byteSize (s ++ [c]) = byteSize s + 1 := by
  rw [byteSize_append, byteSize_singleton, utf8Size_of_ascii ascii]

theorem toNat_byteOf (ascii : c.toNat < 0x80) : (byteOf c).toNat = c.toNat := by
  rw [byteOf, UInt8.toNat_ofNat']
  omega

/-- The bytes of a character outside ASCII lie above those of ASCII. -/
theorem le_of_mem_utf8EncodeChar (high : 0x80 ≤ c.toNat) {b : UInt8}
    (member : b ∈ String.utf8EncodeChar c) : 0x80 ≤ b.toNat := by
  have notAscii : ¬ c.val.toNat ≤ 0x7f := Nat.not_le.mpr high
  unfold String.utf8EncodeChar at member
  rw [if_neg notAscii] at member
  -- Every byte is the sum of a remainder and a leading bit.
  have above {n k : Nat} (least : 0x80 ≤ k) (fits : n + k < 0x100) :
      0x80 ≤ (UInt8.ofNat (n + k)).toNat := by
    rw [UInt8.toNat_ofNat']
    omega
  split at member
  · simp only [List.mem_cons, List.not_mem_nil, or_false] at member
    rcases member with rfl | rfl <;> exact above (by omega) (by omega)
  · split at member
    · simp only [List.mem_cons, List.not_mem_nil, or_false] at member
      rcases member with rfl | rfl | rfl <;> exact above (by omega) (by omega)
    · simp only [List.mem_cons, List.not_mem_nil, or_false] at member
      rcases member with rfl | rfl | rfl | rfl <;> exact above (by omega) (by omega)

theorem byteOf_inj (ascii : c.toNat < 0x80) (ascii' : d.toNat < 0x80) (same : byteOf c = byteOf d) :
    c = d := by
  have number := congrArg UInt8.toNat same
  rw [toNat_byteOf ascii, toNat_byteOf ascii'] at number
  exact Char.toNat_inj.mp number

/-- A byte of a character tells whether it is a certain one of ASCII. -/
theorem eq_of_mem_utf8EncodeChar (ascii : d.toNat < 0x80) (member : byteOf d ∈ String.utf8EncodeChar c) :
    c = d := by
  rcases Nat.lt_or_ge c.toNat 0x80 with low | high
  · rw [utf8EncodeChar_of_ascii low, List.mem_singleton] at member
    exact (byteOf_inj ascii low member).symm
  · have number := le_of_mem_utf8EncodeChar high member
    rw [toNat_byteOf ascii] at number
    omega

/-! ## Places -/

/-- The bytes of a character stand behind those in front of it. -/
theorem getElem?_bytesOf {k : Nat} (inside : k < c.utf8Size) (front back : List Char) :
    (bytesOf (front ++ c :: back))[byteSize front + k]? = (String.utf8EncodeChar c)[k]? := by
  rw [bytesOf_append, bytesOf_cons, List.getElem?_append_right (by rw [length_bytesOf]; omega),
    length_bytesOf, Nat.add_sub_cancel_left, List.getElem?_append_left]
  rwa [String.length_utf8EncodeChar]

theorem exists_getElem?_bytesOf {k : Nat} (inside : k < c.utf8Size) (front back : List Char) :
    ∃ b ∈ String.utf8EncodeChar c, (bytesOf (front ++ c :: back))[byteSize front + k]? = some b := by
  have inside' : k < (String.utf8EncodeChar c).length := by rwa [String.length_utf8EncodeChar]
  exact ⟨_, List.getElem_mem inside',
    (getElem?_bytesOf inside front back).trans (List.getElem?_eq_getElem inside')⟩

theorem getElem?_bytesOf_ascii (ascii : c.toNat < 0x80) (front back : List Char) :
    (bytesOf (front ++ c :: back))[byteSize front]? = some (byteOf c) := by
  have inside : 0 < c.utf8Size := by
    rw [utf8Size_of_ascii ascii]
    exact Nat.one_pos
  rw [← Nat.add_zero (byteSize front), getElem?_bytesOf inside, utf8EncodeChar_of_ascii ascii]
  rfl

/-- A byte of ASCII stands between characters. -/
theorem exists_append_of_getElem?_bytesOf {d : Char} (ascii : d.toNat < 0x80) {s : List Char} {i : Nat}
    (here : (bytesOf s)[i]? = some (byteOf d)) :
    ∃ front back, s = front ++ d :: back ∧ byteSize front = i := by
  induction s generalizing i with
  | nil => cases here
  | cons c s ih =>
    rcases Nat.lt_or_ge i c.utf8Size with inside | behind
    · obtain ⟨b, member, there⟩ := exists_getElem?_bytesOf inside [] s
      rw [List.nil_append, byteSize, Nat.zero_add, here, Option.some.injEq] at there
      rw [← there] at member
      obtain rfl := eq_of_mem_utf8EncodeChar ascii member
      rw [utf8Size_of_ascii ascii, Nat.lt_one_iff] at inside
      exact ⟨[], s, rfl, inside.symm⟩
    · rw [bytesOf_cons, List.getElem?_append_right (by rwa [String.length_utf8EncodeChar]),
        String.length_utf8EncodeChar] at here
      obtain ⟨front, back, rfl, size⟩ := ih here
      exact ⟨c :: front, back, rfl, by rw [byteSize]; omega⟩

theorem getElem?_bytesOf_end (s : List Char) : (bytesOf s)[byteSize s]? = none := by
  rw [List.getElem?_eq_none_iff, length_bytesOf]

theorem not_lt_length_bytesOf (s : List Char) : ¬ byteSize s < (bytesOf s).length := by
  rw [length_bytesOf]
  exact Nat.lt_irrefl _

/-- Behind more text the place is further on. -/
theorem byteSize_lt_append (front : List Char) {text : List Char} (nonempty : text ≠ []) :
    byteSize front < byteSize (front ++ text) := by
  obtain ⟨c, text, rfl⟩ := List.exists_cons_of_ne_nil nonempty
  have positive := c.utf8Size_pos
  rw [byteSize_append, byteSize]
  omega

/-! ## Parts -/

/-- What stands behind the first `n` bytes, unless there are fewer or a character is cut. -/
def dropBytes : Nat → List Char → Option (List Char)
  | 0, s => some s
  | _ + 1, [] => none
  | n + 1, c :: s => if c.utf8Size ≤ n + 1 then dropBytes (n + 1 - c.utf8Size) s else none

/-- The first `n` bytes, unless there are fewer or a character is cut. -/
def takeBytes : Nat → List Char → Option (List Char)
  | 0, _ => some []
  | _ + 1, [] => none
  | n + 1, c :: s =>
    if c.utf8Size ≤ n + 1 then (takeBytes (n + 1 - c.utf8Size) s).map (c :: ·) else none

/-- What stands between two places, unless these are the wrong way round, or one is behind the text or
inside a character. -/
def slice (s : List Char) (first last : Nat) : Option (List Char) :=
  if first ≤ last then (dropBytes first s).bind (takeBytes (last - first)) else none

theorem dropBytes_append (front back : List Char) :
    dropBytes (byteSize front) (front ++ back) = some back := by
  induction front with
  | nil => rw [byteSize, List.nil_append, dropBytes]
  | cons c front ih =>
    obtain ⟨n, size⟩ := Nat.exists_eq_succ_of_ne_zero
      (show byteSize (c :: front) ≠ 0 by rw [byteSize]; have := c.utf8Size_pos; omega)
    rw [size, List.cons_append, dropBytes, ← Nat.succ_eq_add_one, ← size, byteSize,
      if_pos (Nat.le_add_right _ _), Nat.add_sub_cancel_left, ih]

theorem takeBytes_append (front back : List Char) :
    takeBytes (byteSize front) (front ++ back) = some front := by
  induction front with
  | nil => rw [byteSize, takeBytes]
  | cons c front ih =>
    obtain ⟨n, size⟩ := Nat.exists_eq_succ_of_ne_zero
      (show byteSize (c :: front) ≠ 0 by rw [byteSize]; have := c.utf8Size_pos; omega)
    rw [size, List.cons_append, takeBytes, ← Nat.succ_eq_add_one, ← size, byteSize,
      if_pos (Nat.le_add_right _ _), Nat.add_sub_cancel_left, ih, Option.map_some]

theorem dropBytes_eq_some_iff {n : Nat} {s back : List Char} :
    dropBytes n s = some back ↔ ∃ front, s = front ++ back ∧ byteSize front = n := by
  constructor
  · intro cut
    fun_induction dropBytes n s with
    | case1 s =>
      cases cut
      exact ⟨[], rfl, rfl⟩
    | case2 => cases cut
    | case3 n c s fits ih =>
      obtain ⟨front, rfl, size⟩ := ih cut
      refine ⟨c :: front, rfl, ?_⟩
      rw [byteSize]
      omega
    | case4 => cases cut
  · rintro ⟨front, rfl, rfl⟩
    exact dropBytes_append front back

theorem takeBytes_eq_some_iff {n : Nat} {s front : List Char} :
    takeBytes n s = some front ↔ ∃ back, s = front ++ back ∧ byteSize front = n := by
  constructor
  · intro cut
    fun_induction takeBytes n s generalizing front with
    | case1 s =>
      cases cut
      exact ⟨s, rfl, rfl⟩
    | case2 => cases cut
    | case3 n c s fits ih =>
      obtain ⟨front, taken, rfl⟩ := Option.map_eq_some_iff.mp cut
      obtain ⟨back, rfl, size⟩ := ih taken
      refine ⟨back, rfl, ?_⟩
      rw [byteSize]
      omega
    | case4 => cases cut
  · rintro ⟨back, rfl, rfl⟩
    exact takeBytes_append front back

theorem slice_append (front middle back : List Char) :
    slice (front ++ middle ++ back) (byteSize front) (byteSize (front ++ middle)) = some middle := by
  rw [slice, byteSize_append, if_pos (Nat.le_add_right _ _), List.append_assoc, dropBytes_append,
    Option.bind_some, Nat.add_sub_cancel_left, takeBytes_append]

/-- A part can be cut out if and only if it begins and ends between characters. -/
theorem slice_eq_some_iff {s part : List Char} {first last : Nat} :
    slice s first last = some part ↔ ∃ front back, s = front ++ part ++ back ∧
      byteSize front = first ∧ byteSize (front ++ part) = last := by
  constructor
  · intro cut
    obtain ⟨order, cut⟩ := Option.ite_none_right_eq_some.mp cut
    obtain ⟨rest, dropped, taken⟩ := Option.bind_eq_some_iff.mp cut
    obtain ⟨front, rfl, rfl⟩ := dropBytes_eq_some_iff.mp dropped
    obtain ⟨back, rfl, size⟩ := takeBytes_eq_some_iff.mp taken
    refine ⟨front, back, (List.append_assoc _ _ _).symm, rfl, ?_⟩
    rw [byteSize_append]
    omega
  · rintro ⟨front, back, rfl, rfl, rfl⟩
    exact slice_append front part back

/-! ## Passing characters -/

section

variable {α : Type} {marks : List Char} {loop : Nat → α}

/-- Where all bytes from a place on are passed, the loop gets behind them. -/
theorem passes_bytes {first n : Nat} (step : ∀ i, first ≤ i → i < first + n → loop i = loop (i + 1)) :
    loop first = loop (first + n) := by
  induction n with
  | zero => rfl
  | succ n ih =>
    rw [ih fun i least most => step i least (by omega), ← Nat.add_assoc]
    exact step _ (by omega) (by omega)

variable (front back : List Char) (ascii : ∀ d ∈ marks, d.toNat < 0x80)
  (step : ∀ i b, (bytesOf (front ++ c :: back))[i]? = some b → (∀ d ∈ marks, b ≠ byteOf d) →
    loop i = loop (i + 1))

include ascii step

/-- From behind its first byte on, any character is passed: a mark has no more bytes than one. -/
theorem passes_behind_first : loop (byteSize front + 1) = loop (byteSize (front ++ [c])) := by
  have positive := c.utf8Size_pos
  have size : byteSize (front ++ [c]) = byteSize front + 1 + (c.utf8Size - 1) := by
    rw [byteSize_append, byteSize_singleton]
    omega
  rw [size]
  refine passes_bytes fun i least most => ?_
  obtain ⟨k, rfl⟩ := Nat.exists_eq_add_of_le (Nat.le_trans (Nat.le_succ _) least)
  obtain ⟨b, member, here⟩ := exists_getElem?_bytesOf (c := c) (show k < _ by omega) front back
  refine step _ b here fun d mark same => ?_
  rw [same] at member
  have small := utf8Size_of_ascii (ascii d mark)
  rw [← eq_of_mem_utf8EncodeChar (ascii d mark) member] at small
  omega

end

end NoiseFilter.Text
