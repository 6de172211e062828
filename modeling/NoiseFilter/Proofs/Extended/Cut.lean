import NoiseFilter.Proofs.Extended.Orderly
import NoiseFilter.Proofs.Selector.Lookahead

/-!
# Cutting selectors

Where a selector is cut behind one of its parts, what stands in front of the cut can be read by itself
(`readsFront_of_reads`), and what stands in front of a cut in an argument can be asked (`asks_of_cut`).
-/

namespace NoiseFilter.Extended

open Selector (Item Reads Yields Lookahead isNameChar scanName readAttribute combinatorOf)
open Text (isBlank skipBlanks)

/-! ## Depth -/

/-- How many parentheses are open behind a text; nothing if one is closed that was not opened. -/
def depthAfter (opens closes : Char) : Nat → List Char → Option Nat
  | depth, [] => some depth
  | depth, c :: s =>
    if c = opens then depthAfter opens closes (depth + 1) s
    else if c = closes then
      match depth with
      | 0 => none
      | depth + 1 => depthAfter opens closes depth s
    else depthAfter opens closes depth s

/-- Two characters are a pair of parentheses or brackets. -/
def IsPair (opens closes : Char) : Prop := opens = '(' ∧ closes = ')' ∨ opens = '[' ∧ closes = ']'

section

variable {opens closes c : Char} {s t r f k : List Char} {depth depth' : Nat} {commas : Bool}

theorem depthAfter_append (s t : List Char) (depth : Nat) : depthAfter opens closes depth (s ++ t) =
    (depthAfter opens closes depth s).bind (depthAfter opens closes · t) := by
  fun_induction depthAfter opens closes depth s <;> simp_all [depthAfter]

theorem depthAfter_succ (level : depthAfter opens closes depth s = some depth') :
    depthAfter opens closes (depth + 1) s = some (depth' + 1) := by
  fun_induction depthAfter opens closes depth s with
  | case1 =>
    cases level
    rfl
  | case2 depth s ih => simpa [depthAfter] using ih level
  | case3 => cases level
  | case4 s depth notOpen ih => simpa [depthAfter, notOpen] using ih level
  | case5 depth c s notOpen notClose ih => simpa [depthAfter, notOpen, notClose] using ih level

/-- A character that opens and closes nothing changes nothing. -/
theorem depthAfter_plain (pair : IsPair opens closes) (plain : isMark c = false ∨ c = ',') :
    depthAfter opens closes depth (c :: s) = depthAfter opens closes depth s := by
  have other : c ≠ opens ∧ c ≠ closes := by
    rcases pair with ⟨rfl, rfl⟩ | ⟨rfl, rfl⟩ <;> rcases plain with unmarked | rfl <;>
      first | decide | (constructor <;> rintro rfl <;> cases unmarked)
  rw [depthAfter.eq_def]
  simp [other]

theorem depthAfter_of_not_mem (noOpen : opens ∉ s) (noClose : closes ∉ s) :
    depthAfter opens closes depth s = some depth := by
  induction s with
  | nil => rfl
  | cons c s ih =>
    rw [List.mem_cons, not_or] at noOpen noClose
    rw [depthAfter.eq_def]
    simp [Ne.symm noOpen.1, Ne.symm noClose.1, ih noOpen.2 noClose.2]

theorem depthAfter_of_plain (pair : IsPair opens closes) (plain : ∀ c ∈ s, isMark c = false) :
    depthAfter opens closes depth s = some depth := by
  have other {d : Char} (mark : isMark d = true) : d ∉ s := by
    intro member
    rw [plain d member] at mark
    cases mark
  rcases pair with ⟨rfl, rfl⟩ | ⟨rfl, rfl⟩ <;> exact depthAfter_of_not_mem (other rfl) (other rfl)

/-- Orderly text closes what it opens. -/
theorem Orderly.depthAfter (pair : IsPair opens closes) (orderly : Orderly commas s r)
    (unquoted : ∀ c ∈ s, isQuote c = false) (depth : Nat) :
    depthAfter opens closes depth s = some depth := by
  induction orderly generalizing depth with
  | done => rfl
  | plain unmarked _ _ ih =>
    rw [depthAfter_plain pair (.inl unmarked)]
    exact ih (fun c member => unquoted c (by simp [member])) depth
  | quoted quote =>
    rw [unquoted _ (by simp)] at quote
    cases quote
  | colon _ _ _ ih =>
    rw [depthAfter_plain pair (.inl rfl)]
    exact ih (fun c member => unquoted c (by simp [member])) depth
  | @has _ word argument s r has filled inside _ ihInside ih =>
    have within := ihInside fun c member => unquoted c (by simp [member])
    have behind := ih fun c member => unquoted c (by simp [member])
    have front : Extended.depthAfter opens closes depth (':' :: word) = some depth :=
      depthAfter_of_plain pair (List.forall_mem_cons.mpr ⟨rfl, fun c member =>
        isMark_of_isNameChar (isNameChar_of_has has c member).1⟩)
    rw [List.append_assoc, depthAfter_append, front]
    rcases pair with ⟨rfl, rfl⟩ | ⟨rfl, rfl⟩ <;>
      simp [Extended.depthAfter, depthAfter_append, within, behind]
  | @parens _ argument s r filled inside _ ihInside ih =>
    have within := ihInside fun c member => unquoted c (by simp [member])
    have behind := ih fun c member => unquoted c (by simp [member])
    rcases pair with ⟨rfl, rfl⟩ | ⟨rfl, rfl⟩ <;>
      simp [Extended.depthAfter, depthAfter_append, within, behind]
  | @brackets _ argument s r inside _ ihInside ih =>
    have within := ihInside fun c member => unquoted c (by simp [member])
    have behind := ih fun c member => unquoted c (by simp [member])
    rcases pair with ⟨rfl, rfl⟩ | ⟨rfl, rfl⟩ <;>
      simp [Extended.depthAfter, depthAfter_append, within, behind]
  | comma _ ih =>
    rw [depthAfter_plain pair (.inr rfl)]
    exact ih (fun c member => unquoted c (by simp [member])) depth

end

/-! ## Cuts -/

/-- A text may end between these two: in front all is closed that is opened, and nothing stands last
behind which more must follow; behind, no name goes on. -/
structure Cut (front back : List Char) : Prop where
  parens : depthAfter '(' ')' 0 front = some 0
  brackets : depthAfter '[' ']' 0 front = some 0
  last : ∀ c ∈ front.getLast?, isBlank c = false ∧ combinatorOf c = none ∧ c ≠ ','
  next : ∀ c ∈ back.head?, isNameChar c = false ∧ c ≠ '('

instance (front back : List Char) : Decidable (Cut front back) :=
  -- not by going through all characters
  have : Decidable (∀ c ∈ front.getLast?, isBlank c = false ∧ combinatorOf c = none ∧ c ≠ ',') :=
    Option.decidableForallMem _
  have : Decidable (∀ c ∈ back.head?, isNameChar c = false ∧ c ≠ '(') := Option.decidableForallMem _
  decidable_of_iff (depthAfter '(' ')' 0 front = some 0 ∧ depthAfter '[' ']' 0 front = some 0 ∧
      (∀ c ∈ front.getLast?, isBlank c = false ∧ combinatorOf c = none ∧ c ≠ ',') ∧
      ∀ c ∈ back.head?, isNameChar c = false ∧ c ≠ '(')
    ⟨fun ⟨parens, brackets, last, next⟩ => ⟨parens, brackets, last, next⟩,
      fun ⟨parens, brackets, last, next⟩ => ⟨parens, brackets, last, next⟩⟩

section

variable {opens closes c : Char} {s t r f k w name : List Char} {commas : Bool} {x : Simple} {item : Item}

theorem avoids_of_ordinary (ordinary : Ordinary s) : Avoids isMark s :=
  .of_forall fun c member =>
    have facts := isOrdinary_iff.mp (ordinary c member)
    ⟨facts.1, facts.2.1, isMark_of_isNameChar⟩

theorem passed_of_ordinary (reads : Reads item s r) (ordinary : Ordinary s) : Passed s r item :=
  (passed_of_reads (fun _ mark => mark) reads (avoids_of_ordinary ordinary)).1

theorem Ordinary.of_suffix (ordinary : Ordinary s) (suffix : t <:+ s) : Ordinary t :=
  fun c member => ordinary c (suffix.subset member)

theorem Ordinary.skips (ordinary : Ordinary s) (there : skipBlanks s = c :: t) : Ordinary t :=
  ordinary.of_suffix ((List.suffix_cons c t).trans (there ▸ suffix_skipBlanks s))

/-- The argument of a pseudo-class is ordinary if its name is. -/
theorem Ordinary.argument (ordinary : Ordinary s) (scan : scanName s = some (name, '(' :: t)) : Ordinary t :=
  ordinary.of_suffix ((List.suffix_cons _ t).trans (suffix_of_scanName scan))

/-- Text that is passed over closes what it opens. -/
theorem exists_of_passes (passes : Passes commas (f ++ k) (t ++ k)) (ordinary : Ordinary (f ++ k)) :
    ∃ w, f = w ++ t ∧ ∀ {opens closes : Char}, IsPair opens closes →
      depthAfter opens closes 0 w = some 0 := by
  obtain ⟨w, halves, orderly⟩ := passes
  obtain rfl : f = w ++ t := List.append_cancel_right (by rw [halves, List.append_assoc])
  refine ⟨w, rfl, fun pair => orderly.depthAfter pair (fun c member => ?_) 0⟩
  exact (isOrdinary_iff.mp (ordinary c (by simp [member]))).2.1

namespace Cut

theorem depth (cut : Cut f k) (pair : IsPair opens closes) : depthAfter opens closes 0 f = some 0 := by
  rcases pair with ⟨rfl, rfl⟩ | ⟨rfl, rfl⟩
  · exact cut.parens
  · exact cut.brackets

/-- Behind text that closes what it opens a cut stays one. -/
theorem behind (cut : Cut (w ++ f) k) (level : ∀ {opens closes : Char}, IsPair opens closes →
    depthAfter opens closes 0 w = some 0) : Cut f k where
  parens := by
    have whole := cut.parens
    rwa [depthAfter_append, level (.inl ⟨rfl, rfl⟩)] at whole
  brackets := by
    have whole := cut.brackets
    rwa [depthAfter_append, level (.inr ⟨rfl, rfl⟩)] at whole
  last c last := cut.last c (List.mem_getLast?_append_of_mem_getLast? last)
  next := cut.next

theorem passed (cut : Cut f k) (ordinary : Ordinary (f ++ k))
    (passes : Passes commas (f ++ k) (t ++ k)) : Cut t k := by
  obtain ⟨w, rfl, level⟩ := exists_of_passes passes ordinary
  exact cut.behind level

theorem tail (cut : Cut (c :: f) k) (plain : isMark c = false ∨ c = ',') : Cut f k :=
  Cut.behind (w := [c]) cut fun pair => depthAfter_plain pair plain

theorem skipBlanks_ne_nil (cut : Cut f k) (filled : f ≠ []) : skipBlanks f ≠ [] := by
  intro nothing
  have blank := List.dropWhile_eq_nil_iff.mp nothing _ (List.getLast_mem filled)
  rw [(cut.last _ (List.getLast?_eq_some_getLast filled)).1] at blank
  cases blank

theorem skipBlanks_append (cut : Cut f k) (filled : f ≠ []) :
    skipBlanks (f ++ k) = skipBlanks f ++ k := by
  rw [skipBlanks, List.dropWhile_append, ← skipBlanks, if_neg (by simpa using cut.skipBlanks_ne_nil filled)]

theorem skipped (cut : Cut f k) : Cut (skipBlanks f) k := by
  obtain ⟨b, blank, halves⟩ := exists_skipBlanks f
  rw [halves] at cut
  exact cut.behind fun pair => depthAfter_of_plain pair fun c member => isMark_of_isBlank (blank c member)

end Cut

/-- A name in a text without backslashes is made of characters for names. -/
theorem exists_scanName_of_unescaped (scan : scanName s = some (name, r)) (unescaped : '\\' ∉ s) :
    ∃ w, s = w ++ r ∧ ∀ c ∈ w, isNameChar c = true := by
  fun_induction scanName s generalizing name r with
  | case1 =>
    cases scan
    exact ⟨[], rfl, List.forall_mem_nil _⟩
  | case2 => cases scan
  | case3 d rest => exact absurd (by simp) unescaped
  | case4 c rest notEscape char ih =>
    obtain ⟨⟨inner, u⟩, found, same⟩ := Option.map_eq_some_iff.mp scan
    cases same
    obtain ⟨w, rfl, letters⟩ := ih found fun member => unescaped (List.mem_cons_of_mem _ member)
    exact ⟨c :: w, rfl, List.forall_mem_cons.mpr ⟨char, letters⟩⟩
  | case5 c rest notEscape notChar =>
    cases scan
    exact ⟨[], rfl, List.forall_mem_nil _⟩

theorem exists_scanName (scan : scanName s = some (name, r)) (ordinary : Ordinary s) :
    ∃ w, s = w ++ r ∧ ∀ c ∈ w, isNameChar c = true :=
  exists_scanName_of_unescaped scan fun member =>
    absurd rfl (isOrdinary_iff.mp (ordinary '\\' member)).1

/-- A name does not end at a cut before it ends. -/
theorem not_cut_of_letters (cut : Cut f (k ++ r)) (filled : k ≠ []) (letters : ∀ c ∈ k, isNameChar c = true) :
    False := by
  obtain ⟨c, k, rfl⟩ := List.exists_cons_of_ne_nil filled
  have stops := (cut.next c rfl).1
  rw [letters c (List.mem_cons_self ..)] at stops
  cases stops

theorem not_cut_of_name (scan : scanName (f ++ (k ++ r)) = some (name, r)) (ordinary : Ordinary (f ++ (k ++ r)))
    (cut : Cut (c :: f) (k ++ r)) (filled : k ≠ []) : False := by
  obtain ⟨w, halves, letters⟩ := exists_scanName scan ordinary
  obtain rfl : f ++ k = w := List.append_cancel_right (by rw [← halves, List.append_assoc])
  exact not_cut_of_letters cut filled fun c member => letters c (List.mem_append_right _ member)

/-- Between a parenthesis or bracket and the one that closes it nothing is cut. -/
theorem not_cut_inside (pair : IsPair opens closes) (passes : Passes true (f ++ (k ++ r)) (closes :: r))
    (ordinary : Ordinary (f ++ (k ++ r))) (filled : k ≠ [])
    (level : depthAfter opens closes 0 (w ++ opens :: f) = some 0)
    (front : ∀ c ∈ w, isMark c = false) : False := by
  obtain ⟨inside, halves, orderly⟩ := passes
  have apart : (f ++ k) ++ r = (inside ++ [closes]) ++ r := by simpa using halves
  have whole : f ++ k = inside ++ [closes] := List.append_cancel_right apart
  obtain ⟨v, rfl⟩ : f <+: inside := by
    refine List.prefix_of_prefix_length_le (List.prefix_append f k) (whole ▸ List.prefix_append ..) ?_
    have size := congrArg List.length whole
    have some := List.length_pos_iff.mpr filled
    simp only [List.length_append, List.length_singleton] at size
    omega
  have unquoted : ∀ c ∈ f ++ v, isQuote c = false := fun c member =>
    (isOrdinary_iff.mp (ordinary c (by rw [halves]; exact List.mem_append_left _ member))).2.1
  have closed := orderly.depthAfter pair unquoted 0
  rw [depthAfter_append, Option.bind_eq_some_iff] at closed
  obtain ⟨depth, here, -⟩ := closed
  rw [depthAfter_append, depthAfter_of_plain pair front, Option.bind_some, depthAfter, if_pos rfl,
    depthAfter_succ here] at level
  cases level

/-- A function is not cut, neither in its name nor in its argument. -/
theorem not_cut_of_call (scan : scanName (f ++ (k ++ r)) = some (name, '(' :: t))
    (passes : Passes true t (')' :: r)) (ordinary : Ordinary (f ++ (k ++ r))) (cut : Cut (':' :: f) (k ++ r))
    (filled : k ≠ []) : False := by
  obtain ⟨w, halves, letters⟩ := exists_scanName scan ordinary
  have named {v : List Char} (behind : k ++ r = v ++ '(' :: t) (inside : ∀ c ∈ v, isNameChar c = true) :
      False := by
    cases v with
    | nil => exact (cut.next '(' (by rw [behind]; rfl)).2 rfl
    | cons d v => exact not_cut_of_letters (behind ▸ cut) (List.cons_ne_nil d v) inside
  rcases List.append_eq_append_iff.mp halves with ⟨v, rfl, behind⟩ | ⟨v, rfl, opened⟩
  · exact named behind fun c member => letters c (List.mem_append_right _ member)
  · cases v with
    | nil => exact named (v := []) opened.symm (List.forall_mem_nil _)
    | cons d v =>
      obtain ⟨rfl, rfl⟩ := List.cons.inj opened
      exact not_cut_inside (w := ':' :: w) (.inl ⟨rfl, rfl⟩) passes
        (ordinary.of_suffix (by rw [halves, opened]; exact ⟨w ++ ['('], by simp⟩)) filled cut.parens
        (List.forall_mem_cons.mpr ⟨rfl, fun c member => isMark_of_isNameChar (letters c member)⟩)

/-- A simple selector other than a tag is not cut. -/
theorem not_cut_of_simple (reads : Reads (.simple x) (f ++ (k ++ r)) r) (ordinary : Ordinary (f ++ (k ++ r)))
    (cut : Cut f (k ++ r)) (front : f ≠ []) (filled : k ≠ []) : False := by
  obtain ⟨d, f, rfl⟩ := List.exists_cons_of_ne_nil front
  have rest : Ordinary (f ++ (k ++ r)) := ordinary.of_suffix (List.suffix_cons _ _)
  rw [List.cons_append] at reads
  cases reads with
  | simpleId scan => exact not_cut_of_name scan rest cut filled
  | simpleClass scan => exact not_cut_of_name scan rest cut filled
  | simpleAttribute read =>
    have inside := (passes_inside (fun _ mark => mark) read (avoids_of_ordinary rest)).1
    exact not_cut_inside (w := []) (.inr ⟨rfl, rfl⟩) inside rest filled cut.brackets (List.forall_mem_nil _)
  | simplePseudo read =>
    cases read with
    | pseudoPlain scan => exact not_cut_of_name scan rest cut filled
    | pseudoLogical scan _ inside close =>
      have passes : Passes true _ _ := passed_of_ordinary inside (rest.argument scan)
      exact not_cut_of_call scan (passes.trans (.skipBlanks (close ▸ .refl))) rest cut filled
    | pseudoNth scan _ inside close =>
      have passes := (passes_nth inside (avoids_of_ordinary (rest.argument scan))).1
      exact not_cut_of_call scan (close ▸ passes) rest cut filled
    | pseudoHas scan _ inside close =>
      have passes : Passes true _ _ := passed_of_ordinary inside (rest.argument scan)
      exact not_cut_of_call scan (passes.trans (.skipBlanks (close ▸ .refl))) rest cut filled

/-- What can be asked of the elements inside a candidate: a list of selectors, or behind a combinator
one that starts at the candidate. -/
def Asks (s : List Char) : Prop :=
  (∃ cs, Reads (.list cs) s []) ∨
    ∃ sign k rest cs, s = sign :: rest ∧ combinatorOf sign = some k ∧ Reads (.list cs) rest []

/-- What stands in front of a cut is read as an item of the same kind. -/
def ReadsFront (front r : List Char) : Item → Prop
  | .list _ => front ≠ [] → ∃ cs, Reads (.list cs) front []
  | .complex _ => front ≠ [] → ∃ c, Reads (.complex c) front []
  | .joins left _ => ∃ c, Reads (.joins left c) front []
  | .compound _ => r.head? ≠ some '(' → front ≠ [] → ∃ parts, Reads (.compound parts) front []
  | .simples _ => r.head? ≠ some '(' → ∃ parts, Reads (.simples parts) front []
  | .simple _ | .pseudo _ | .relatives _ => True

/-- A cut is behind a part of the text or in it. -/
theorem cut_behind_or_inside (behind : k <:+ s) (suffix : t <:+ s) :
    (∃ v, t = v ++ k) ∨ ∃ v, v ≠ [] ∧ k = v ++ t := by
  rcases List.suffix_or_suffix_of_suffix behind suffix with ⟨v, rfl⟩ | ⟨v, rfl⟩
  · exact .inl ⟨v, rfl⟩
  · cases v with
    | nil => exact .inl ⟨[], rfl⟩
    | cons c v => exact .inr ⟨c :: v, List.cons_ne_nil _ _, rfl⟩

/-- Blanks are not cut. -/
theorem Cut.eq_nil (cut : Cut f k) (within : skipBlanks (f ++ k) <:+ k) : f = [] := by
  by_contra filled
  have size := within.length_le
  have some := List.length_pos_iff.mpr (cut.skipBlanks_ne_nil filled)
  rw [cut.skipBlanks_append filled, List.length_append] at size
  omega

/-- A cut is not right behind a comma or a combinator. -/
theorem Cut.sign (cut : Cut f k) (filled : f ≠ []) (there : skipBlanks (f ++ k) = c :: t)
    (sign : c = ',' ∨ ∃ l, combinatorOf c = some l) :
    ∃ v, skipBlanks f = c :: v ∧ t = v ++ k ∧ v ≠ [] ∧ Cut v k := by
  rw [cut.skipBlanks_append filled] at there
  obtain ⟨d, v, front⟩ := List.exists_cons_of_ne_nil (cut.skipBlanks_ne_nil filled)
  rw [front] at there
  obtain ⟨rfl, rfl⟩ := List.cons.inj there
  have skipped := front ▸ cut.skipped
  refine ⟨v, front, rfl, ?_, skipped.tail ?_⟩
  · rintro rfl
    have last := skipped.last d rfl
    rcases sign with rfl | ⟨l, means⟩
    · exact last.2.2 rfl
    · rw [last.2.1] at means
      cases means
  · rcases sign with rfl | ⟨l, means⟩
    · exact .inr rfl
    · exact .inl (facts_of_combinatorOf means).2.1

/-- A compound and what follows it are cut behind the compound or in it. -/
theorem compound_of_cut {parts : List Simple} {left c : Complex} (first : Reads (.compound parts) (f ++ k) t)
    (joined : Reads (.joins left c) t r) (ordinary : Ordinary (f ++ k)) (filled : f ≠ []) (cut : Cut f k)
    (ih : t <:+ k → ReadsFront f t (.compound parts))
    (ihJoined : ∀ v, t = v ++ k → Cut v k → ReadsFront v r (.joins left c)) :
    (∃ v c', Reads (.compound parts) f v ∧ Reads (.joins left c') v []) ∨
      ∃ parts', Reads (.compound parts') f [] := by
  have closed := head?_joins joined
  rcases cut_behind_or_inside (List.suffix_append f k) first.lookahead.suffix with
    ⟨v, rfl⟩ | ⟨v, -, rfl⟩
  · have passes : Passes false (f ++ k) (v ++ k) := passed_of_ordinary first ordinary closed
    obtain ⟨c', more⟩ := ihJoined v rfl (cut.passed ordinary passes)
    exact .inl ⟨v, c', first.lookahead.cut, more⟩
  · exact .inr (ih (List.suffix_append v t) closed filled)

theorem simples_of_cut {parts : List Simple} (first : Reads (.simple x) (f ++ k) t)
    (more : Reads (.simples parts) t r) (ordinary : Ordinary (f ++ k)) (filled : f ≠ []) (cut : Cut f k)
    (closed : r.head? ≠ some '(')
    (ih : ∀ v, t = v ++ k → Cut v k → ReadsFront v r (.simples parts)) :
    ∃ v parts', Reads (.simple x) f v ∧ Reads (.simples parts') v [] := by
  rcases cut_behind_or_inside (List.suffix_append f k) first.lookahead.suffix with
    ⟨v, rfl⟩ | ⟨v, inside, rfl⟩
  · have passes : Passes false (f ++ k) (v ++ k) :=
      passed_of_ordinary first ordinary (head?_simples more closed)
    obtain ⟨parts', more⟩ := ih v rfl (cut.passed ordinary passes) closed
    exact ⟨v, parts', first.lookahead.cut, more⟩
  · exact (not_cut_of_simple first ordinary cut filled inside).elim

theorem readsFront_of_reads (reads : Reads item s r) (ordinary : Ordinary s) (halves : s = f ++ k)
    (within : r <:+ k) (cut : Cut f k) : ReadsFront f r item := by
  induction reads generalizing f with
  | @listOne s t c first last ih =>
    intro filled
    subst halves
    have behind : t <:+ k := by
      rcases cut_behind_or_inside (List.suffix_append f k) first.lookahead.suffix with
        ⟨v, rfl⟩ | ⟨v, -, rfl⟩
      · have passes : Passes false (f ++ k) (v ++ k) := passed_of_ordinary first ordinary
        rw [(cut.passed ordinary passes).eq_nil within]
        exact List.suffix_refl k
      · exact List.suffix_append v t
    obtain ⟨c', reads⟩ := ih ordinary rfl behind cut filled
    exact ⟨[c'], reads.last⟩
  | @listMore s t u r c cs first comma more ih ihMore =>
    intro filled
    subst halves
    have inside (behind : t <:+ k) : ∃ cs, Reads (.list cs) f [] := by
      obtain ⟨c', reads⟩ := ih ordinary rfl behind cut filled
      exact ⟨[c'], reads.last⟩
    rcases cut_behind_or_inside (List.suffix_append f k) first.lookahead.suffix with
      ⟨v, rfl⟩ | ⟨v, -, rfl⟩
    · by_cases nothing : v = []
      · exact inside (by simp [nothing])
      have passes : Passes false (f ++ k) (v ++ k) := passed_of_ordinary first ordinary
      obtain ⟨w, there, rfl, some, cut'⟩ := (cut.passed ordinary passes).sign nothing comma (.inl rfl)
      have rest := (ordinary.of_suffix passes.suffix).of_suffix (suffix_skipBlanks _)
      rw [comma] at rest
      obtain ⟨cs', more'⟩ := ihMore (rest.of_suffix (List.suffix_cons _ _)) rfl within cut' some
      exact ⟨_, .listMore first.lookahead.cut there more'⟩
    · exact inside (List.suffix_append v t)
  | @complex s t r parts c first joined ih ihJoined =>
    intro filled
    subst halves
    have skipped := cut.skipBlanks_append filled
    have rest := ordinary.of_suffix (suffix_skipBlanks _)
    rw [skipped] at first ih rest
    have filled' := cut.skipBlanks_ne_nil filled
    rcases compound_of_cut first joined rest filled' cut.skipped
      (fun behind => ih rest rfl behind cut.skipped)
      (fun v there cut' => ihJoined (rest.of_suffix first.lookahead.suffix) there within cut') with
      ⟨v, c', first', joined'⟩ | ⟨parts', first'⟩
    · exact ⟨c', .complex first' joined'⟩
    · exact ⟨_, .complex first' .joins_nil⟩
  | @joinsEnd s left ends =>
    subst halves
    rw [cut.eq_nil within]
    exact ⟨_, .joins_nil⟩
  | @joinsSign s t u r left c sign l parts there means right joined ih ihJoined =>
    by_cases nothing : f = []
    · exact nothing ▸ ⟨_, .joins_nil⟩
    subst halves
    have rest := ordinary.of_suffix (suffix_skipBlanks _)
    rw [there] at rest
    have rest := (rest.of_suffix (List.suffix_cons _ _)).of_suffix (suffix_skipBlanks _)
    obtain ⟨w, front, rfl, some, cut'⟩ := cut.sign nothing there (.inr ⟨l, means⟩)
    rw [cut'.skipBlanks_append some] at right ih rest
    rcases compound_of_cut right joined rest (cut'.skipBlanks_ne_nil some) cut'.skipped
      (fun behind => ih rest rfl behind cut'.skipped)
      (fun v there cut' => ihJoined (rest.of_suffix right.lookahead.suffix) there within cut') with
      ⟨v, c', right', joined'⟩ | ⟨parts', right'⟩
    · exact ⟨c', .joinsSign front means right' joined'⟩
    · exact ⟨_, .joinsSign front means right' .joins_nil⟩
  | @joinsBlank s u r left c parts blank right joined ih ihJoined =>
    by_cases nothing : f = []
    · exact nothing ▸ ⟨_, .joins_nil⟩
    subst halves
    have rest := ordinary.of_suffix (suffix_skipBlanks _)
    rw [cut.skipBlanks_append nothing] at right ih rest blank
    have blank' : (skipBlanks f).length < f.length := by simpa using blank
    rcases compound_of_cut right joined rest (cut.skipBlanks_ne_nil nothing) cut.skipped
      (fun behind => ih rest rfl behind cut.skipped)
      (fun v there cut' => ihJoined (rest.of_suffix right.lookahead.suffix) there within cut') with
      ⟨v, c', right', joined'⟩ | ⟨parts', right'⟩
    · exact ⟨c', .joinsBlank blank' right' joined'⟩
    · exact ⟨_, .joinsBlank blank' right' .joins_nil⟩
  | @compoundAny s r parts more ih =>
    intro closed filled
    obtain ⟨d, f, rfl⟩ := List.exists_cons_of_ne_nil filled
    obtain ⟨rfl, rfl⟩ := List.cons.inj halves
    obtain ⟨parts', more'⟩ := ih (ordinary.of_suffix (List.suffix_cons _ _)) rfl within
      (cut.tail (.inl rfl)) closed
    exact ⟨_, .compoundAny more'⟩
  | @compoundType s t r name c parts start tag more ih =>
    intro closed filled
    rw [halves] at ordinary
    rcases cut_behind_or_inside (halves ▸ List.suffix_append f k) (suffix_of_scanName tag) with
      ⟨v, rfl⟩ | ⟨v, inside, rfl⟩
    · have looks := Lookahead.scanTag start tag
      rw [halves] at looks tag
      obtain ⟨s', rfl, tag'⟩ := looks.cut
      have passes := passes_name (fun _ mark => mark) tag (avoids_of_ordinary ordinary)
        (head?_simples more closed)
      obtain ⟨parts', more'⟩ := ih (ordinary.of_suffix passes.suffix) rfl within
        (cut.passed ordinary passes) closed
      exact ⟨_, .compoundType start tag' more'⟩
    · rw [halves] at tag
      obtain ⟨w, same, letters⟩ := exists_scanName tag ordinary
      obtain rfl : f ++ v = w := List.append_cancel_right (by rw [← same, List.append_assoc])
      exact (not_cut_of_letters cut inside fun c member =>
        letters c (List.mem_append_right _ member)).elim
  | compoundSimple first more ih ihMore =>
    intro closed filled
    subst halves
    obtain ⟨v, parts', first', more'⟩ := simples_of_cut first more ordinary filled cut closed
      fun v there cut' => ihMore (ordinary.of_suffix first.lookahead.suffix) there within cut'
    exact ⟨_, .compoundSimple first' more'⟩
  | @simplesEnd s stop =>
    intro closed
    obtain rfl : f = [] := by
      have size := within.length_le
      rw [halves, List.length_append] at size
      exact List.length_eq_zero_iff.mp (by omega)
    exact ⟨[], .simplesEnd rfl⟩
  | simplesMore first more ih ihMore =>
    intro closed
    by_cases nothing : f = []
    · rw [nothing]
      exact ⟨[], .simplesEnd rfl⟩
    subst halves
    obtain ⟨v, parts', first', more'⟩ := simples_of_cut first more ordinary nothing cut closed
      fun v there cut' => ihMore (ordinary.of_suffix first.lookahead.suffix) there within cut'
    exact ⟨_, .simplesMore first' more'⟩
  | _ => trivial

/-! ## Arguments -/

/-- No selector behind a comma begins with a combinator. -/
def Unled (s : List Char) : Prop :=
  ∀ n < s.length, (s.drop n).head? = some ',' → depthAfter '(' ')' 0 (s.take n) = some 0 →
    ∀ c ∈ (skipBlanks (s.drop (n + 1))).head?, combinatorOf c = none

instance (s : List Char) : Decidable (Unled s) :=
  have (n : Nat) : Decidable (∀ c ∈ (skipBlanks (s.drop (n + 1))).head?, combinatorOf c = none) :=
    Option.decidableForallMem _
  inferInstanceAs (Decidable (∀ _ < _, _))

theorem Unled.behind (unled : Unled (w ++ t)) (level : depthAfter '(' ')' 0 w = some 0) : Unled t := by
  intro n short comma here
  have there := unled (w.length + n) (by simpa using short)
  rw [List.drop_length_add_append, List.take_length_add_append, Nat.add_assoc,
    List.drop_length_add_append, depthAfter_append, level] at there
  exact there comma here

theorem Unled.first (unled : Unled (w ++ ',' :: t)) (level : depthAfter '(' ')' 0 w = some 0) :
    ∀ c ∈ (skipBlanks t).head?, combinatorOf c = none := by
  have there := unled w.length (by simp)
  rw [List.drop_left, List.take_left, List.drop_length_add_append] at there
  exact there rfl level

/-- What stands behind the combinator of an argument, if it begins with one, is cut where it is. -/
theorem lead_of_cut (cut : Cut f k) (filled : f ≠ []) :
    ∃ v, v ≠ [] ∧ Cut v k ∧ (Selector.readLead (skipBlanks (f ++ k))).2 = v ++ k ∧
      ∀ cs, Reads (.list cs) v [] → Asks (skipBlanks f) := by
  obtain ⟨d, g, front⟩ := List.exists_cons_of_ne_nil (cut.skipBlanks_ne_nil filled)
  have whole := cut.skipBlanks_append filled
  cases means : combinatorOf d with
  | none =>
    refine ⟨skipBlanks f, cut.skipBlanks_ne_nil filled, cut.skipped, ?_, fun cs reads => .inl ⟨cs, reads⟩⟩
    rw [whole, front, List.cons_append, Selector.readLead, means]
  | some l =>
    rw [front, List.cons_append] at whole
    obtain ⟨v, front', same, some, cut'⟩ := cut.sign filled whole (.inr ⟨l, means⟩)
    refine ⟨v, some, cut', ?_, fun cs reads => .inr ⟨d, l, v, cs, front', means, reads⟩⟩
    rw [whole, Selector.readLead, means, same]

/-- Blanks in front of a list of selectors are passed over. -/
theorem reads_of_skipBlanks {cs : List Complex} (reads : Reads (.list cs) (skipBlanks s) r) :
    Reads (.list cs) s r := by
  have complex {c : Complex} {t : List Char} (first : Reads (.complex c) (skipBlanks s) t) :
      Reads (.complex c) s t := by
    cases first with
    | complex compound joined =>
      rw [Selector.skipBlanks_skipBlanks] at compound
      exact .complex compound joined
  cases reads with
  | listOne first last => exact .listOne (complex first) last
  | listMore first comma more => exact .listMore (complex first) comma more

/-- What stands in front of a cut in an argument can be asked. -/
theorem asks_of_cut {rs : List Relative} (reads : Reads (.relatives rs) s r) (ordinary : Ordinary s)
    (halves : s = f ++ k) (within : r <:+ k) (cut : Cut f k) (filled : f ≠ []) (unled : Unled f) :
    Asks (skipBlanks f) := by
  generalize there : Item.relatives rs = item at reads
  induction reads generalizing f rs with
  | @relativesOne s t c first last =>
    subst halves
    obtain ⟨v, some, cut', lead, asks⟩ := lead_of_cut cut filled
    rw [lead] at first
    have rest : Ordinary (v ++ k) := lead ▸
      (ordinary.of_suffix (suffix_skipBlanks _)).of_suffix (Lookahead.readLead _).suffix
    obtain ⟨cs, reads⟩ := readsFront_of_reads (.listOne first last) rest rfl within cut' some
    exact asks cs reads
  | @relativesMore s t u r c rs first comma more _ ih =>
    subst halves
    obtain ⟨v, some, cut', lead, asks⟩ := lead_of_cut cut filled
    have passesLead := (passes_lead (avoids_of_ordinary (ordinary.of_suffix (suffix_skipBlanks _)))).1
    rw [lead] at first passesLead
    have rest : Ordinary (v ++ k) := (ordinary.of_suffix (suffix_skipBlanks _)).of_suffix passesLead.suffix
    have inside (behind : t <:+ k) : Asks (skipBlanks f) := by
      obtain ⟨c', reads⟩ := readsFront_of_reads first rest rfl behind cut' some
      exact asks _ reads.last
    rcases cut_behind_or_inside (List.suffix_append v k) first.lookahead.suffix with
      ⟨w, rfl⟩ | ⟨w, -, rfl⟩
    · by_cases nothing : w = []
      · exact inside (by simp [nothing])
      have passes : Passes false (v ++ k) (w ++ k) := passed_of_ordinary first rest
      obtain ⟨x, front, rfl, some', cut''⟩ := (cut'.passed rest passes).sign nothing comma (.inl rfl)
      have behind := (rest.of_suffix passes.suffix).of_suffix (suffix_skipBlanks _)
      rw [comma] at behind
      have whole : Passes true (f ++ k) ((',' :: x) ++ k) := .skipBlanks
        (passesLead.allow.trans (passes.allow.trans (.skipBlanks (comma ▸ .refl))))
      obtain ⟨y, rfl, level⟩ := exists_of_passes whole ordinary
      have level := level (.inl ⟨rfl, rfl⟩)
      have next := ih (behind.of_suffix (List.suffix_cons _ _)) rfl within cut'' some'
        (Unled.behind (w := y ++ [',']) (by simpa using unled)
          (by simp [depthAfter_append, level, depthAfter])) rfl
      obtain ⟨cs, reads⟩ : ∃ cs, Reads (.list cs) x [] := by
        rcases next with ⟨cs, reads⟩ | ⟨sign, l, z, cs, there, means, reads⟩
        · exact ⟨cs, reads_of_skipBlanks reads⟩
        · have none := unled.first level sign (by rw [there]; rfl)
          rw [none] at means
          cases means
      exact asks _ (.listMore first.lookahead.cut front reads)
    · exact inside (List.suffix_append w t)
  | _ => cases there

end

end NoiseFilter.Extended
