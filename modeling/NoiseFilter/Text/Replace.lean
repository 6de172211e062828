/-!
# Replacing text

Every occurrence of a text is replaced, from the left and without overlaps. The empty text occurs in
front of every character and at the end.
-/

namespace NoiseFilter.Text

/-- Replace every occurrence of `old`, which is not empty; `taken` characters of an occurrence are
still to be passed over. -/
def replaceFrom (old new : List Char) (taken : Nat) : List Char → List Char
  | [] => []
  | c :: rest =>
    match taken with
    | taken + 1 => replaceFrom old new taken rest
    | 0 =>
      if old.isPrefixOf (c :: rest) then new ++ replaceFrom old new (old.length - 1) rest
      else c :: replaceFrom old new 0 rest

def replaceChars (old new s : List Char) : List Char :=
  if old.isEmpty then new ++ s.flatMap fun c => c :: new else replaceFrom old new 0 s

/-- Replace every occurrence of `old` by `new`. -/
def replace (s old new : String) : String :=
  String.ofList (replaceChars old.toList new.toList s.toList)

end NoiseFilter.Text
