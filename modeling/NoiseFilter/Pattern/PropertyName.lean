import NoiseFilter.Pattern.CharSet
import NoiseFilter.Text.Script

/-!
# Names of properties

What a name in `\p{…}` stands for: a binary property, a general category or a script, under their
long and short names. Case, spaces, hyphens, underscores and a leading `is` do not count.
-/

namespace NoiseFilter.Pattern

open Text (Category)
open Text.Property

/-- Strip a name of all that does not count. -/
def normalizeName (name : List Char) : List Char :=
  let stripped := (name.map Char.toLower).take 2 == ['i', 's']
  let body := if stripped then name.drop 2 else name
  let plain :=
    (body.filter fun c => c.toNat < 0x80 && c != ' ' && c != '_' && c != '-').map Char.toLower
  if stripped && plain == ['c'] then ['i', 's', 'c'] else plain

/-- The union of several categories. -/
def ofCategories (ks : List Category) : CharSet :=
  ks.foldl (fun s k => s.union (.ofTable k.table)) .empty

/-- The general categories and their groups by name. -/
def categoryNamed (name : String) : Option CharSet :=
  match name with
  | "any" => some CharSet.empty.compl
  | "assigned" => some (ofCategories [.cn]).compl
  | "ascii" => some (NamedClass.set .ascii)
  | "c" | "other" => some (ofCategories Category.others)
  | "cc" | "control" | "cntrl" => some (ofCategories [.cc])
  | "cf" | "format" => some (ofCategories [.cf])
  | "cn" | "unassigned" => some (ofCategories [.cn])
  | "co" | "privateuse" => some (ofCategories [.co])
  | "l" | "letter" => some (ofCategories Category.letters)
  | "lc" | "casedletter" => some (ofCategories Category.casedLetters)
  | "ll" | "lowercaseletter" => some (ofCategories [.ll])
  | "lm" | "modifierletter" => some (ofCategories [.lm])
  | "lo" | "otherletter" => some (ofCategories [.lo])
  | "lt" | "titlecaseletter" => some (ofCategories [.lt])
  | "lu" | "uppercaseletter" => some (ofCategories [.lu])
  | "m" | "mark" | "combiningmark" => some (ofCategories Category.marks)
  | "mc" | "spacingmark" => some (ofCategories [.mc])
  | "me" | "enclosingmark" => some (ofCategories [.me])
  | "mn" | "nonspacingmark" => some (ofCategories [.mn])
  | "n" | "number" => some (ofCategories Category.numbers)
  | "nd" | "decimalnumber" | "digit" => some (ofCategories [.nd])
  | "nl" | "letternumber" => some (ofCategories [.nl])
  | "no" | "othernumber" => some (ofCategories [.no])
  | "p" | "punctuation" | "punct" => some (ofCategories Category.punctuation)
  | "pc" | "connectorpunctuation" => some (ofCategories [.pc])
  | "pd" | "dashpunctuation" => some (ofCategories [.pd])
  | "pe" | "closepunctuation" => some (ofCategories [.pe])
  | "pf" | "finalpunctuation" => some (ofCategories [.pf])
  | "pi" | "initialpunctuation" => some (ofCategories [.pi])
  | "po" | "otherpunctuation" => some (ofCategories [.po])
  | "ps" | "openpunctuation" => some (ofCategories [.ps])
  | "s" | "symbol" => some (ofCategories Category.symbols)
  | "sc" | "currencysymbol" => some (ofCategories [.sc])
  | "sk" | "modifiersymbol" => some (ofCategories [.sk])
  | "sm" | "mathsymbol" => some (ofCategories [.sm])
  | "so" | "othersymbol" => some (ofCategories [.so])
  | "z" | "separator" => some (ofCategories Category.separators)
  | "zl" | "lineseparator" => some (ofCategories [.zl])
  | "zp" | "paragraphseparator" => some (ofCategories [.zp])
  | "zs" | "spaceseparator" => some (ofCategories [.zs])
  | _ => none

/-- The binary properties by name. -/
def binaryNamed (name : String) : Option CharSet :=
  match name with
  | "asciihexdigit" | "ahex" => some ⟨isAsciiHexDigit, 3⟩
  | "alphabetic" | "alpha" => some ⟨isAlphabetic, 760⟩
  | "bidicontrol" | "bidic" => some (.ofTable bidiControlTable)
  | "bidimirrored" | "bidim" => some (.ofTable bidiMirroredTable)
  | "caseignorable" | "ci" => some ⟨isCaseIgnorable, 460⟩
  | "cased" => some ⟨isCased, 158⟩
  | "changeswhencasefolded" | "cwcf" => some (.ofTable changesWhenCasefoldedTable)
  | "changeswhencasemapped" | "cwcm" => some ⟨changesWhenCasemapped, 131⟩
  | "changeswhenlowercased" | "cwl" => some (.ofTable changesWhenLowercasedTable)
  | "changeswhentitlecased" | "cwt" => some (.ofTable changesWhenTitlecasedTable)
  | "changeswhenuppercased" | "cwu" => some (.ofTable changesWhenUppercasedTable)
  | "dash" => some (.ofTable dashTable)
  | "defaultignorablecodepoint" | "di" => some (.ofTable defaultIgnorableTable)
  | "deprecated" | "dep" => some (.ofTable deprecatedTable)
  | "diacritic" | "dia" => some (.ofTable diacriticTable)
  | "emoji" => some (.ofTable emojiTable)
  | "emojicomponent" | "ecomp" => some (.ofTable emojiComponentTable)
  | "emojimodifier" | "emod" => some ⟨within 0x1F3FB 0x1F3FF, 1⟩
  | "emojimodifierbase" | "ebase" => some (.ofTable emojiModifierBaseTable)
  | "emojipresentation" | "epres" => some (.ofTable emojiPresentationTable)
  | "extendedpictographic" | "extpict" => some (.ofTable extendedPictographicTable)
  | "extender" | "ext" => some (.ofTable extenderTable)
  | "graphemebase" | "grbase" => some ⟨isGraphemeBase, 900⟩
  | "graphemeextend" | "grext" => some ⟨isGraphemeExtend, 380⟩
  | "hexdigit" | "hex" => some ⟨Text.Property.isHexDigit, 6⟩
  | "idsbinaryoperator" | "idsb" =>
    some ⟨fun c => within 0x2FF0 0x2FF1 c || within 0x2FF4 0x2FFD c || c.toNat == 0x31EF, 3⟩
  | "idstrinaryoperator" | "idst" => some ⟨within 0x2FF2 0x2FF3, 1⟩
  | "idsunaryoperator" | "idsu" => some ⟨within 0x2FFE 0x2FFF, 1⟩
  | "idcontinue" | "idc" => some ⟨isIdContinue, 800⟩
  | "idstart" | "ids" => some ⟨isIdStart, 680⟩
  | "ideographic" | "ideo" => some (.ofTable ideographicTable)
  | "joincontrol" | "joinc" => some ⟨isJoinControl, 1⟩
  | "logicalorderexception" | "loe" => some (.ofTable logicalOrderExceptionTable)
  | "lowercase" | "lower" => some ⟨isLowercase, 680⟩
  | "math" => some ⟨isMath, 140⟩
  | "noncharactercodepoint" | "nchar" => some ⟨isNoncharacter, 18⟩
  | "patternsyntax" | "patsyn" => some (.ofTable patternSyntaxTable)
  | "patternwhitespace" | "patws" => some (.ofTable patternWhiteSpaceTable)
  | "quotationmark" | "qmark" => some (.ofTable quotationMarkTable)
  | "radical" => some (.ofTable radicalTable)
  | "regionalindicator" | "ri" => some ⟨within 0x1F1E6 0x1F1FF, 1⟩
  | "sentenceterminal" | "sterm" => some (.ofTable sentenceTerminalTable)
  | "softdotted" | "sd" => some (.ofTable softDottedTable)
  | "terminalpunctuation" | "term" => some (.ofTable terminalPunctuationTable)
  | "unifiedideograph" | "uideo" => some (.ofTable unifiedIdeographTable)
  | "uppercase" | "upper" => some ⟨isUppercase, 660⟩
  | "variationselector" | "vs" => some (.ofTable variationSelectorTable)
  | "whitespace" | "wspace" | "space" => some ⟨Text.isBlank, 10⟩
  | "xidcontinue" | "xidc" => some ⟨isXidContinue, 800⟩
  | "xidstart" | "xids" => some ⟨isXidStart, 690⟩
  | _ => none

/-- A script by its code or name. Two scripts have a code of old besides. -/
def scriptNamed (name : List Char) : Option Text.Script :=
  let name := if name == "qaac".toList then "copt".toList
    else if name == "qaai".toList then "zinh".toList else name
  Text.Script.all.find? fun s =>
    normalizeName s.code.toList == name || normalizeName s.name.toList == name

/-- The set of a script, without or with the characters that it shares. -/
def scriptSet (shared : Bool) (s : Text.Script) : CharSet :=
  if shared then ⟨s.uses, s.own.ranges.size + s.shared.ranges.size⟩ else .ofTable s.own

/-- What a lone name stands for. The short names of two categories are also short names of
properties without a set; here they are categories. -/
def loneNamed (name : List Char) : Option CharSet :=
  let text := String.ofList name
  binaryNamed text <|> categoryNamed text <|> (scriptNamed name).map (scriptSet false)

/-- What a name with a value stands for. -/
def pairNamed (name value : List Char) : Option CharSet :=
  match String.ofList name with
  | "gc" | "generalcategory" => categoryNamed (String.ofList value)
  | "sc" | "script" => (scriptNamed value).map (scriptSet false)
  | "scx" | "scriptextensions" => (scriptNamed value).map (scriptSet true)
  | _ => none

/-- The set that a property query asks for, if it is known. -/
def PropertyQuery.set? (q : PropertyQuery) : Option CharSet :=
  match q.value with
  | none => loneNamed (normalizeName q.name)
  | some value => pairNamed (normalizeName q.name) (normalizeName value)

end NoiseFilter.Pattern
