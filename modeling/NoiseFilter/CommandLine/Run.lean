import NoiseFilter.CommandLine.Arguments
import NoiseFilter.CommandLine.Report
import NoiseFilter.Markup.Plant
import NoiseFilter.Settings.Bundled
import NoiseFilter.Settings.Save

/-!
# Running commands

What a command prints, from the files that it names and the text that comes as input. The first
file that cannot be used ends a command, and then nothing is printed.
-/

namespace NoiseFilter.CommandLine

/-- The text of a file, if it can be read. -/
abbrev Files := String → Option String

/-- Why a command fails. -/
inductive Failure where
  | unreadable (path : String)
  | config (path : String)
  | catalog (path : String)
  | options (path : String) (cause : OptionsError)
  | engine (cause : ConfigSelectorError)
  | selector (cause : CompileError)

def Failure.message : Failure → String
  | unreadable path => "cannot read " ++ path
  | config path => "invalid configuration in " ++ path
  | catalog path => "invalid catalog in " ++ path
  | options path cause => "invalid options in " ++ path ++ ": " ++ cause.message
  | engine cause => cause.message
  | selector cause => cause.message

/-! ## Loading -/

def readFile (files : Files) (path : String) : Except Failure String :=
  match files path with
  | some text => .ok text
  | none => .error (.unreadable path)

/-- What a file holds. -/
def readAs {α : Type} (files : Files) (path : String) (failure : Failure)
    (read : String → Option α) : Except Failure α := do
  match read (← readFile files path) with
  | some a => .ok a
  | none => .error failure

def loadConfig (files : Files) : Option String → Except Failure Config
  | none => .ok {}
  | some path => readAs files path (.config path) Config.ofString?

def loadCatalog (files : Files) (config : Config) : Option String → Except Failure Catalog
  | none => .ok (.bundled config)
  | some path => readAs files path (.catalog path) (Catalog.ofString? config)

def loadOptions (files : Files) (catalog : Catalog) : Option String → Except Failure Options
  | none => .ok (.ofCatalog catalog)
  | some path => do
    (Options.ofString (← readFile files path)).mapError (.options path)

/-! ## Commands -/

/-- Classify a page, from the engine's start. -/
def classifyPage (config : Config) (catalog : Catalog) (options : Options) (page url : String) :
    Except Failure (List String) := do
  let document := Document.ofMarkup page url
  let engine ← (Engine.ofConfig config catalog).mapError .engine
  let (report, engine, tree) := engine.applyOptions document.tree options
  return pageLines engine tree report

/-- The lines that a request prints. -/
def Request.lines (config : Config) (files : Files) (input : String) :
    Request → Except Failure (List String)
  | .classify page catalog options mode => do
    let catalog ← loadCatalog files config catalog
    let options ← loadOptions files catalog options
    let options := { options with mode := mode.getD options.mode }
    classifyPage config catalog options (← readFile files page) page
  | .score file => do
    let text ←
      match file with
      | some path => readFile files path
      | none => .ok input
    return [(scoreJson (Score.score config.thresholds text)).render]
  | .compile selector => do
    return selectorLines (← (ExtendedSelector.compile selector).mapError .selector)
  | .defaults catalog => do
    return [(Options.ofCatalog (← loadCatalog files config catalog)).render]

def Invocation.lines (i : Invocation) (files : Files) (input : String) :
    Except Failure (List String) := do
  i.request.lines (← loadConfig files i.config) files input

/-! ## Outcomes -/

/-- How a run ends. -/
structure Outcome where
  /-- 0 if all went well, 1 if the command failed, 2 if there was none. -/
  code : Nat := 0
  output : String := ""
  /-- A word to the user, apart from the output. -/
  notice : String := ""

def usage : String :=
  "usage: [--config FILE] COMMAND\n"
    ++ "  classify PAGE [--catalog FILE] [--options FILE] [--mode 0|1|2]\n"
    ++ "  score [FILE]\n"
    ++ "  compile SELECTOR\n"
    ++ "  defaults [--catalog FILE]\n"

def versionText : String := "0.1.0\n"

def Refusal.outcome : Refusal → Outcome
  | help => { notice := usage }
  | version => { notice := versionText }
  | misuse => { code := 2, notice := usage }

/-- Each line ends in a line feed. -/
def joinLines (lines : List String) : String := String.join (lines.map (· ++ "\n"))

/-- Run a command line. -/
def run (files : Files) (input : String) (args : List String) : Outcome :=
  match Invocation.ofArguments args with
  | .error refusal => refusal.outcome
  | .ok invocation =>
    match invocation.lines files input with
    | .ok lines => { output := joinLines lines }
    | .error failure => { code := 1, notice := failure.message ++ "\n" }

/-! ## What a run reads -/

/-- The files that a request names. -/
def Request.paths : Request → List String
  | .classify page catalog options _ => page :: catalog.toList ++ options.toList
  | .score file => file.toList
  | .compile _ => []
  | .defaults catalog => catalog.toList

def Invocation.paths (i : Invocation) : List String := i.config.toList ++ i.request.paths

/-- Whether a request is about the text that comes as input. -/
def Request.readsInput : Request → Bool
  | .score none => true
  | _ => false

end NoiseFilter.CommandLine
