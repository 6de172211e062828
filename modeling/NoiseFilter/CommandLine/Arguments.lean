import NoiseFilter.Settings.Options

/-!
# Arguments

A command line names one command, with flags in front of it or behind it. Arguments are read from
the left, and the first one that does not fit decides; whether a required argument is missing is
asked last. Behind `--` nothing is a flag any more.
-/

namespace NoiseFilter.CommandLine

/-- What a command line asks for. -/
inductive Request where
  /-- Classify the elements of a page. -/
  | classify (page : String) (catalog options : Option String) (mode : Option Mode)
  /-- Score a text; without a file, the one that comes as input. -/
  | score (file : Option String)
  /-- Show the parts of an extended selector. -/
  | compile (selector : String)
  /-- Show the options that a catalog starts with. -/
  | defaults (catalog : Option String)
  deriving DecidableEq

/-- A request, and the file that holds the configuration. -/
structure Invocation where
  config : Option String
  request : Request
  deriving DecidableEq

/-- Why a command line asks for nothing. -/
inductive Refusal where
  | help
  | version
  | misuse
  deriving DecidableEq

/-! ## Commands -/

/-- A flag that takes a value. -/
structure Flag where
  name : String
  /-- A short form of the name. -/
  letter : Option Char := none
  accepts : String → Bool

/-- What can be asked for. -/
inductive Command where
  | classify
  | score
  | compile
  | defaults
  deriving DecidableEq

/-- The mode that a number stands for; a sign and zeros in front are allowed. -/
def readMode (text : String) : Option Mode :=
  let (negative, digits) :=
    match text.toList with
    | '-' :: rest => (true, rest)
    | '+' :: rest => (false, rest)
    | cs => (false, cs)
  if digits.isEmpty || !digits.all Char.isDigit then none
  else
    let n := digits.foldl (fun n c => n * 10 + (c.toNat - 48)) 0
    if negative && n != 0 then none else Mode.ofNat? n

/-- A flag that names a file. -/
def fileFlag (name : String) : Flag := { name, accepts := fun v => !v.isEmpty }

/-- The flag that every command takes, and that may stand in front of the command as well. -/
def configFlag : Flag := { fileFlag "config" with letter := some 'c' }

def modeFlag : Flag := { name := "mode", accepts := fun v => (readMode v).isSome }

namespace Command

def ofName? : String → Option Command
  | "classify" => some classify
  | "score" => some score
  | "compile" => some compile
  | "defaults" => some defaults
  | _ => none

def flags : Command → List Flag
  | classify => [configFlag, fileFlag "catalog", fileFlag "options", modeFlag]
  | defaults => [configFlag, fileFlag "catalog"]
  | score | compile => [configFlag]

/-- Whether the command takes this argument, not counting flags. -/
def accepts (c : Command) (operand : String) : Bool :=
  match c with
  | classify | score => !operand.isEmpty
  | compile => true
  | defaults => false

end Command

/-! ## Single arguments -/

/-- What one argument is. -/
inductive Argument where
  /-- A flag, with the value written to it. -/
  | flag (f : Flag) (value : Option String)
  | help
  | version
  /-- From here on there are no flags. -/
  | stop
  | operand (text : String)
  | unknown

/-- What a flag spelled out stands for. -/
def longArgument (flags : List Flag) (body : List Char) : Argument :=
  let name := String.ofList (body.takeWhile (· != '='))
  let value :=
    match body.dropWhile (· != '=') with
    | [] => none
    | _ :: value => some (String.ofList value)
  if name = "help" ∧ value.isNone then .help
  else if name = "version" ∧ value.isNone then .version
  else
    match flags.find? (·.name == name) with
    | some f => .flag f value
    | none => .unknown

/-- What a letter stands for, with what is written to it. -/
def shortArgument (flags : List Flag) (letter : Char) (body : List Char) : Argument :=
  if letter = 'h' then .help
  else if letter = 'V' then .version
  else
    match flags.find? (·.letter == some letter), body with
    | some f, [] => .flag f none
    | some f, '=' :: value => .flag f (some (String.ofList value))
    | some f, value => .flag f (some (String.ofList value))
    | none, _ => .unknown

def Argument.ofString (flags : List Flag) (text : String) : Argument :=
  match text.toList with
  | ['-', '-'] => .stop
  | '-' :: '-' :: body => longArgument flags body
  | '-' :: letter :: body => shortArgument flags letter body
  | _ => .operand text

/-- Whether a text cannot be the value of a flag that stands in front of it. A dash alone can. -/
def looksLikeFlag (text : String) : Bool :=
  match text.toList with
  | '-' :: _ :: _ => true
  | _ => false

/-! ## Reading -/

/-- What has been read. -/
structure Given where
  /-- Values by the names of their flags. -/
  values : List (String × String) := []
  operand : Option String := none

namespace Given

def get? (g : Given) (name : String) : Option String := g.values.lookup name

/-- Each flag is given once. -/
def insert (g : Given) (f : Flag) (value : String) : Except Refusal Given :=
  if (g.get? f.name).isSome || !f.accepts value then .error .misuse
  else .ok { g with values := g.values ++ [(f.name, value)] }

/-- There is one argument besides flags at most. -/
def place (g : Given) (c : Command) (operand : String) : Except Refusal Given :=
  if g.operand.isSome || !c.accepts operand then .error .misuse
  else .ok { g with operand := some operand }

/-- Read the arguments behind `--`. -/
def readOperands (c : Command) (g : Given) (args : List String) : Except Refusal Given :=
  args.foldlM (fun g s => g.place c s) g

/-- Read the arguments of a command. -/
def read (c : Command) (g : Given) : List String → Except Refusal Given
  | [] => .ok g
  | s :: rest =>
    match Argument.ofString c.flags s with
    | .flag f (some value) =>
      match g.insert f value with
      | .ok g => read c g rest
      | .error e => .error e
    | .flag f none =>
      match rest with
      | [] => .error .misuse
      | value :: rest =>
        if looksLikeFlag value then .error .misuse
        else
          match g.insert f value with
          | .ok g => read c g rest
          | .error e => .error e
    | .operand s =>
      match g.place c s with
      | .ok g => read c g rest
      | .error e => .error e
    | .stop => readOperands c g rest
    | .help => .error .help
    | .version | .unknown => .error .misuse

/-- The request that the arguments of a command make. -/
def request (g : Given) : Command → Except Refusal Request
  | .classify =>
    match g.operand with
    | none => .error .misuse
    | some page =>
      .ok (.classify page (g.get? "catalog") (g.get? "options") ((g.get? "mode").bind readMode))
  | .score => .ok (.score g.operand)
  | .compile =>
    match g.operand with
    | none => .error .misuse
    | some selector => .ok (.compile selector)
  | .defaults => .ok (.defaults (g.get? "catalog"))

end Given

/-- The word that asks for help instead of a command. -/
def helpWord : String := "help"

/-- Help is asked for in general or for a command. -/
def helpFor : List String → Refusal
  | [] => .help
  | [name] => if name = helpWord ∨ (Command.ofName? name).isSome then .help else .misuse
  | _ => .misuse

namespace Invocation

/-- Read the arguments of a command; a configuration named there counts before the one named in
front of the command. -/
def ofCommand (c : Command) (config : Option String) (args : List String) :
    Except Refusal Invocation := do
  let given ← Given.read c {} args
  return { config := (given.get? configFlag.name).or config, request := ← given.request c }

/-- Read what is left of a command line, up to the command and from there on. -/
def read (config : Option String) : List String → Except Refusal Invocation
  | [] => .error .misuse
  | s :: rest =>
    match Command.ofName? s with
    | some c => ofCommand c config rest
    | none =>
      if s = helpWord then .error (helpFor rest)
      else
        match Argument.ofString [configFlag] s with
        | .flag f (some value) =>
          if config.isSome || !f.accepts value then .error .misuse else read (some value) rest
        | .flag f none =>
          match rest with
          | [] => .error .misuse
          | value :: rest =>
            if config.isSome || looksLikeFlag value || !f.accepts value then .error .misuse
            else read (some value) rest
        | .help => .error .help
        | .version => .error .version
        | .stop | .operand _ | .unknown => .error .misuse

def ofArguments (args : List String) : Except Refusal Invocation := read none args

end Invocation

end NoiseFilter.CommandLine
