import CodeAtlas.Text.Words

/-!
Reading the command line.  A command takes switches, options with a value, and maybe one path; two
switches are known everywhere.  A value is looked at when the next argument begins, so of two faults
the one that stands first is reported, except that an unknown argument comes before the value in front
of it.
-/

namespace CodeAtlas.CommandLine

/-- Why arguments are refused, or a text is shown in place of running a command. -/
inductive UsageFault where
  | help
  | version
  /-- There are no arguments at all. -/
  | helpForNothing
  | missingCommand
  | unknownCommand
  | unknownArgument
  /-- A path is missing. -/
  | missingArgument
  /-- An option has no value, or a path is empty. -/
  | missingValue
  /-- A value is no number. -/
  | invalidValue
  /-- A switch has a value. -/
  | needlessValue
  /-- Two arguments exclude each other, or one is repeated. -/
  | conflict
deriving DecidableEq, Repr, Inhabited

namespace UsageFault

/-- How commands are given. -/
def usage : String :=
  "Usage: codestruct [-v | -q] scan ROOT [-c FILE] [-o FILE] [-w COUNT] [--upload] [--upload-url URL] [--learning-dir DIR]\n" ++
    "       codestruct [-v | -q] languages\n" ++
    "       codestruct [-v | -q] outline FILE"

def message : UsageFault → String
  | .help | .helpForNothing => usage
  | .version => "codestruct 0.1.0"
  | .missingCommand => "error: a command is missing\n" ++ usage
  | .unknownCommand => "error: there is no such command\n" ++ usage
  | .unknownArgument => "error: there is no such argument\n" ++ usage
  | .missingArgument => "error: a path is missing\n" ++ usage
  | .missingValue => "error: a value is missing\n" ++ usage
  | .invalidValue => "error: a value is not a number\n" ++ usage
  | .needlessValue => "error: a switch takes no value\n" ++ usage
  | .conflict => "error: arguments exclude each other\n" ++ usage

/-- Whether a text was asked for, which is no failure. -/
def isShown : UsageFault → Bool
  | .help | .version => true
  | _ => false

end UsageFault

inductive Switch where
  | verbose
  | quiet
  | help
  | version
  | upload
deriving DecidableEq, Repr, Inhabited

def Switch.long : Switch → String
  | .verbose => "verbose"
  | .quiet => "quiet"
  | .help => "help"
  | .version => "version"
  | .upload => "upload"

def Switch.short? : Switch → Option Char
  | .verbose => some 'v'
  | .quiet => some 'q'
  | .help => some 'h'
  | .version => some 'V'
  | .upload => none

/-- An option with a value. -/
inductive Setting where
  | config
  | output
  | uploadUrl
  | workers
  | learningDir
deriving DecidableEq, Repr, Inhabited

def Setting.long : Setting → String
  | .config => "config"
  | .output => "output"
  | .uploadUrl => "upload-url"
  | .workers => "workers"
  | .learningDir => "learning-dir"

def Setting.short? : Setting → Option Char
  | .config => some 'c'
  | .output => some 'o'
  | .workers => some 'w'
  | _ => none

/-- A natural number of 64 bits, with a plus sign or without. -/
def count? (s : String) : Option Nat :=
  let cs := s.toList
  let digits := if cs.head? == some '+' then cs.tail else cs
  if digits.isEmpty || !digits.all Char.isDigit then none
  else
    let n := digits.foldl (fun n d => n * 10 + (d.toNat - 48)) 0
    if n < UInt64.size then some n else none

def Setting.fault? (s : Setting) (value : String) : Option UsageFault :=
  match s with
  | .uploadUrl => none
  | .workers => if (count? value).isSome then none else some .invalidValue
  | _ => if value.isEmpty then some .missingValue else none

/-- The commands, and the level above them. -/
inductive Level where
  | top
  | scan
  | languages
  | outline
deriving DecidableEq, Repr, Inhabited

namespace Level

def ofName? (name : String) : Option Level :=
  match name with
  | "scan" => some .scan
  | "languages" => some .languages
  | "outline" => some .outline
  | _ => none

def switches : Level → List Switch
  | .top => [.verbose, .quiet, .help, .version]
  | .scan => [.verbose, .quiet, .help, .upload]
  | _ => [.verbose, .quiet, .help]

def settings : Level → List Setting
  | .scan => [.config, .output, .uploadUrl, .workers, .learningDir]
  | _ => []

def takesPath : Level → Bool
  | .scan | .outline => true
  | _ => false

end Level

/-! ## One level -/

/-- What waits for a value or to be looked at: an option or the path. -/
inductive Slot where
  | setting (s : Setting)
  | path
deriving DecidableEq, Repr

/-- The arguments of one level so far. -/
structure Given where
  switches : List Switch := []
  values : List (Setting × String) := []
  path : Option String := none
  /-- The last option or path with its value, which is not looked at yet. -/
  pending : Option (Slot × Option String) := none
deriving Repr

namespace Given

/-- Takes an option or a path with its value. -/
def accept (g : Given) : Slot → Option String → Except UsageFault Given
  | _, none => .error .missingValue
  | .path, some value => if value.isEmpty then .error .missingValue else .ok { g with path := value }
  | .setting s, some value =>
    if g.values.any (fun v => v.1 == s) then .error .conflict
    else
      match s.fault? value with
      | some f => .error f
      | none => .ok { g with values := g.values ++ [(s, value)] }

/-- Looks at what is pending. -/
def settle (g : Given) : Except UsageFault Given :=
  match g.pending with
  | none => .ok g
  | some (slot, value) => { g with pending := none }.accept slot value

/-- Takes a switch; some of them end the reading. -/
def turn (g : Given) (s : Switch) : Except UsageFault Given := do
  let g ← g.settle
  match s with
  | .help => throw .help
  | .version => throw .version
  | s => if g.switches.contains s then throw .conflict else return { g with switches := s :: g.switches }

/-- Takes an option with a value that is attached to it. -/
def attach (g : Given) (s : Setting) (value : String) : Except UsageFault Given := do
  (← g.settle).accept (.setting s) (some value)

/-- Takes an option whose value is the next argument. -/
def await (g : Given) (s : Setting) : Except UsageFault Given := do
  return { (← g.settle) with pending := some (.setting s, none) }

def value? (g : Given) (s : Setting) : Option String :=
  (g.values.find? (fun v => v.1 == s)).map (·.2)

end Given

/-- An argument that starts with two hyphens. -/
def readLong (level : Level) (body : List Char) (g : Given) : Except UsageFault Given :=
  let name := String.ofList (body.takeWhile (· != '='))
  let value := match body.dropWhile (· != '=') with
    | _ :: rest => some (String.ofList rest)
    | [] => none
  match level.settings.find? (fun s => s.long == name), level.switches.find? (fun s => s.long == name) with
  | some s, _ =>
    match value with
    | some v => g.attach s v
    | none => g.await s
  | none, some s =>
    match value with
    | some _ => .error .needlessValue
    | none => g.turn s
  | none, none => .error .unknownArgument

/-- The letters after one hyphen; an option takes the letters that follow it as its value. -/
def readShort (level : Level) : List Char → Given → Except UsageFault Given
  | [], g => .ok g
  | c :: rest, g =>
    match level.switches.find? (fun s => s.short? == some c) with
    | some s => do readShort level rest (← g.turn s)
    | none =>
      match level.settings.find? (fun s => s.short? == some c) with
      | some s =>
        match rest with
        | [] => g.await s
        | '=' :: value => g.attach s (String.ofList value)
        | value => g.attach s (String.ofList value)
      | none => .error .unknownArgument

/-- An argument that stands for itself: a path where one is wanted. -/
def readPlain (level : Level) (trailing : Bool) (arg : String) (g : Given) : Except UsageFault Given := do
  let taken := g.path.isSome || g.pending.any (fun p => p.1 == .path)
  if level.takesPath && !taken then return { (← g.settle) with pending := some (.path, some arg) }
  if level = .top && !(trailing && (arg == "help" || (Level.ofName? arg).isSome)) then
    throw .unknownCommand
  throw .unknownArgument

/-- Help on a command; only the name of a command may follow. -/
def helpOn : List String → UsageFault
  | [] => .help
  | [name] => if name == "help" || (Level.ofName? name).isSome then .help else .unknownCommand
  | _ => .unknownCommand

/-- Reads the arguments of a level, up to the name of a command at the top. -/
def readLevel (level : Level) :
    List String → Bool → Given → Except UsageFault (Given × Option (Level × List String))
  | [], _, g => do return (← g.settle, none)
  | arg :: rest, trailing, g =>
    if trailing then do readLevel level rest true (← readPlain level true arg g)
    else if level = .top && arg == "help" then .error (helpOn rest)
    else
      match (if level = .top then Level.ofName? arg else none) with
      | some command => .ok (g, some (command, rest))
      | none =>
        match arg.toList with
        | ['-', '-'] => readLevel level rest true g
        | '-' :: '-' :: body => do readLevel level rest false (← readLong level body g)
        | '-' :: c :: more => do readLevel level rest false (← readShort level (c :: more) g)
        | _ =>
          match g.pending with
          | some (slot, none) => readLevel level rest false { g with pending := some (slot, some arg) }
          | _ => do readLevel level rest false (← readPlain level false arg g)

/-- Refuses switches that exclude each other. -/
def checkSwitches (g : Given) : Except UsageFault Unit :=
  if g.switches.contains .verbose && g.switches.contains .quiet then .error .conflict else .ok ()

/-! ## The whole line -/

structure ScanArguments where
  root : String
  config : Option String
  output : Option String
  upload : Bool
  uploadUrl : Option String
  workers : Option Nat
  learningDir : Option String
deriving DecidableEq, Repr, Inhabited

inductive Command where
  | scan (arguments : ScanArguments)
  | languages
  | outline (file : String)
deriving DecidableEq, Repr, Inhabited

structure Invocation where
  verbose : Bool
  quiet : Bool
  command : Command
deriving DecidableEq, Repr, Inhabited

/-- The command that a level's arguments make. -/
def commandOf (level : Level) (g : Given) : Except UsageFault Command :=
  match level, g.path with
  | .languages, _ => .ok .languages
  | .outline, some file => .ok (.outline file)
  | .scan, some root =>
    .ok (.scan {
      root := root
      config := g.value? .config
      output := g.value? .output
      upload := g.switches.contains .upload
      uploadUrl := g.value? .uploadUrl
      workers := (g.value? .workers).bind count?
      learningDir := g.value? .learningDir })
  | _, _ => .error .missingArgument

def read (args : List String) : Except UsageFault Invocation := do
  match (← readLevel .top args false {}) with
  | (top, some (level, rest)) =>
    let (g, _) ← readLevel level rest false {}
    checkSwitches g
    let command ← commandOf level g
    checkSwitches top
    let has (s : Switch) : Bool := top.switches.contains s || g.switches.contains s
    return ⟨has .verbose, has .quiet, command⟩
  | (top, none) =>
    if top.switches.isEmpty then throw .helpForNothing else throw .missingCommand

end CodeAtlas.CommandLine
