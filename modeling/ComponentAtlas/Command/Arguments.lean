import ComponentAtlas.Path
import ComponentAtlas.Settings.Environment

namespace ComponentAtlas.Command

structure GenerateOptions where
  package : Option Path
  source : Option Path
  output : Option Path
  extension : Option String
  ignore : Option Path
  threads : Option Nat
deriving DecidableEq, Repr

-- Which declarations the command for resolving accepts.
inductive Accepted where
  | classes
  | interfaces
  | anyKind
deriving DecidableEq, Repr

structure ResolveOptions where
  name : String
  file : Path
  accepted : Accepted
deriving DecidableEq, Repr

inductive Task where
  | generate (options : GenerateOptions)
  | resolve (options : ResolveOptions)
  | config
deriving DecidableEq, Repr

structure Invocation where
  settingsFile : Option Path
  logLevel : Option String
  task : Task
deriving DecidableEq, Repr

-- Why no task is run.
inductive Stop where
  | misuse
  | help
  | version
deriving DecidableEq, Repr

structure Switch where
  name : String
  letter : Option Char
  takesValue : Bool
  accepts : String → Bool

def anyText (_ : String) : Bool := true

def someText (value : String) : Bool := !value.isEmpty

def number? (value : String) : Option Nat := Environment.unsigned? value.toList

def flag (name : String) : Switch :=
  { name, letter := none, takesValue := false, accepts := anyText }

def valued (name : String) (letter : Char) (accepts : String → Bool) : Switch :=
  { name, letter := some letter, takesValue := true, accepts }

def sharedSwitches : List Switch :=
  [ valued "config" 'c' someText,
    { name := "log-level", letter := none, takesValue := true, accepts := anyText },
    { name := "help", letter := some 'h', takesValue := false, accepts := anyText } ]

def versionSwitch : Switch :=
  { name := "version", letter := some 'V', takesValue := false, accepts := anyText }

-- What may follow at some place of the command line.
structure Level where
  switches : List Switch
  -- How many plain words are taken.
  operands : Nat

def rootLevel : Level := { switches := versionSwitch :: sharedSwitches, operands := 0 }

def generateLevel : Level :=
  { switches :=
      [ valued "package" 'p' someText, valued "source" 's' someText, valued "output" 'o' someText,
        valued "extension" 'e' anyText, valued "ignore" 'i' someText,
        valued "threads" 't' fun value => (number? value).isSome ] ++ sharedSwitches
    operands := 0 }

def resolveLevel : Level :=
  { switches := [valued "file" 'f' someText, flag "interfaces", flag "any-kind"] ++ sharedSwitches
    operands := 1 }

def configLevel : Level := { switches := sharedSwitches, operands := 0 }

structure Progress where
  -- Switches with their values, newest first.
  given : List (String × String)
  operands : List String
  -- A switch that still waits for its value.
  pending : Option Switch
  -- Whether everything that follows is a plain word.
  wordsOnly : Bool

def Progress.start : Progress := { given := [], operands := [], pending := none, wordsOnly := false }

-- A switch is given once, with a value that suits it.
def Progress.give (p : Progress) (s : Switch) (value : String) : Except Stop Progress :=
  if s.name = "help" then .error .help
  else if s.name = "version" then .error .version
  else if (p.given.lookup s.name).isSome || !s.accepts value then .error .misuse
  else .ok { p with given := (s.name, value) :: p.given, pending := none }

def Progress.operand (level : Level) (p : Progress) (word : String) : Except Stop Progress :=
  if p.operands.length < level.operands then .ok { p with operands := p.operands ++ [word] }
  else .error .misuse

-- A switch by its name, with the value attached by an equals sign.
def Progress.named (level : Level) (p : Progress) (body : List Char) : Except Stop Progress :=
  let name := String.ofList (body.takeWhile (· != '='))
  match level.switches.find? (·.name = name), body.dropWhile (· != '=') with
  | none, _ => .error .misuse
  | some s, [] => if s.takesValue then .ok { p with pending := some s } else p.give s ""
  | some s, _ :: value => if s.takesValue then p.give s (String.ofList value) else .error .misuse

-- Switches by their letters; behind a letter that takes a value stands the value.
def Progress.lettered (level : Level) : List Char → Progress → Except Stop Progress
  | [], p => .ok p
  | c :: rest, p =>
    match level.switches.find? (·.letter = some c) with
    | none => .error .misuse
    | some s =>
      if s.takesValue then
        match rest with
        | [] => .ok { p with pending := some s }
        | '=' :: value => p.give s (String.ofList value)
        | value => p.give s (String.ofList value)
      else
        match p.give s "" with
        | .ok p => Progress.lettered level rest p
        | .error stop => .error stop

-- One argument; a switch in the place of a value is no value.
def Progress.step (level : Level) (p : Progress) (argument : String) : Except Stop Progress :=
  if p.wordsOnly then p.operand level argument
  else
    match argument.toList, p.pending with
    | '-' :: _ :: _, some _ => .error .misuse
    | ['-', '-'], none => .ok { p with wordsOnly := true }
    | '-' :: '-' :: body, none => p.named level body
    | '-' :: c :: rest, none => Progress.lettered level (c :: rest) p
    | _, some s => p.give s argument
    | _, none => p.operand level argument

-- All arguments; a switch without its value is misuse.
def readLevel (level : Level) (arguments : List String) (p : Progress) : Except Stop Progress :=
  match arguments.foldlM (Progress.step level) p with
  | .error stop => .error stop
  | .ok p => if p.pending.isSome then .error .misuse else .ok p

def pathOf (p : Progress) (name : String) : Option Path := (p.given.lookup name).map Path.mk

def generateTask (p : Progress) : Except Stop Task :=
  .ok
    (.generate
      { package := pathOf p "package"
        source := pathOf p "source"
        output := pathOf p "output"
        extension := p.given.lookup "extension"
        ignore := pathOf p "ignore"
        threads := (p.given.lookup "threads").bind number? })

-- A name and a file are needed, and only one way of accepting more than classes.
def resolveTask (p : Progress) : Except Stop Task :=
  let isGiven (name : String) : Bool := (p.given.lookup name).isSome
  match p.operands, pathOf p "file" with
  | [name], some file =>
    if isGiven "interfaces" && isGiven "any-kind" then .error .misuse
    else
      let accepted :=
        if isGiven "any-kind" then Accepted.anyKind
        else if isGiven "interfaces" then .interfaces
        else .classes
      .ok (.resolve { name, file, accepted })
  | _, _ => .error .misuse

-- A command with the arguments behind its name; `root` is what stood before it.
def readTask (level : Level) (task : Progress → Except Stop Task) (arguments : List String)
    (root : Progress) : Except Stop Invocation := do
  let p ← readLevel level arguments .start
  let shared (name : String) : Option String := (p.given.lookup name).or (root.given.lookup name)
  return { settingsFile := (shared "config").map Path.mk, logLevel := shared "log-level", task := ← task p }

def readHelp : List String → Stop
  | [] => .help
  | [name] => if name ∈ ["generate", "resolve", "config", "help"] then .help else .misuse
  | _ => .misuse

def readFrom : List String → Progress → Except Stop Invocation
  | [], _ => .error .misuse
  | argument :: rest, p =>
    let isWord : Bool :=
      match argument.toList with
      | '-' :: _ :: _ => false
      | _ => true
    if isWord && p.pending.isNone && !p.wordsOnly then
      if argument = "generate" then readTask generateLevel generateTask rest p
      else if argument = "resolve" then readTask resolveLevel resolveTask rest p
      else if argument = "config" then readTask configLevel (fun _ => .ok .config) rest p
      else if argument = "help" then .error (readHelp rest)
      else .error .misuse
    else
      match p.step rootLevel argument with
      | .ok p => readFrom rest p
      | .error stop => .error stop

def readArguments (arguments : List String) : Except Stop Invocation :=
  readFrom arguments .start

end ComponentAtlas.Command
