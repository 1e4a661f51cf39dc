import ComponentAtlas.Diagnostic
import ComponentAtlas.Settings.Basic
import ComponentAtlas.Settings.Environment

namespace ComponentAtlas
namespace LogLevel

def rank : LogLevel → Nat
  | error => 1
  | warn => 2
  | info => 3
  | debug => 4
  | trace => 5

def label : LogLevel → String
  | error => "ERROR"
  | warn => "WARN"
  | info => "INFO"
  | debug => "DEBUG"
  | trace => "TRACE"

end LogLevel

def LogTopic.target : LogTopic → String
  | parsing => "tscomp::parsing::cache"
  | resolver => "tscomp::resolution::resolver"
  | diagnostics => "tscomp::resolution::diagnostics"
  | hierarchy => "tscomp::resolution::hierarchy"
  | exports => "tscomp::resolution::exports"
  | generate => "tscomp::generate"
  | package => "tscomp::generate::package"
  | ignore => "tscomp::generate::ignore"
  | command => "tscomp"

-- A log line; levels are aligned to the right.
def LogEntry.line (clock : String) (e : LogEntry) : String :=
  let level := String.ofList (Text.padLeft 5 ' ' e.level.label.toList)
  s!"{clock} {level} {e.topic.target}: {e.message}"

structure Directive where
  target : Option String
  -- The highest rank that is shown; zero shows nothing.
  limit : Nat
deriving DecidableEq, Repr

-- Directives about spans are understood and match nothing.
inductive DirectiveForm where
  | plain (directive : Directive)
  | span
deriving DecidableEq, Repr

namespace Directive

inductive Fault where
  | malformed
  | level
deriving DecidableEq, Repr

def Fault.message : Fault → String
  | malformed => "invalid filter directive"
  | level =>
    "error parsing level filter: expected one of \"off\", \"error\", \"warn\", \"info\", \"debug\", " ++
      "\"trace\", or a number 0-5"

def levelNames : List String := ["off", "error", "warn", "info", "debug", "trace"]

def limit? (text : String) : Option Nat :=
  match Environment.unsigned? text.toList with
  | some n => if n ≤ 5 then some n else none
  | none =>
    let lower := String.ofList (text.toList.map Char.toLower)
    levelNames.findIdx? (· = lower)

def traceLimit : Nat := 5

def startsWell (c : Char) : Bool :=
  c = '-' || c = ':' || c = '_' || c.isAlphanum || '\x7f' < c

-- A level, a target, or both with an equals sign between; a target alone shows all.
def parse (text : String) : Except Fault DirectiveForm :=
  let cs := Text.trim text.toList
  match cs with
  | [] => .error .malformed
  | '[' :: rest => if ']' ∈ rest then .ok .span else .error .malformed
  | c :: _ =>
    if !startsWell c then .error .malformed
    else
      let head := cs.takeWhile fun c => c != '=' && c != '['
      match cs.dropWhile fun c => c != '=' && c != '[' with
      | [] =>
        let word := String.ofList head
        match limit? word with
        | some limit => .ok (.plain { target := none, limit })
        | none => .ok (.plain { target := some word, limit := traceLimit })
      | '=' :: level =>
        let target := some (String.ofList head)
        if level.isEmpty then .ok (.plain { target, limit := traceLimit })
        else
          match limit? (String.ofList level) with
          | some limit => .ok (.plain { target, limit })
          | none => .error .level
      | _ :: rest => if ']' ∈ rest then .ok .span else .error .malformed

def covers (d : Directive) (target : String) : Bool :=
  match d.target with
  | none => true
  | some start => start.toList.isPrefixOf target.toList

def weight (d : Directive) : Nat :=
  match d.target with
  | none => 0
  | some start => start.utf8ByteSize + 1

end Directive

structure LogFilter where
  directives : List Directive
deriving Repr

namespace LogFilter

-- What the directives for an entry say; of those equally specific the last one.
def deciding? (f : LogFilter) (target : String) : Option Directive :=
  (f.directives.filter (·.covers target)).foldl (fun best d =>
    match best with
    | some b => if b.weight ≤ d.weight then some d else some b
    | none => some d) none

def shows (f : LogFilter) (e : LogEntry) : Bool :=
  match f.deciding? e.topic.target with
  | some d => e.level.rank ≤ d.limit
  | none => false

-- A filter without directives shows errors only.
def ofForms (forms : List DirectiveForm) : LogFilter :=
  if forms.isEmpty then ⟨[{ target := none, limit := LogLevel.error.rank }]⟩
  else
    ⟨forms.filterMap fun form =>
      match form with
      | .plain d => some d
      | .span => none⟩

def complaint (text : String) (fault : Directive.Fault) : String :=
  s!"ignoring \x60{text}\x60: {fault.message}"

def ofText (text : String) : LogFilter × List String :=
  let parsed := ((text.splitOn ",").filter (!·.isEmpty)).map fun part => (part, Directive.parse part)
  let forms := parsed.filterMap fun (_, result) => result.toOption
  let complaints := parsed.filterMap fun (part, result) =>
    match result with
    | .ok _ => none
    | .error fault => some (complaint part fault)
  (ofForms forms, complaints)

def textOf (s : Settings) : String :=
  s.logDefault ++ String.join (s.logModules.map fun (name, level) => s!",{name}={level}")

-- A variable of the environment goes before the settings.
def select (env : Environment) (s : Settings) : LogFilter × List String :=
  ofText ((env.lookup "RUST_LOG").getD (textOf s))

end LogFilter
end ComponentAtlas
