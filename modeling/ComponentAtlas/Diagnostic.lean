import ComponentAtlas.Path
import ComponentAtlas.Source.Range

namespace ComponentAtlas

inductive DiagnosticKind where
  | suppressedWildcardTarget
  | packageTarget
  | revisitedReference
  | unfollowedExport
deriving DecidableEq, Repr, Inhabited

def DiagnosticKind.label : DiagnosticKind → String
  | suppressedWildcardTarget => "suppressed_wildcard_target"
  | packageTarget => "package_target"
  | revisitedReference => "revisited_reference"
  | unfollowedExport => "unfollowed_export"

structure Diagnostic where
  kind : DiagnosticKind
  path : Path
  range : Option Source.Range
  message : String
deriving DecidableEq, Repr, Inhabited

def Diagnostic.text (d : Diagnostic) : String :=
  match d.range with
  | some r => s!"{d.path.text}:{r.line}:{r.column}: {d.message}"
  | none => s!"{d.path.text}: {d.message}"

inductive LogLevel where
  | error
  | warn
  | info
  | debug
  | trace
deriving DecidableEq, Repr, Inhabited

inductive LogTopic where
  | parsing
  | resolver
  | diagnostics
  | hierarchy
  | exports
  | generate
  | package
  | ignore
  | command
deriving DecidableEq, Repr, Inhabited

structure LogEntry where
  level : LogLevel
  topic : LogTopic
  message : String
deriving DecidableEq, Repr, Inhabited

end ComponentAtlas
