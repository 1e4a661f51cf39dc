import ComponentAtlas.Diagnostic
import ComponentAtlas.Index
import ComponentAtlas.Symbol

namespace ComponentAtlas
open Outline

structure Loaded (σ : Type) where
  result : Except ParseError SourceFile
  state : σ
  log : List LogEntry

structure Provider (σ : Type) where
  load : Path → σ → Loaded σ

structure Work (σ : Type) where
  state : σ
  diagnostics : List Diagnostic
  log : List LogEntry

namespace Work

variable {σ : Type}

def start (state : σ) : Work σ :=
  { state, diagnostics := [], log := [] }

def say (w : Work σ) (level : LogLevel) (topic : LogTopic) (message : String) : Work σ :=
  { w with log := w.log ++ [{ level, topic, message }] }

def report (w : Work σ) (kind : DiagnosticKind) (path : Path) (message : String) : Work σ :=
  let d : Diagnostic := { kind, path, range := none, message }
  { w with diagnostics := w.diagnostics ++ [d] }.say .debug .diagnostics s!"[resolve] {d.text}"

def openFile (p : Provider σ) (path : Path) (w : Work σ) :
    Except ResolveError (SourceFile × Index) × Work σ :=
  let answer := p.load path w.state
  let w := { w with state := answer.state, log := w.log ++ answer.log }
  match answer.result with
  | .error e => (.error (.parse e), w)
  | .ok file =>
    match Index.ofFile file with
    | .error e => (.error e, w)
    | .ok index => (.ok (file, index), w)

end Work
end ComponentAtlas
