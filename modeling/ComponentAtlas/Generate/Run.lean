import ComponentAtlas.Generate.Descriptor
import ComponentAtlas.Generate.IgnoreList
import ComponentAtlas.Generate.Package
import ComponentAtlas.Library
import ComponentAtlas.Settings.Basic

namespace ComponentAtlas

structure GenerateReport where
  package : String
  entry : Path
  written : List (String × Path)
  ignored : List String
  failed : List (String × GenerateError)
  diagnostics : List Diagnostic

def GenerateReport.isSuccess (r : GenerateReport) : Bool := r.failed.isEmpty

namespace Generate

abbrev Result (α : Type) := Except GenerateError α × Work Library

-- As with searches, nothing stands for a run without end.

def findEntry (t : FileTree) (p : Package) (sourceDir : Path) : Except GenerateError Path :=
  let candidates := p.entryCandidates sourceDir
  match candidates.findSome? fun c => (t.findSource c).toOption with
  | some found => .ok found
  | none =>
    let first := candidates.head?.getD (p.root.joinText "index")
    .error (.resolve (.parse (.noSource first candidates.length)))

structure Plan where
  package : Package
  entry : Path
  exports : ExportList
  outputDir : Path
  extension : String

def Plan.fileFor (plan : Plan) (name : String) : Path :=
  plan.outputDir.joinText (name ++ plan.extension)

def describe (plan : Plan) (name : String) (w : Work Library) : Option (Result Descriptor) := do
  let reference := { Reference.of name plan.entry with package := some plan.package.name }
  match ← resolve Library.provider .classes reference w with
  | (.error e, w) => return (.error (.resolve e), w)
  | (.ok symbol, w) =>
    match ← loadLineage Library.provider symbol w with
    | (.error e, w) => return (.error (.resolve e), w)
    | (.ok lineage, w) =>
      match Descriptor.ofLineage? plan.package.name name lineage plan.exports with
      | none => return (.error (.resolve (.symbolNotFound name plan.entry)), w)
      | some descriptor => return (.ok descriptor, w)

def writeDescriptor (path : Path) (descriptor : Descriptor) (w : Work Library) : Result Path :=
  match w.state.tree.write path (.text descriptor.toJson.pretty) with
  | .error cause => (.error (.unwritable path cause), w)
  | .ok tree =>
    (.ok path,
      { w with state := { w.state with tree } }.say .debug .generate s!"[generate] wrote {path.text}")

def generateClass (plan : Plan) (name : String) (w : Work Library) : Option (Result Path) := do
  match ← describe plan name w with
  | (.error e, w) => return (.error e, w)
  | (.ok descriptor, w) => return writeDescriptor (plan.fileFor name) descriptor w

structure Outcome where
  name : String
  result : Except GenerateError Path
  diagnostics : List Diagnostic

def generateAll (plan : Plan) : List String → Work Library → Option (List Outcome × Work Library)
  | [], w => some ([], w)
  | name :: rest, w => do
    let (result, done) ← generateClass plan name { w with diagnostics := [] }
    let (outcomes, w) ← generateAll plan rest { done with diagnostics := w.diagnostics }
    return ({ name, result, diagnostics := done.diagnostics } :: outcomes, w)

def skipFailedExport (ignore : IgnoreList) (r : GenerateReport) (w : Work Library)
    (name : String) (e : ResolveError) : GenerateReport × Work Library :=
  if ignore.contains name then ({ r with ignored := r.ignored ++ [name] }, w)
  else
    ({ r with failed := r.failed ++ [(name, .resolve e)] },
      w.say .warn .generate s!"[generate] skipping export '{name}': {e.message}")

def addOutcome (r : GenerateReport) (w : Work Library) (o : Outcome) : GenerateReport × Work Library :=
  let r := { r with diagnostics := r.diagnostics ++ o.diagnostics }
  match o.result with
  | .ok path => ({ r with written := r.written ++ [(o.name, path)] }, w)
  | .error e =>
    ({ r with failed := r.failed ++ [(o.name, e)] },
      w.say .warn .generate s!"[generate] skipping class '{o.name}': {e.message}")

-- Failed re-exports come before the classes, both in the order they were found.
def assemble (plan : Plan) (ignore : IgnoreList) (ignored : List String) (outcomes : List Outcome)
    (w : Work Library) : GenerateReport × Work Library :=
  let r : GenerateReport :=
    { package := plan.package.name
      entry := plan.entry
      written := []
      ignored
      failed := []
      diagnostics := w.diagnostics }
  let (r, w) := plan.exports.failed.foldl
    (fun (r, w) (name, e) => skipFailedExport ignore r w name e) (r, w)
  outcomes.foldl (fun (r, w) o => addOutcome r w o) (r, w)

def carryOut (plan : Plan) (ignore : IgnoreList) (w : Work Library) : Option (Result GenerateReport) :=
  let names := plan.exports.classes.keys
  let ignored := names.filter ignore.contains
  let selected := names.filter (!ignore.contains ·)
  match w.state.tree.createDirectories plan.outputDir with
  | .error cause => some (.error (.unwritable plan.outputDir cause), w)
  | .ok tree => do
    let (outcomes, w) ← generateAll plan selected { w with state := { w.state with tree } }
    let (report, w) := assemble plan ignore ignored outcomes w
    return (.ok report, w)

def run (settings : Settings) (w : Work Library) : Option (Result GenerateReport) :=
  match Package.load w.state.tree settings.packageDir with
  | .error e => some (.error e, w)
  | .ok package =>
    let w := { w with log := w.log ++ [package.loadedEntry] }
    match IgnoreList.load w.state.tree settings.ignorePath with
    | (.error e, _) => some (.error e, w)
    | (.ok ignore, log) =>
      let w := { w with log := w.log ++ log }
      match findEntry w.state.tree package settings.sourceDir with
      | .error e => some (.error e, w)
      | .ok entry => do
        match ← exportedClasses Library.provider entry w with
        | (.error e, w) => return (.error (.resolve e), w)
        | (.ok exports, w) =>
          let w := w.say .info .generate
            s!"[generate] {package.name} exports {exports.classes.size} classes from {entry.text}"
          carryOut
            { package, entry, exports, outputDir := settings.outputPath, extension := settings.extension }
            ignore w

end Generate
end ComponentAtlas
