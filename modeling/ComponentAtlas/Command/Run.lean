import ComponentAtlas.Command.Arguments
import ComponentAtlas.Command.LogFilter
import ComponentAtlas.Generate.Run
import ComponentAtlas.Report.Table
import ComponentAtlas.Resolve.Summary
import ComponentAtlas.Settings.Load

namespace ComponentAtlas.Command
open Report (Verdict)

-- What a run finds around it. Clock readings and the number of processors are texts to be shown.
structure Session where
  tree : FileTree
  environment : Environment
  clock : String
  elapsed : String
  processors : String

structure Outcome where
  exit : Nat
  -- Lines of the output and of the error output; a line may hold line breaks of its own.
  output : List String
  errors : List String
  tree : FileTree

def misuseStatus : Nat := 2

def versionLine : String := "tscomp 0.1.0"

def usage : List String :=
  [ "Generate component descriptors from TypeScript class hierarchies",
    "",
    "Usage: tscomp [OPTIONS] <COMMAND>",
    "",
    "Commands:",
    "  generate  Generate component descriptors for a package",
    "  resolve   Resolve a class or interface and print its hierarchy as JSON",
    "  config    Display active settings",
    "  help      Print this message or the help of the given subcommand(s)",
    "",
    "Options:",
    "  -c, --config <CONFIG>        Path to custom settings.toml file",
    "      --log-level <LOG_LEVEL>  Log level (error, warn, info, debug, trace); RUST_LOG wins if set",
    "  -h, --help                   Print help",
    "  -V, --version                Print version" ]

-- Switches of the command line go before all other layers.
def GenerateOptions.apply (o : GenerateOptions) (s : Settings) : Settings :=
  { s with
    packageDir := o.package.getD s.packageDir
    sourceDir := o.source.getD s.sourceDir
    outputDir := o.output.getD s.outputDir
    extension := o.extension.getD s.extension
    ignoreFile := o.ignore.getD s.ignoreFile
    threads := (o.threads.map Threads.count).getD s.threads }

def Invocation.apply (i : Invocation) (s : Settings) : Settings :=
  let s := { s with logDefault := i.logLevel.getD s.logDefault }
  match i.task with
  | .generate options => options.apply s
  | _ => s

def Invocation.settings (i : Invocation) (session : Session) : Except String (Settings × List String) :=
  match i.settingsFile with
  | some file =>
    match Settings.loadFrom session.tree session.environment file with
    | .ok s => .ok (i.apply s, [])
    | .error e => .error s!"Configuration error loading from {file.text}: {e.message}"
  | none =>
    match Settings.load session.tree session.environment with
    | .ok s => .ok (i.apply s, [])
    | .error e => .ok (i.apply .defaults, [s!"Configuration error: {e.message}"])

structure Printer where
  session : Session
  filter : LogFilter

def Printer.log (p : Printer) (entries : List LogEntry) : List String :=
  (entries.filter p.filter.shows).map (·.line p.session.clock)

def hintLines (hints : List String) : List String := hints.map ("  " ++ ·)

def failureLines (text : String) (hints : List String) : List String :=
  Verdict.failed.line text :: hintLines hints

def diagnosticEntries (r : GenerateReport) : List LogEntry :=
  r.diagnostics.map fun d => { level := .debug, topic := .command, message := s!"[generate] {d.text}" }

def summaryLine (elapsed : String) (r : GenerateReport) (parsed : Nat) : String :=
  s!"{r.written.length} descriptors for {r.package} in {elapsed} ({parsed} files parsed)"

def reportOutcome (p : Printer) (r : GenerateReport) (w : Work Library) : Outcome :=
  let summary := summaryLine p.session.elapsed r w.state.size
  let log := p.log (w.log ++ diagnosticEntries r)
  let verdict := if r.isSuccess then Verdict.written else .ignored
  let status := if r.isSuccess then ExitStatus.success else .partialFailure
  { exit := status.number
    output := Report.reportTable r ++ [verdict.line summary]
    errors := log ++ r.failed.flatMap fun (name, e) => failureLines s!"{name}: {e.message}" e.hints
    tree := w.state.tree }

def runGenerate (p : Printer) (s : Settings) : Option Outcome := do
  match ← Generate.run s (.start (.ofTree p.session.tree)) with
  | (.ok report, w) => return reportOutcome p report w
  | (.error e, w) =>
    return {
      exit := (ExitStatus.ofGenerate e).number
      output := []
      errors := p.log w.log ++ failureLines s!"Error: {e.message}" e.hints
      tree := w.state.tree }

def Accepted.kinds : Accepted → KindFilter
  | classes => .classes
  | interfaces => .classesAndInterfaces
  | anyKind => .any

def findChain (o : ResolveOptions) (w : Work Library) :
    Option (Except ResolveError (List Lineage) × Work Library) := do
  match ← resolve Library.provider o.accepted.kinds (Reference.of o.name o.file) w with
  | (.ok symbol, w) => loadChain Library.provider symbol w
  | (.error e, w) => return (.error e, w)

def chainJson (chain : List Lineage) (root : Lineage) (diagnostics : List Diagnostic) : JsonValue :=
  .obj
    ([ ("chain", .arr (chain.map (.str ·.symbol.name))),
       ("symbol", root.summary.toJson) ] ++
      JsonValue.nonEmpty "diagnostics" (diagnostics.map Diagnostic.toJson))

def resolveFailure (p : Printer) (e : ResolveError) (diagnostics : List Diagnostic) (w : Work Library) : Outcome :=
  { exit := (ExitStatus.ofResolve e).number
    output := []
    errors := p.log w.log ++ diagnostics.map (·.text) ++ failureLines s!"Error: {e.message}" e.hints
    tree := w.state.tree }

def runResolve (p : Printer) (o : ResolveOptions) : Option Outcome := do
  match ← findChain o (.start (.ofTree p.session.tree)) with
  | (.ok [], w) => return resolveFailure p (.symbolNotFound o.name o.file) [] w
  | (.ok (root :: rest), w) =>
    return {
      exit := ExitStatus.success.number
      output := [(chainJson (root :: rest) root w.diagnostics).pretty]
      errors := p.log w.log
      tree := w.state.tree }
  | (.error e, w) => return resolveFailure p e w.diagnostics w

def runConfig (session : Session) (s : Settings) : Outcome :=
  { exit := ExitStatus.success.number
    output := ["Current Configuration:", Report.fill 50 '=', s.fileText session.processors]
    errors := []
    tree := session.tree }

def runTask (p : Printer) (s : Settings) : Task → Option Outcome
  | .generate _ => runGenerate p s
  | .resolve options => runResolve p options
  | .config => some (runConfig p.session s)

def stopOutcome (session : Session) : Stop → Outcome
  | .misuse => { exit := misuseStatus, output := [], errors := usage, tree := session.tree }
  | .help => { exit := 0, output := usage, errors := [], tree := session.tree }
  | .version => { exit := 0, output := [versionLine], errors := [], tree := session.tree }

def Invocation.run (i : Invocation) (session : Session) : Option Outcome :=
  match i.settings session with
  | .error complaint =>
    some { exit := ExitStatus.configError.number, output := [], errors := [complaint], tree := session.tree }
  | .ok (s, complaints) => do
    let (filter, ignored) := LogFilter.select session.environment s
    let outcome ← runTask { session, filter } s i.task
    return { outcome with errors := complaints ++ ignored ++ outcome.errors }

-- Nothing stands for a run without end.
def run (session : Session) (arguments : List String) : Option Outcome :=
  match readArguments arguments with
  | .ok invocation => invocation.run session
  | .error stop => some (stopOutcome session stop)

end ComponentAtlas.Command
