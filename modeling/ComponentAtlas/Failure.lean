import ComponentAtlas.Path

namespace ComponentAtlas

inductive IoError where
  | notFound
  | notDirectory
  | isDirectory
  | alreadyExists
  | notText
  | other (text : String)
deriving DecidableEq, Repr, Inhabited

def IoError.message : IoError → String
  | notFound => "No such file or directory (os error 2)"
  | notDirectory => "Not a directory (os error 20)"
  | isDirectory => "Is a directory (os error 21)"
  | alreadyExists => "File exists (os error 17)"
  | notText => "stream did not contain valid UTF-8"
  | other text => text

inductive ParseError where
  | readerSetup (reason : String)
  | unreadable (path : Path) (cause : IoError)
  | noSource (path : Path) (tried : Nat)
  | malformed (path : Path) (line column : Nat) (reason : String)
deriving DecidableEq, Repr, Inhabited

def ParseError.message : ParseError → String
  | readerSetup reason => s!"Failed to initialize TypeScript parser: {reason}"
  | unreadable path cause => s!"Failed to read source file '{path.text}': {cause.message}"
  | noSource path tried => s!"No TypeScript source found for '{path.text}' (tried {tried} candidates)"
  | malformed path line column reason =>
    s!"Failed to parse '{path.text}' at line {line}, column {column}: {reason}"

inductive ResolveError where
  | parse (error : ParseError)
  | malformedExport (path : Path) (line column : Nat) (reason : String)
  | symbolNotFound (name : String) (path : Path)
  | unsupportedHeritage (name expression : String) (path : Path) (line column : Nat) (reason : String)
  | cyclicHierarchy (name : String) (path : Path) (chain : List String)
deriving DecidableEq, Repr, Inhabited

namespace ResolveError

def message : ResolveError → String
  | parse error => error.message
  | malformedExport path line column reason =>
    s!"Malformed export in '{path.text}' at line {line}, column {column}: {reason}"
  | symbolNotFound name path => s!"Could not load class or interface '{name}' from '{path.text}'"
  | unsupportedHeritage name expression path line column reason =>
    s!"Unsupported heritage '{expression}' on '{name}' in '{path.text}' at line {line}, column {column}: {reason}"
  | cyclicHierarchy name path chain =>
    s!"Cyclic hierarchy detected at '{name}' in '{path.text}': " ++ " -> ".intercalate chain

def code : ResolveError → String
  | parse (.readerSetup ..) => "PARSER_INIT_ERROR"
  | parse (.unreadable ..) => "FILE_READ_ERROR"
  | parse (.noSource ..) => "FILE_NOT_FOUND"
  | parse (.malformed ..) => "PARSE_ERROR"
  | malformedExport .. => "MALFORMED_EXPORT"
  | symbolNotFound .. => "SYMBOL_NOT_FOUND"
  | unsupportedHeritage .. => "UNSUPPORTED_HERITAGE"
  | cyclicHierarchy .. => "CYCLIC_HIERARCHY"

def hints : ResolveError → List String
  | parse (.malformed ..) =>
    ["Fix the syntax error reported above; the engine never guesses around broken source"]
  | parse (.noSource ..) =>
    [ "Check the module specifier; relative imports resolve from the importing file's directory",
      "Build the package first if only .d.ts files are expected" ]
  | malformedExport .. => ["Give the exported class a name, e.g. 'export default class MyClass'"]
  | symbolNotFound .. =>
    [ "Check that the symbol is exported or imported under this exact name",
      "Re-exports without a source module ('export \x7b A \x7d') are not followed" ]
  | unsupportedHeritage .. =>
    [ "Import the parent directly and extend it by name instead of 'ns.Parent' or an expression",
      "Interfaces may only extend other interfaces here" ]
  | cyclicHierarchy .. => ["Break the inheritance cycle between the listed declarations"]
  | parse _ => []

def isSymbolNotFound : ResolveError → Bool
  | symbolNotFound .. => true
  | _ => false

end ResolveError

inductive GenerateError where
  | resolve (error : ResolveError)
  | packageMetadata (path : Path) (reason : String)
  | ignoreFile (path : Path) (reason : String)
  | unwritable (path : Path) (cause : IoError)
  | workers (reason : String)
  | unprintable (reason : String)
deriving DecidableEq, Repr, Inhabited

namespace GenerateError

def message : GenerateError → String
  | resolve error => error.message
  | packageMetadata path reason => s!"Invalid package metadata in '{path.text}': {reason}"
  | ignoreFile path reason => s!"Invalid ignore file '{path.text}': {reason}"
  | unwritable path cause => s!"Failed to write descriptor '{path.text}': {cause.message}"
  | workers reason => s!"Failed to start generation workers: {reason}"
  | unprintable reason => s!"Failed to serialize descriptor: {reason}"

def code : GenerateError → String
  | resolve error => error.code
  | packageMetadata .. => "PACKAGE_METADATA_ERROR"
  | ignoreFile .. => "IGNORE_FILE_ERROR"
  | unwritable .. => "FILE_WRITE_ERROR"
  | workers .. => "WORKER_POOL_ERROR"
  | unprintable .. => "SERIALIZE_ERROR"

def hints : GenerateError → List String
  | resolve error => error.hints
  | packageMetadata .. =>
    ["Make sure package.json exists in the package directory and has a 'name' field"]
  | ignoreFile .. => ["The ignore file must be a JSON array of class names"]
  | unwritable .. => ["Check permissions and disk space for the output directory"]
  | workers .. => ["Lower generate.parallel_threads in the configuration"]
  | unprintable .. => []

end GenerateError

-- How a run ends, as the calling shell sees it.
inductive ExitStatus where
  | success
  | generalError
  | notFound
  | parseError
  | ioError
  | configError
  | unsupported
  | partialFailure
deriving DecidableEq, Repr, Inhabited

namespace ExitStatus

def number : ExitStatus → Nat
  | success => 0
  | generalError => 1
  | notFound => 3
  | parseError => 4
  | ioError => 5
  | configError => 6
  | unsupported => 8
  | partialFailure => 9

def description : ExitStatus → String
  | success => "Success"
  | generalError => "General error"
  | notFound => "Not found"
  | parseError => "Parse error"
  | ioError => "I/O error"
  | configError => "Configuration error"
  | unsupported => "Unsupported operation"
  | partialFailure => "Some classes failed"

def ofResolve : ResolveError → ExitStatus
  | .symbolNotFound .. => notFound
  | .parse (.noSource ..) => notFound
  | .parse (.malformed ..) => parseError
  | .malformedExport .. => parseError
  | .parse (.unreadable ..) => ioError
  | .unsupportedHeritage .. => unsupported
  | _ => generalError

def ofGenerate : GenerateError → ExitStatus
  | .resolve error => ofResolve error
  | .packageMetadata .. => configError
  | .ignoreFile .. => configError
  | .unwritable .. => ioError
  | _ => generalError

end ExitStatus
end ComponentAtlas
