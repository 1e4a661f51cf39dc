import ComponentAtlas.FileTree
import ComponentAtlas.Settings.Decode
import ComponentAtlas.Settings.Environment
import ComponentAtlas.Toml.Writer

namespace ComponentAtlas
namespace Settings

def folderName : String := ".tscomp"

def fileName : String := "settings.toml"

-- A place and the places above it, nearest first.
def ancestors (place : Location) : List Location :=
  ((List.range (place.length + 1)).map place.take).reverse

-- The file a path names. A relative path is tried in the working directory and then in those above.
def findFile (t : FileTree) (p : Path) : Option Location :=
  let file? (place : Location) : Option Location :=
    match { t with workingDirectory := place }.locate p with
    | .ok found =>
      match t.entry? found with
      | some (.file _) => some found
      | _ => none
    | .error _ => none
  if p.isAbsolute then file? [] else (ancestors t.workingDirectory).findSome? file?

-- The settings folder of the nearest directory that has one.
def findFolder (t : FileTree) : Option Location :=
  ((ancestors t.workingDirectory).map (· ++ [folderName])).find? fun place =>
    t.entry? place = some .directory

-- The file in the nearest settings folder, whether there is one or not.
def findWorkspaceFile (t : FileTree) : Option Location :=
  match findFolder t with
  | some folder =>
    let place := folder ++ [fileName]
    match t.entry? place with
    | some (.file _) => some place
    | _ => none
  | none => findFile t ((Path.mk folderName).joinText fileName)

-- The layer that a file holds; without a file it is empty.
def fileLayer (t : FileTree) (place : Option Location) : Except SettingsError Setting :=
  match place.bind t.entry? with
  | some (.file (.text text)) =>
    match Toml.read? text with
    | some entries => .ok (.group (Setting.ofEntries entries))
    | none => .error .unreadable
  | some (.file .binary) => .error .unreadable
  | _ => .ok (.group [])

def ofLayers (layers : List Setting) : Except SettingsError Settings :=
  match layers.foldl Setting.overlay (.group []) with
  | .group root => decode root
  | _ => .ok defaults

def loadAt (t : FileTree) (env : Environment) (place : Option Location) : Except SettingsError Settings :=
  match fileLayer t place with
  | .error e => .error e
  | .ok file => ofLayers [file, Environment.layer env]

def loadFrom (t : FileTree) (env : Environment) (p : Path) : Except SettingsError Settings :=
  loadAt t env (findFile t p)

def load (t : FileTree) (env : Environment) : Except SettingsError Settings :=
  loadAt t env (findWorkspaceFile t)

open Toml (entryLine quotedText)

def lines (s : Settings) (processors : String) : List String :=
  let threads :=
    match s.threads with
    | .default => processors
    | .count n => toString n
  [ entryLine "version" (toString s.version),
    entryLine "package_dir" (quotedText s.packageDir.text),
    "",
    "[generate]",
    entryLine "source_dir" (quotedText s.sourceDir.text),
    entryLine "output_dir" (quotedText s.outputDir.text),
    entryLine "extension" (quotedText s.extension),
    entryLine "ignore_file" (quotedText s.ignoreFile.text),
    entryLine "parallel_threads" threads,
    "",
    "[logging]",
    entryLine "default" (quotedText s.logDefault),
    "",
    "[logging.modules]" ] ++
    s.logModules.map fun (name, level) => entryLine name (quotedText level)

def fileText (s : Settings) (processors : String) : String :=
  String.join ((s.lines processors).map (· ++ "\n"))

inductive SaveError where
  -- The path has no directory it could be in.
  | noParent
  | io (cause : IoError)

def SaveError.message : SaveError → String
  | noParent => "Invalid path"
  | io cause => cause.message

def save (s : Settings) (processors : String) (t : FileTree) (p : Path) : Except SaveError FileTree :=
  match p.parent? with
  | none => .error .noParent
  | some dir =>
    match t.createDirectories dir with
    | .error e => .error (.io e)
    | .ok t =>
      match t.write p (.text (s.fileText processors)) with
      | .error e => .error (.io e)
      | .ok t => .ok t

end Settings
end ComponentAtlas
