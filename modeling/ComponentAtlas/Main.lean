import ComponentAtlas.Command.Run

namespace ComponentAtlas
open Command

namespace FileTree

def withWay (t : FileTree) (place : Location) : List (List Char) → FileTree × Location
  | [] => (t, place)
  | seg :: rest =>
    let t := if place.isEmpty then t else t.set place .directory
    if seg = [] || seg = ['.'] then t.withWay place rest
    else if seg = ['.', '.'] then t.withWay place.dropLast rest
    else t.withWay (place ++ [String.ofList seg]) rest

def learn (t : FileTree) (p : Path) (entry : Entry) : FileTree :=
  let start := if p.isAbsolute then [] else t.workingDirectory
  let (t, place) := t.withWay start (Path.segments p.text.toList)
  if place.isEmpty then t else t.set place entry

def changesFrom (t old : FileTree) : List (Location × Entry) :=
  t.entries.filter fun (place, entry) => old.entry? place != some entry

end FileTree

def pathOfLocation (place : Location) : Path := ⟨"/" ++ "/".intercalate place⟩

def Index.fileTargets (index : Index) : List Path :=
  let targets := (index.imports.entries ++ index.reexports.entries).map (·.2.target) ++ index.wildcards
  targets.filterMap fun
    | .file path => some path
    | .package _ => none

namespace Main

-- The number of the system error for reading a directory.
def directoryCode : UInt32 := 21

def observe (t : FileTree) (p : Path) : IO FileTree := do
  if p.text.isEmpty then return t
  try
    let bytes ← IO.FS.readBinFile p.text
    let content := match String.fromUTF8? bytes with
      | some text => Content.text text
      | none => .binary
    return t.learn p (.file content)
  catch e =>
    match e with
    | .inappropriateType _ code _ => return if code = directoryCode then t.learn p .directory else t
    | _ => return t

-- Reads the sources that can be reached from some module paths.
partial def gather (t : FileTree) (seen : List String) : List Path → IO FileTree
  | [] => return t
  | p :: rest => do
    if p.text ∈ seen then gather t seen rest
    else
      let mut t := t
      for candidate in sourceCandidates p do
        t ← observe t candidate
      let next :=
        match (t.findSource p).bind t.outlineAt with
        | .ok file =>
          match Index.ofFile file with
          | .ok index => index.fileTargets
          | .error _ => []
        | .error _ => []
      gather t (p.text :: seen) (next ++ rest)

def gatherSettings (t : FileTree) (named : Option Path) : IO FileTree := do
  let mut t := t
  for place in Settings.ancestors t.workingDirectory do
    let folder := pathOfLocation (place ++ [Settings.folderName])
    t ← observe t folder
    t ← observe t (folder.joinText Settings.fileName)
    if let some file := named then
      t ← observe t ((pathOfLocation place).join file)
  return t

def gatherPackage (t : FileTree) (s : Settings) : IO FileTree := do
  let t ← observe t (Package.metadataPath s.packageDir)
  let t ← observe t s.ignorePath
  let t ← observe t s.packageDir
  let t ← observe t s.outputPath
  match Package.load t s.packageDir with
  | .ok package => gather t [] (package.entryCandidates s.sourceDir)
  | .error _ => return t

def gatherFor (session : Session) (i : Invocation) : IO FileTree := do
  let t ← gatherSettings session.tree i.settingsFile
  match i.settings { session with tree := t }, i.task with
  | .ok (s, _), .generate _ => gatherPackage t s
  | .ok _, .resolve options => gather t [] [options.file]
  | _, _ => return t

def readEnvironment : IO Environment := do
  let bytes ← try IO.FS.readBinFile "/proc/self/environ" catch _ => pure ByteArray.empty
  let text := (String.fromUTF8? bytes).getD ""
  return (text.splitOn "\x00").filterMap fun entry =>
    match entry.splitOn "=" with
    | name :: first :: more => some (name, "=".intercalate (first :: more))
    | _ => none

def countProcessors : IO Nat := do
  let text ← try IO.FS.readFile "/proc/cpuinfo" catch _ => pure ""
  return max 1 ((text.splitOn "\n").countP (·.startsWith "processor"))

def writeBack (old new : FileTree) : IO Unit := do
  for (place, entry) in (new.changesFrom old).reverse do
    match entry with
    | .directory => IO.FS.createDirAll (pathOfLocation place).text
    | .file (.text text) => do
      IO.FS.createDirAll (pathOfLocation place.dropLast).text
      IO.FS.writeFile (pathOfLocation place).text text
    | .file .binary => pure ()

def locationOf (directory : String) : Location :=
  (directory.splitOn "/").filter (!·.isEmpty)

def twoPlaces (n : Nat) : String := String.ofList (Text.padLeft 2 '0' (Nat.toDigits 10 n))

def clockText (ms : Nat) : String :=
  let thousandths := String.ofList (Text.padLeft 3 '0' (Nat.toDigits 10 (ms % 1000)))
  s!"{twoPlaces (ms / 3600000)}:{twoPlaces (ms / 60000 % 60)}:{twoPlaces (ms / 1000 % 60)}.{thousandths}"

def start (arguments : List String) : IO UInt32 := do
  let begun ← IO.monoMsNow
  let directory := toString (← IO.currentDir)
  let session : Session :=
    { tree := FileTree.empty (locationOf directory)
      environment := ← readEnvironment
      clock := clockText 0
      elapsed := "0ms"
      processors := toString (← countProcessors) }
  let tree ←
    match readArguments arguments with
    | .ok invocation => gatherFor session invocation
    | .error _ => pure session.tree
  let spent := (← IO.monoMsNow) - begun
  let session := { session with tree, clock := clockText spent, elapsed := s!"{spent}ms" }
  -- A run without end never gets past this line.
  let some outcome := run session arguments | return UInt32.ofNat misuseStatus
  writeBack tree outcome.tree
  for line in outcome.errors do
    IO.eprintln line
  for line in outcome.output do
    IO.println line
  return UInt32.ofNat outcome.exit

end Main
end ComponentAtlas

def main (arguments : List String) : IO UInt32 :=
  ComponentAtlas.Main.start arguments
