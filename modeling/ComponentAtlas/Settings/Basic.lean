import ComponentAtlas.Path

namespace ComponentAtlas

-- How many classes are worked on at a time; by default as many as the machine has processors.
inductive Threads where
  | default
  | count (n : Nat)
deriving DecidableEq, Repr, Inhabited

structure Settings where
  version : Nat
  packageDir : Path
  sourceDir : Path
  outputDir : Path
  extension : String
  ignoreFile : Path
  threads : Threads
  logDefault : String
  -- Levels of single topics, in the order of their names.
  logModules : List (String × String)
deriving DecidableEq, Repr

namespace Settings

def defaults : Settings :=
  { version := 1
    packageDir := ⟨"."⟩
    sourceDir := ⟨"lib"⟩
    outputDir := ⟨"components"⟩
    extension := ".jsonld"
    ignoreFile := ⟨".componentsignore"⟩
    threads := .default
    logDefault := "warn"
    logModules := [] }

-- Source, output and ignore file are named relative to the package.
def sourcePath (s : Settings) : Path := s.packageDir.join s.sourceDir

def outputPath (s : Settings) : Path := s.packageDir.join s.outputDir

def ignorePath (s : Settings) : Path := s.packageDir.join s.ignoreFile

end Settings
end ComponentAtlas
