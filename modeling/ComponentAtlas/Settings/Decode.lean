import ComponentAtlas.Settings.Basic
import ComponentAtlas.Settings.Setting

namespace ComponentAtlas

inductive Mismatch where
  | wrongType (found : Setting) (expected : String)
  | wrongValue (found : Setting) (expected : String)

def Mismatch.message : Mismatch → String
  | wrongType found expected => s!"invalid type: found {found.shown}, expected {expected}"
  | wrongValue found expected => s!"invalid value {found.shown}, expected {expected}"

inductive SettingsError where
  | unreadable
  | mismatch (key : List String) (cause : Mismatch)

namespace SettingsError

def key : SettingsError → String
  | unreadable => ""
  | mismatch key _ => ".".intercalate key

def message : SettingsError → String
  | unreadable => "the settings file cannot be read"
  | mismatch key cause => cause.message ++ " for key " ++ Text.shown (".".intercalate key)

-- The same error seen from one level up.
def within (name : String) : SettingsError → SettingsError
  | unreadable => unreadable
  | mismatch key cause => mismatch (name :: key) cause

end SettingsError

abbrev Decoder (α : Type) := Setting → Except SettingsError α

namespace Decoder

def wrongType {α : Type} (found : Setting) (expected : String) : Except SettingsError α :=
  .error (.mismatch [] (.wrongType found expected))

def wrongValue {α : Type} (found : Setting) (expected : String) : Except SettingsError α :=
  .error (.mismatch [] (.wrongValue found expected))

def natural (bits : Nat) (expected : String) : Decoder Nat
  | .count n => if n < Nat.pow 2 bits then .ok n else wrongValue (.count n) expected
  | .number n => if 0 ≤ n && n < Nat.pow 2 bits then .ok n.toNat else wrongValue (.number n) expected
  | found => wrongType found expected

-- A single character is a text too.
def text (expected : String) : Decoder String
  | .text t => .ok t
  | .letter c => .ok c.toString
  | found => wrongType found expected

def path : Decoder Path := fun s => (text "path string" s).map Path.mk

def word : Decoder String := text "a string"

-- A named value: of a group by its key, of a list by its place.
structure Slot (α : Type) where
  name : String
  place : Nat
  decode : Decoder α
  default : α

def Slot.read {α : Type} (f : Slot α) : Decoder α
  | .group fields =>
    match fields.lookup f.name with
    | some value => (f.decode value).mapError (.within f.name)
    | none => .ok f.default
  | .list items =>
    match items.drop f.place with
    | value :: _ => (f.decode value).mapError (.within (toString f.place))
    | [] => .ok f.default
  | _ => .ok f.default

-- Only groups and lists have fields.
def record {α : Type} (expected : String) (read : Decoder α) : Decoder α
  | .group fields => read (.group fields)
  | .list items => read (.list items)
  | found => wrongType found expected

-- The first failure decides: by key in a group, by place in a list.
def firstFailure (s : Setting) (byKey byPlace : List (Decoder Unit)) : Except SettingsError Unit :=
  let order :=
    match s with
    | .list _ => byPlace
    | _ => byKey
  order.forM (· s)

def Slot.check {α : Type} (f : Slot α) : Decoder Unit := fun s => (f.read s).map fun _ => ()

end Decoder

namespace Settings
open Decoder

def sourceDirSlot : Slot Path := ⟨"source_dir", 0, path, defaults.sourceDir⟩
def outputDirSlot : Slot Path := ⟨"output_dir", 1, path, defaults.outputDir⟩
def extensionSlot : Slot String := ⟨"extension", 2, word, defaults.extension⟩
def ignoreFileSlot : Slot Path := ⟨"ignore_file", 3, path, defaults.ignoreFile⟩
def threadsSlot : Slot Threads :=
  ⟨"parallel_threads", 4, fun s => (natural 64 "usize" s).map .count, defaults.threads⟩

def decodeGenerate (base : Settings) : Decoder Settings := record "struct GenerateConfig" fun s => do
  firstFailure s
    [extensionSlot.check, ignoreFileSlot.check, outputDirSlot.check, threadsSlot.check,
      sourceDirSlot.check]
    [sourceDirSlot.check, outputDirSlot.check, extensionSlot.check, ignoreFileSlot.check,
      threadsSlot.check]
  return { base with
    sourceDir := ← sourceDirSlot.read s
    outputDir := ← outputDirSlot.read s
    extension := ← extensionSlot.read s
    ignoreFile := ← ignoreFileSlot.read s
    threads := ← threadsSlot.read s }

def sortByName {α : Type} (entries : List (String × α)) : List (String × α) :=
  entries.mergeSort fun a b => a.1 ≤ b.1

-- A level for every topic that has one of its own, by name.
def decodeModules : Decoder (List (String × String))
  | .group fields =>
    (sortByName fields).mapM fun (name, value) =>
      ((word value).map (name, ·)).mapError (.within name)
  | found => wrongType found "a map"

def logDefaultSlot : Slot String := ⟨"default", 0, word, defaults.logDefault⟩
def logModulesSlot : Slot (List (String × String)) := ⟨"modules", 1, decodeModules, defaults.logModules⟩

def decodeLogging (base : Settings) : Decoder Settings := record "struct LoggingConfig" fun s => do
  return { base with
    logDefault := ← logDefaultSlot.read s
    logModules := ← logModulesSlot.read s }

def part (name : String) (decode : Settings → Decoder Settings) (root : List (String × Setting))
    (base : Settings) : Except SettingsError Settings :=
  match root.lookup name with
  | some value => (decode base value).mapError (.within name)
  | none => .ok base

def decodePackageDir (base : Settings) : Decoder Settings := fun s => do
  return { base with packageDir := ← path s }

def decodeVersion (base : Settings) : Decoder Settings := fun s => do
  return { base with version := ← natural 32 "u32" s }

-- Keys are taken in alphabetical order, so that the first mismatch in it is told; others are ignored.
def decode (root : List (String × Setting)) : Except SettingsError Settings := do
  let s ← part "generate" decodeGenerate root defaults
  let s ← part "logging" decodeLogging root s
  let s ← part "package_dir" decodePackageDir root s
  part "version" decodeVersion root s

end Settings
end ComponentAtlas
