import ComponentAtlas.FileTree
import ComponentAtlas.Outline.OfTree
import ComponentAtlas.Resolve.Provider

namespace ComponentAtlas
open Outline

-- The files that a module path may stand for, in the order they are tried.
def sourceCandidates (p : Path) : List Path :=
  let emitted :=
    if p.extension? = some "js" then
      [".ts", ".d.ts", ".tsx"].map p.withoutExtension.withSuffix
    else []
  [p] ++ emitted ++ [".ts", ".tsx", ".d.ts"].map p.withSuffix ++
    ["index.ts", "index.tsx", "index.d.ts"].map p.joinText

def FileTree.findSource (t : FileTree) (p : Path) : Except ParseError Path :=
  match (sourceCandidates p).find? t.isFile with
  | some found => .ok found
  | none => .error (.noSource p (sourceCandidates p).length)

def FileTree.outlineAt (t : FileTree) (p : Path) : Except ParseError SourceFile :=
  match t.readText p with
  | .error cause => .error (.unreadable p cause)
  | .ok text => outline p text

structure Library where
  tree : FileTree
  -- Outlines by the components of the path they were read from.
  known : List (List Path.Component × SourceFile)

namespace Library

def ofTree (tree : FileTree) : Library := { tree, known := [] }

def size (l : Library) : Nat := l.known.length

def load (p : Path) (l : Library) : Loaded Library :=
  match l.tree.findSource p with
  | .error e => { result := .error e, state := l, log := [] }
  | .ok found =>
    match l.known.lookup found.components with
    | some file => { result := .ok file, state := l, log := [] }
    | none =>
      let log := [{ level := .debug, topic := .parsing, message := s!"[ast] parsing {found.text}" }]
      match l.tree.outlineAt found with
      | .error e => { result := .error e, state := l, log }
      | .ok file =>
        { result := .ok file, state := { l with known := (found.components, file) :: l.known }, log }

def provider : Provider Library := { load }

end Library
end ComponentAtlas
