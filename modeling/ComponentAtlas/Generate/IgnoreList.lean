import ComponentAtlas.Diagnostic
import ComponentAtlas.FileTree
import ComponentAtlas.Json.Reader

namespace ComponentAtlas

structure IgnoreList where
  names : List String
deriving DecidableEq, Repr

namespace IgnoreList

def ofNames (names : List String) : IgnoreList := ⟨names.eraseDups⟩

def contains (l : IgnoreList) (name : String) : Bool := l.names.contains name

def size (l : IgnoreList) : Nat := l.names.length

def load (t : FileTree) (p : Path) : Except GenerateError IgnoreList × List LogEntry :=
  match t.readText p with
  | .error .notFound =>
    (.ok (ofNames []),
      [{ level := .debug, topic := .ignore, message := s!"[ignore] no ignore file at {p.text}" }])
  | .error cause => (.error (.ignoreFile p cause.message), [])
  | .ok text =>
    match Json.readTexts text with
    | .error reason => (.error (.ignoreFile p reason), [])
    | .ok names => (.ok (ofNames names), [])

end IgnoreList
end ComponentAtlas
