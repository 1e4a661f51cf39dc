import ComponentAtlas.Source.Cursor

namespace ComponentAtlas.Source

def positionLimit : Nat := Nat.pow 2 32 - 1

def saturate (n : Nat) : Nat :=
  min n positionLimit

structure Range where
  startLine : Nat
  startColumn : Nat
  endLine : Nat
  endColumn : Nat
deriving DecidableEq, Repr, Inhabited

namespace Range

def between (start stop : Cursor) : Range :=
  { startLine := saturate start.line
    startColumn := saturate start.column
    endLine := saturate stop.line
    endColumn := saturate stop.column }

def line (r : Range) : Nat :=
  saturate (r.startLine + 1)

def column (r : Range) : Nat :=
  saturate (r.startColumn + 1)

end Range
end ComponentAtlas.Source
