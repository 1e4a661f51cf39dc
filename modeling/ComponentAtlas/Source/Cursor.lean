namespace ComponentAtlas.Source

structure Cursor where
  rest : List Char
  index : Nat
  line : Nat
  column : Nat
deriving DecidableEq

namespace Cursor

def start (text : String) : Cursor :=
  { rest := text.toList, index := 0, line := 0, column := 0 }

-- One character further; at the end of the text the place stays where it is.
def step (c : Cursor) : Cursor :=
  match c.rest with
  | [] => c
  | '\n' :: rest => { rest, index := c.index + 1, line := c.line + 1, column := 0 }
  | x :: rest => { c with rest, index := c.index + 1, column := c.column + x.utf8Size }

def advance : Nat → Cursor → Cursor
  | 0, c => c
  | n + 1, c => advance n c.step

def upTo (c stop : Cursor) : List Char :=
  c.rest.take (stop.index - c.index)

def atEnd (c : Cursor) : Bool :=
  c.rest.isEmpty

theorem rest_step (c : Cursor) : c.step.rest = c.rest.drop 1 := by
  unfold step
  split <;> simp_all

end Cursor
end ComponentAtlas.Source
