import ComponentAtlas.Source.LineEnd
import ComponentAtlas.Source.Node

namespace ComponentAtlas.Source

structure Reader where
  size : Nat
  here : Cursor
  -- Comments between `here` and `next`, newest first.
  gap : List Node
  next : Cursor
  -- Nodes of the node under construction, newest first.
  out : List Node

namespace Reader

def leaf (kind : Kind) (start stop : Cursor) : Node :=
  { kind, role := none, start, stop, children := [] }

-- Skips layout and comments; each round passes one comment.
def skipGap : Nat → List Node → Cursor → List Node × Cursor
  | 0, gap, c => (gap, c)
  | fuel + 1, gap, c =>
    let start := c.advance (Lexeme.spanLength Lexeme.isLayout c.rest)
    match Lexeme.comment start.rest with
    | some n =>
      let stop := start.advance n
      skipGap fuel (leaf .comment start stop :: gap) stop
    | none => (gap, start)

-- The state after a token that ends at `here`.
def arrive (size : Nat) (here : Cursor) (out : List Node) : Reader :=
  let (gap, next) := skipGap (size + 1) [] here
  { size, here, gap, next, out }

def start (text : String) : Reader :=
  arrive text.length (Cursor.start text) []

def token (s : Reader) (kind : Kind) (scan : Scan) : Option Reader :=
  match scan s.next.rest with
  | some n =>
    let stop := s.next.advance n
    some (arrive s.size stop (leaf kind s.next stop :: (s.gap ++ s.out)))
  | none => none

def glued (s : Reader) (kind : Kind) (scan : Scan) : Option Reader :=
  match scan s.here.rest with
  | some n =>
    let stop := s.here.advance n
    some (arrive s.size stop (leaf kind s.here stop :: s.out))
  | none => none

-- Places the waiting comments; what is read next then starts at a token.
def flush (s : Reader) : Reader :=
  { s with gap := [], out := s.gap ++ s.out }

def enter (s : Reader) : Reader :=
  { s with gap := [], out := [] }

-- Hands the nodes of an inner list to the list that `outer` was building.
def leave (s outer : Reader) (nodes : List Node) : Reader :=
  { s with out := nodes ++ (outer.gap ++ outer.out) }

def wrap (s : Reader) (kind : Kind) (start : Cursor) : Node :=
  { kind, role := none, start, stop := s.here, children := s.out.reverse }

def gather (s : Reader) (kind : Kind) : Reader :=
  match s.out.getLast? with
  | some first => { s with out := [s.wrap kind first.start] }
  | none => s

-- Ends the statement at a line end, taking the comments that stand on the same line before it.
def lineBreak? (afterValue : Bool) (s : Reader) : Option Reader :=
  go s.gap.reverse s
where
  go : List Node → Reader → Option Reader
    | [], s => if LineEnd.endsHere afterValue s.size s.here.rest then some { s with gap := [] } else none
    | c :: later, s =>
      if LineEnd.endsHere afterValue s.size s.here.rest then some { s with gap := (c :: later).reverse }
      else go later { s with here := c.stop, out := c :: s.out }

end Reader
end ComponentAtlas.Source
