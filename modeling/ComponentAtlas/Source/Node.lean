import ComponentAtlas.Source.Kind
import ComponentAtlas.Source.Range

namespace ComponentAtlas.Source

inductive Role where
  | name | otherName | source | value | body | declaration | typeParameters | typeArguments | constraint
  | type
deriving DecidableEq, Repr

structure Node where
  kind : Kind
  role : Option Role
  start : Cursor
  stop : Cursor
  children : List Node

namespace Node

def text (n : Node) : String :=
  String.ofList (n.start.upTo n.stop)

def range (n : Node) : Range :=
  Range.between n.start n.stop

def isComment (n : Node) : Bool :=
  n.kind = .comment

def namedChildren (n : Node) : List Node :=
  n.children.filter (·.kind.isNamed)

def parts (n : Node) : List Node :=
  n.namedChildren.filter (!·.isComment)

def child? (n : Node) (role : Role) : Option Node :=
  n.children.find? (·.role = some role)

def childrenOf (n : Node) (role : Role) : List Node :=
  n.children.filter (·.role = some role)

def hasMark (n : Node) (text : String) : Bool :=
  n.children.any (·.kind = .mark text)

def withRole (role : Role) (n : Node) : Node :=
  { n with role := some role }

end Node
end ComponentAtlas.Source
