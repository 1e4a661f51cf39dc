namespace ComponentAtlas

structure Path where
  text : String
deriving DecidableEq, Repr, Inhabited

namespace Path

inductive Component where
  | root
  | current
  | parent
  | name (text : String)
deriving DecidableEq, Repr

def segments : List Char → List (List Char)
  | [] => [[]]
  | c :: rest =>
    if c = '/' then [] :: segments rest
    else match segments rest with
      | [] => [[c]]
      | s :: more => (c :: s) :: more

def isAbsolute (p : Path) : Bool :=
  p.text.toList.head? = some '/'

-- What a piece after the first slash stands for, with the number of characters up to its end.
def inner (seg : List Char) (stop : Nat) : List (Component × Nat) :=
  if seg = [] || seg = ['.'] then []
  else if seg = ['.', '.'] then [(.parent, stop)]
  else [(.name (String.ofList seg), stop)]

def innerSpans : (offset : Nat) → List (List Char) → List (Component × Nat)
  | _, [] => []
  | offset, seg :: rest => inner seg (offset + seg.length) ++ innerSpans (offset + seg.length + 1) rest

-- The components, each with the number of characters up to its end.
def spans (p : Path) : List (Component × Nat) :=
  match segments p.text.toList with
  | [] => []
  | seg :: rest =>
    let first :=
      if p.isAbsolute then [(.root, 1)]
      else if seg = ['.'] then [(.current, 1)]
      else inner seg seg.length
    first ++ innerSpans (seg.length + 1) rest

def components (p : Path) : List Component :=
  p.spans.map (·.1)

def Same (p q : Path) : Prop :=
  p.components = q.components

instance (p q : Path) : Decidable (Same p q) :=
  inferInstanceAs (Decidable (p.components = q.components))

def upTo (p : Path) (stop : Nat) : Path :=
  ⟨String.ofList (p.text.toList.take stop)⟩

-- An absolute path replaces the one it is joined to.
def join (p q : Path) : Path :=
  if q.isAbsolute || p.text.isEmpty then q
  else if p.text.toList.getLast? = some '/' then ⟨p.text ++ q.text⟩
  else ⟨p.text ++ "/" ++ q.text⟩

def joinText (p : Path) (text : String) : Path :=
  p.join ⟨text⟩

-- The path without its last component, if it has one that is not the root.
def parent? (p : Path) : Option Path :=
  match p.spans.reverse with
  | [] => none
  | (.root, _) :: _ => none
  | _ :: before =>
    match before with
    | [] => some ⟨""⟩
    | (_, stop) :: _ => some (p.upTo stop)

def parentD (p : Path) : Path :=
  p.parent?.getD ⟨""⟩

-- The last component, when it is a name, with its end.
def fileName? (p : Path) : Option (String × Nat) :=
  match p.spans.getLast? with
  | some (.name text, stop) => some (text, stop)
  | _ => none

-- The part of a file name behind its last dot, unless that dot comes first.
def extensionOf (name : List Char) : Option (List Char) :=
  let behind := name.reverse.takeWhile (· != '.')
  if behind.length + 1 < name.length then some behind.reverse else none

def extension? (p : Path) : Option String :=
  match p.fileName? with
  | some (name, _) => (extensionOf name.toList).map String.ofList
  | none => none

def withoutExtension (p : Path) : Path :=
  match p.fileName? with
  | some (name, stop) =>
    match extensionOf name.toList with
    | some ext => p.upTo (stop - (ext.length + 1))
    | none => p.upTo stop
  | none => p

def withSuffix (p : Path) (suffix : String) : Path :=
  ⟨p.text ++ suffix⟩

-- Adds a component to a path in normal form, newest component first.
def normalStep (done : List Component) : Component → List Component
  | .current => done
  | .parent =>
    match done with
    | .name _ :: before => before
    | .root :: _ => done
    | _ => .parent :: done
  | c => c :: done

def normalComponents (cs : List Component) : List Component :=
  (cs.foldl normalStep []).reverse

def Component.text : Component → String
  | root => "/"
  | current => "."
  | parent => ".."
  | name text => text

-- Components joined by slashes; the root needs none behind it.
def ofComponents : List Component → Path
  | .root :: rest => ⟨"/" ++ "/".intercalate (rest.map (·.text))⟩
  | cs => ⟨"/".intercalate (cs.map (·.text))⟩

def normalize (p : Path) : Path :=
  ofComponents (normalComponents p.components)

end Path
end ComponentAtlas
