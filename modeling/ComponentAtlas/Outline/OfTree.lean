import ComponentAtlas.Failure
import ComponentAtlas.Outline.DocComment
import ComponentAtlas.Outline.Statement
import ComponentAtlas.Source.Tree

namespace ComponentAtlas.Outline
open Source (Node Kind Role)

def isQuote (c : Char) : Bool :=
  c = '"' || c = '\x27' || c = '\x60'

-- Drops every quote at both ends.
def unquote (text : String) : String :=
  String.ofList ((text.toList.dropWhile isQuote).reverse.dropWhile isQuote).reverse

def TypeText.ofNode (n : Node) : TypeText :=
  { text := n.text, kind := n.kind.label, range := n.range }

def typeArgumentsOf (n : Node) : List TypeText :=
  match n.child? .typeArguments with
  | some arguments => arguments.parts.map TypeText.ofNode
  | none => []

-- Constraint and default wrap their type; its first named child stands for it.
def TypeParameter.ofNode (n : Node) : Option TypeParameter :=
  if n.kind = .typeParameter then
    (n.child? .name).map fun name =>
      { name := name.text
        constraint := ((n.child? .constraint).bind (·.namedChildren.head?)).map TypeText.ofNode
        default := ((n.child? .value).bind (·.namedChildren.head?)).map TypeText.ofNode }
  else none

def typeParametersOf (n : Node) : List TypeParameter :=
  match n.child? .typeParameters with
  | some list => list.namedChildren.filterMap TypeParameter.ofNode
  | none => []

namespace Heritage

def ofExtends (clause : Node) : Option Heritage :=
  (clause.child? .value).map fun value =>
    { form :=
        if value.kind = .identifier || value.kind = .typeIdentifier then .identifier value.text
        else .unsupported value.kind.label
      text := value.text
      arguments := typeArgumentsOf clause
      range := value.range }

def ofType (n : Node) : Heritage :=
  match n.kind with
  | .typeIdentifier | .identifier =>
    { form := .identifier n.text, text := n.text, arguments := [], range := n.range }
  | .genericType =>
    match n.child? .name with
    | some name =>
      { form := if name.kind = .typeIdentifier then .identifier name.text else .unsupported name.kind.label
        text := name.text
        arguments := typeArgumentsOf n
        range := n.range }
    | none =>
      { form := .unsupported n.kind.label, text := n.text, arguments := typeArgumentsOf n, range := n.range }
  | kind => { form := .unsupported kind.label, text := n.text, arguments := [], range := n.range }

end Heritage

def clausesOf (n : Node) : List Node :=
  (n.children.filter (·.kind = .classHeritage)).flatMap (·.children)

namespace Declaration

def classOf (n : Node) (doc : Option String) : Option ClassDeclaration :=
  (n.child? .name).map fun name =>
    { name := name.text
      isAbstract := n.kind = .abstractClassDeclaration || n.hasMark "abstract"
      parameters := typeParametersOf n
      superclass := ((clausesOf n).filter (·.kind = .extendsClause)).getLast?.bind Heritage.ofExtends
      interfaces :=
        ((clausesOf n).filter (·.kind = .implementsClause)).flatMap fun clause =>
          clause.parts.map Heritage.ofType
      doc
      range := n.range }

def interfaceOf (n : Node) (doc : Option String) : Option InterfaceDeclaration :=
  (n.child? .name).map fun name =>
    { name := name.text
      parameters := typeParametersOf n
      parents :=
        (n.children.filter (·.kind = .extendsTypeClause)).flatMap fun clause =>
          (clause.childrenOf .type).map Heritage.ofType
      doc
      range := n.range }

def aliasOf (n : Node) (doc : Option String) : Option AliasDeclaration :=
  match n.child? .name, n.child? .value with
  | some name, some value =>
    some
      { name := name.text
        parameters := typeParametersOf n
        value := TypeText.ofNode value
        doc
        range := n.range }
  | _, _ => none

def memberOf (n : Node) : Option EnumMember :=
  if n.kind = .enumAssignment then
    (n.child? .name).map fun name => { name := unquote name.text, value := (n.child? .value).map (·.text) }
  else some { name := unquote n.text, value := none }

def enumOf (n : Node) (doc : Option String) : Option EnumDeclaration :=
  (n.child? .name).map fun name =>
    { name := name.text
      isConst := n.hasMark "const"
      members := ((n.child? .body).map fun body => body.parts.filterMap memberOf).getD []
      doc
      range := n.range }

def ofPlainNode (n : Node) (doc : Option String) : Option Declaration :=
  match n.kind with
  | .classDeclaration | .abstractClassDeclaration | .classExpression => (classOf n doc).map classDecl
  | .interfaceDeclaration => (interfaceOf n doc).map interfaceDecl
  | .typeAliasDeclaration => (aliasOf n doc).map aliasDecl
  | .enumDeclaration => (enumOf n doc).map enumDecl
  | _ => none

-- `declare` wraps the declaration it speaks of, which is its first part.
mutual
def ofNode (doc : Option String) : Node → Option Declaration
  | ⟨.ambientDeclaration, _, _, _, children⟩ => ofFirst doc children
  | n => ofPlainNode n doc
def ofFirst (doc : Option String) : List Node → Option Declaration
  | [] => none
  | n :: rest => if n.kind.isNamed && !n.isComment then ofNode doc n else ofFirst doc rest
end

theorem ofFirst_eq (doc : Option String) (nodes : List Node) :
    ofFirst doc nodes = ((nodes.filter fun n => n.kind.isNamed && !n.isComment).head?).bind (ofNode doc) := by
  induction nodes with
  | nil => rfl
  | cons n rest ih =>
    rw [ofFirst, List.filter_cons]
    split
    · rfl
    · exact ih

theorem ofNode_plain (n : Node) (doc : Option String) (other : n.kind ≠ .ambientDeclaration) :
    ofNode doc n = ofPlainNode n doc := by
  rw [ofNode]
  rintro _ _ _ _ rfl
  exact other rfl

theorem ofNode_ambient (doc : Option String) (kind : n.kind = .ambientDeclaration) :
    ofNode doc n = n.parts.head?.bind (ofNode doc) := by
  obtain ⟨_, role, start, stop, children⟩ := n
  cases kind
  rw [ofNode, ofFirst_eq, Node.parts, Node.namedChildren, List.filter_filter]
  simp only [Bool.and_comm]

end Declaration

namespace StatementForm

def specifiersOf (clause : Node) : List ExportSpecifier :=
  clause.namedChildren.filterMap fun n =>
    if n.kind = .exportSpecifier then
      (n.child? .name).map fun name =>
        { name := unquote name.text, otherName := (n.child? .otherName).map (unquote ·.text), range := n.range }
    else none

-- What an export list, a namespace or a star gives out; the first of them decides.
def ofExportParts (source : Option String) : List Node → Option StatementForm
  | [] => none
  | n :: rest =>
    match n.kind, source with
    | .exportClause, _ => some (exportNamed (specifiersOf n) source)
    | .namespaceExport, some from_ =>
      some (exportNamespace ((n.namedChildren.head?.map (unquote ·.text)).getD "") from_)
    | .namespaceExport, none => some (other n.kind.label)
    | .mark "*", some from_ => some (exportAll from_)
    | _, _ => ofExportParts source rest

def ofExport (n : Node) (doc : Option String) : StatementForm :=
  match n.child? .declaration, n.child? .value with
  | some inner, _ =>
    match Declaration.ofNode doc inner with
    | some decl => declaration (if n.hasMark "default" then .default else .named) decl
    | none => other inner.kind.label
  | none, some value =>
    if value.kind = .classExpression then
      match Declaration.ofNode doc value with
      | some decl => declaration .default decl
      | none => anonymousDefaultClass
    else other "export_default_expression"
  | none, none =>
    let source := (n.child? .source).map (unquote ·.text)
    (ofExportParts source n.children).getD (other n.kind.label)

def importSpecifierOf (n : Node) : Option ImportSpecifier :=
  if n.kind = .importSpecifier then
    (n.child? .name).map fun name =>
      { name := unquote name.text, otherName := (n.child? .otherName).map (·.text) }
  else none

def importPart (binding : Import) (part : Node) : Import :=
  match part.kind with
  | .identifier => { binding with default := some part.text }
  | .namespaceImport =>
    { binding with
      wholeModule := ((part.namedChildren.filter (·.kind = .identifier)).getLast?).map (·.text) }
  | .namedImports =>
    { binding with specifiers := binding.specifiers ++ part.namedChildren.filterMap importSpecifierOf }
  | _ => binding

def ofImport (n : Node) : StatementForm :=
  match n.child? .source with
  | none => other n.kind.label
  | some source =>
    let binding : Import :=
      { source := unquote source.text
        default := none
        wholeModule := none
        specifiers := []
        typeOnly := n.children[1]?.any (·.kind = .mark "type") }
    let parts := (n.children.filter (·.kind = .importClause)).flatMap (·.namedChildren)
    importFrom (parts.foldl importPart binding)

-- `before` lists the earlier siblings, nearest first.
def ofNode (n : Node) (before : List Node) : StatementForm :=
  let doc := DocComment.find before
  match n.kind with
  | .exportStatement => ofExport n doc
  | .importStatement => ofImport n
  | kind =>
    match Declaration.ofNode doc n with
    | some decl => declaration .none decl
    | none => other kind.label

end StatementForm

-- Statements of a list of siblings, comments left out.
def statementsOf : (before : List Node) → List Node → List Statement
  | _, [] => []
  | before, n :: rest =>
    if n.isComment then statementsOf (n :: before) rest
    else { form := StatementForm.ofNode n before, range := n.range } :: statementsOf (n :: before) rest

def dialectOf (path : Path) : Source.Dialect :=
  if path.extension? = some "tsx" then .markup else .plain

def snippetLength : Nat := 40

-- The outline of a text. That a text is not well formed is exact; the place and the reason are not more than a hint, the
-- start of the first statement that could not be read and the text there.
def outline (path : Path) (text : String) : Except ParseError SourceFile :=
  match Source.parseTree (dialectOf path) text with
  | .ok tree => .ok { path, statements := statementsOf [] tree.children }
  | .error place =>
    let range := Source.Range.between place place
    let snippet := String.ofList (place.rest.take snippetLength)
    .error (.malformed path range.line range.column s!"unexpected '{snippet}'")

theorem outline_of_parsed (parsed : Source.parseTree (dialectOf path) text = .ok tree) :
    outline path text = .ok { path, statements := statementsOf [] tree.children } := by
  unfold outline
  rw [parsed]

end ComponentAtlas.Outline
