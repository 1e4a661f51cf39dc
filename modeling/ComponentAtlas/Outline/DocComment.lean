import ComponentAtlas.Text.Blank
import ComponentAtlas.Source.Node

namespace ComponentAtlas.Outline.DocComment
open Source (Node)
open Text (trim)

-- Drops every leading repetition of `/**`.
def dropOpening : List Char → List Char
  | '/' :: '*' :: '*' :: rest => dropOpening rest
  | cs => cs

-- Drops every leading repetition of `/*` read backwards, that is of a trailing `*/`.
def dropClosingReversed : List Char → List Char
  | '/' :: '*' :: rest => dropClosingReversed rest
  | cs => cs

def dropClosing (cs : List Char) : List Char :=
  (dropClosingReversed cs.reverse).reverse

def splitLines : List Char → List (List Char)
  | [] => [[]]
  | c :: rest =>
    if c = '\n' then [] :: splitLines rest
    else match splitLines rest with
      | [] => [[c]]
      | line :: more => (c :: line) :: more

def dropOne (c : Char) : List Char → List Char
  | x :: rest => if x = c then rest else x :: rest
  | [] => []

def cleanLine (line : List Char) : List Char :=
  dropOne ' ' (dropOne '*' (trim line))

def joinLines (ls : List (List Char)) : List Char :=
  ['\n'].intercalate ls

def clean (comment : List Char) : List Char :=
  trim (joinLines ((splitLines (dropClosing (dropOpening comment))).map cleanLine))

def opens (comment : List Char) : Bool :=
  ['/', '*', '*'].isPrefixOf comment

-- The cleaned text of the nearest doc comment; `before` lists earlier siblings, nearest first.
def find : (before : List Node) → Option String
  | [] => none
  | n :: earlier =>
    if !n.isComment then none
    else if opens n.text.toList then
      match clean n.text.toList with
      | [] => none
      | cs => some (String.ofList cs)
    else find earlier

end ComponentAtlas.Outline.DocComment
