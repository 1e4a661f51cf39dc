namespace ComponentAtlas.Text

-- Space separators (category Zs).
def isSpaceSeparator (c : Char) : Bool :=
  c = ' ' || c = '\u00a0' || c = '\u1680' || ('\u2000' ≤ c && c ≤ '\u200a') ||
    c = '\u202f' || c = '\u205f' || c = '\u3000'

def isAsciiBlank (c : Char) : Bool :=
  c = ' ' || ('\t' ≤ c && c ≤ '\r')

-- The White_Space property: separators, the ASCII controls, next line, line and paragraph separator.
def isBlank (c : Char) : Bool :=
  isAsciiBlank c || c = '\u0085' || c = '\u2028' || c = '\u2029' || isSpaceSeparator c

def trimLeft (cs : List Char) : List Char :=
  cs.dropWhile isBlank

def trimRight (cs : List Char) : List Char :=
  (cs.reverse.dropWhile isBlank).reverse

def trim (cs : List Char) : List Char :=
  trimRight (trimLeft cs)

def trimString (s : String) : String :=
  String.ofList (trim s.toList)

end ComponentAtlas.Text
