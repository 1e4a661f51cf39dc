import ComponentAtlas.Generate.Run
import ComponentAtlas.Text.Width

namespace ComponentAtlas.Report
open Text (width)

def splitLines (text : String) : List String := text.splitOn "\n"

def fill (n : Nat) (c : Char) : String := String.ofList (List.replicate n c)

abbrev Row := List String

def cellWidth (cell : String) : Nat :=
  (splitLines cell).foldl (fun n line => max n (width line)) 0

def columnWidths (rows : List Row) : List Nat :=
  let columns := rows.foldl (fun n row => max n row.length) 0
  (List.range columns).map fun i => rows.foldl (fun n row => max n (cellWidth (row.getD i ""))) 0

def rule (left line cross right : Char) (widths : List Nat) : String :=
  fill 1 left ++ (fill 1 cross).intercalate (widths.map fun n => fill (n + 2) line) ++ fill 1 right

def padTo (n : Nat) (line : String) : String := " " ++ line ++ fill (n - width line) ' ' ++ " "

def rowLines (widths : List Nat) (row : Row) : List String :=
  let cells := widths.zipIdx.map fun (n, i) => (n, splitLines (row.getD i ""))
  let height := cells.foldl (fun n (_, lines) => max n lines.length) 0
  (List.range height).map fun k =>
    "│" ++ "┆".intercalate (cells.map fun (n, lines) => padTo n (lines.getD k "")) ++ "│"

def between (separator : String) : List (List String) → List String
  | [] => []
  | [lines] => lines
  | lines :: rest => lines ++ separator :: between separator rest

def render (header : Row) (rows : List Row) : List String :=
  let widths := columnWidths (header :: rows)
  [rule '╭' '─' '┬' '╮' widths] ++ rowLines widths header ++ [rule '╞' '═' '╪' '╡' widths] ++
    between (rule '├' '╌' '┼' '┤' widths) (rows.map (rowLines widths)) ++
    [rule '╰' '─' '┴' '╯' widths]

inductive Verdict where
  | written
  | ignored
  | failed
deriving DecidableEq, Repr

def Verdict.icon : Verdict → String
  | written => "✓"
  | ignored => "-"
  | failed => "✗"

def Verdict.label : Verdict → String
  | written => "written"
  | ignored => "ignored"
  | failed => "failed"

def Verdict.line (v : Verdict) (text : String) : String := v.icon ++ " " ++ text

-- One row for every class: written, ignored or failed, in this order.
def reportRows (r : GenerateReport) : List Row :=
  (r.written.map fun (name, path) => [name, Verdict.written.label, path.text]) ++
    (r.ignored.map fun name => [name, Verdict.ignored.label, ""]) ++
    (r.failed.map fun (name, e) => [name, e.code, e.message])

def reportTable (r : GenerateReport) : List String :=
  render ["Class", "Status", "Detail"] (reportRows r)

end ComponentAtlas.Report
