import HardcodedText.Text.Blank

/-!
# Code frames

A line of a file with the lines around it and a caret below the character in question.
-/

namespace HardcodedText

/-- A line number that a file does not have. -/
structure CodeFrame.OutOfRange where
  /-- The line asked for. -/
  line : Int
  /-- The number of lines. -/
  count : Nat
deriving DecidableEq, Repr

/-- The wording of the error. -/
def CodeFrame.OutOfRange.message (e : OutOfRange) : String :=
  s!"line {e.line} is outside the file ({e.count} lines)"

namespace CodeFrame

/-- The characters before a column; a negative column counts from the end. -/
def before (column : Int) (cs : List Char) : List Char :=
  cs.take (if column < 0 then column + cs.length else column).toNat

/-- The blanks above which a line shows given characters.  Tabs are kept, so that a caret after them
stands in line. -/
def padding (cs : List Char) : List Char :=
  cs.map fun c ↦ if c = '\t' then '\t' else ' '

/-- A number, with blanks before it to a width. -/
def gutter (width number : Nat) : String :=
  .ofList ((toString number).toList.leftpad width ' ')

/-- A line with its number. -/
def row (mark : String) (width number : Nat) (content : String) : String :=
  Text.stripEnd (mark ++ " " ++ gutter width number ++ " | " ++ content)

/-- The caret below a line. -/
def caret (width : Nat) (column : Int) (content : String) : String :=
  "  " ++ .ofList (List.replicate width ' ') ++ " | " ++
    .ofList (padding (before column content.toList)) ++ "^"

/-- The rows for a line: the line in question comes with a caret. -/
def rows (width : Nat) (line column : Int) (content : String) (number : Nat) : List String :=
  if number = line then [row ">" width number content, caret width column content]
  else [row " " width number content]

/-- The frame around a place, with so many lines before and after it. -/
def render (lines : List String) (line column context : Int) : Except OutOfRange String :=
  if line < 1 ∨ lines.length < line then .error ⟨line, lines.length⟩
  else
    let first := max 1 (line - context)
    let last := min (lines.length : Int) (line + context)
    let width := (toString last).length
    let shown := (lines.zipIdx 1).filter fun (_, number) ↦ first ≤ number ∧ number ≤ last
    .ok ("\n".intercalate (shown.flatMap fun (content, number) ↦
      rows width line column content number))

end CodeFrame

end HardcodedText
