import HardcodedText.Source.Tree
import HardcodedText.Text.Quoted
import HardcodedText.Text.Utf8

/-!
# Documents

A document is a source text with the tree of it.  The tree counts bytes; positions shown to people
count lines from 1 and characters in the line from 0.
-/

namespace HardcodedText

/-- A place in a text. -/
structure Position where
  /-- The line, from 1. -/
  line : Nat
  /-- The number of characters before the place in its line. -/
  column : Nat
deriving DecidableEq, Repr, Inhabited

/-- A source text with its tree. -/
structure Document where
  /-- The name of the file. -/
  path : String
  /-- The text, encoded. -/
  bytes : List UInt8
  /-- What the parser made of it. -/
  root : Tree
deriving Repr, Inhabited

/-- Where a construct stands. -/
structure Site where
  /-- Its place in the text. -/
  position : Position
  /-- The bytes that it covers. -/
  span : Span
deriving DecidableEq, Repr, Inhabited

namespace Document

/-- The document of a text. -/
def ofText (path text : String) (root : Tree) : Document :=
  ⟨path, Utf8.encode text.toList, root⟩

/-- What follows the last line feed. -/
def lastLine (bytes : List UInt8) : List UInt8 :=
  (bytes.reverse.takeWhile (· != 0x0A)).reverse

/-- The place after the first `offset` bytes of a text. -/
def positionIn (bytes : List UInt8) (offset : Nat) : Position :=
  let before := bytes.take offset
  ⟨before.count 0x0A + 1, (Utf8.decodeLossy (lastLine before)).length⟩

/-- The place of a byte. -/
def position (doc : Document) (offset : Nat) : Position :=
  positionIn doc.bytes offset

/-- The bytes of a range, as far as the text has them. -/
def slice (doc : Document) (span : Span) : List UInt8 :=
  (doc.bytes.drop span.start).take (span.stop - span.start)

/-- The characters of a range. -/
def chars (doc : Document) (span : Span) : List Char :=
  Utf8.decodeLossy (doc.slice span)

/-- The text of a range. -/
def text (doc : Document) (span : Span) : String :=
  .ofList (doc.chars span)

/-- Where the construct with a range of bytes stands. -/
def site (doc : Document) (span : Span) : Site :=
  ⟨doc.position span.start, span⟩

end Document

/-- A text that the parser could not make sense of. -/
structure ParseError where
  /-- The kind of construct that is missing, if that is what is wrong. -/
  missing : Option String
  /-- Where the fault lies. -/
  position : Position
deriving DecidableEq, Repr

/-- The wording of a parse error. -/
def ParseError.message (e : ParseError) : String :=
  let what := match e.missing with
    | some kind => s!"Missing {Text.quoted kind}"
    | none => "Unexpected syntax"
  s!"{what} ({e.position.line}:{e.position.column})"

/-- The document, unless its tree is marked as faulty: then the first fault in it.  A tree without
any fault node is itself taken for the fault. -/
def Document.check (doc : Document) : Except ParseError Document :=
  if doc.root.head.faulty then
    let fault := (Tree.firstFault? [doc.root]).getD doc.root
    .error {
      missing := if fault.head.missing then some fault.kind else none
      position := doc.position fault.span.start }
  else .ok doc

end HardcodedText
