import HardcodedText.Report.Diagnostic

/-!
# Tables of diagnostics

Diagnostics as comma-separated values, one record for each, below a record with the names of the
fields.  Records end with a carriage return and a line feed.
-/

namespace HardcodedText.Csv

/-- Whether a field has to stand between quotes. -/
def needsQuotes (cs : List Char) : Bool :=
  cs.any fun c ↦ c == ',' || c == '"' || c == '\r' || c == '\n'

/-- A text between quotes, the quotes in it doubled. -/
def quote (cs : List Char) : List Char :=
  '"' :: cs.flatMap (fun c ↦ if c = '"' then ['"', '"'] else [c]) ++ ['"']

/-- A field as it is written. -/
def writeField (cs : List Char) : List Char :=
  if needsQuotes cs then quote cs else cs

/-- A record as it is written. -/
def writeRecord (fields : List (List Char)) : List Char :=
  [','].intercalate (fields.map writeField) ++ ['\r', '\n']

/-- The text of a field's value; a missing value is empty. -/
def fieldText : Json → String
  | .null => ""
  | value => value.text

/-- The names of the fields of a diagnostic. -/
def header (d : Diagnostic) : List String :=
  d.fields.map (·.1)

/-- The fields of a diagnostic. -/
def record (d : Diagnostic) : List String :=
  d.fields.map fun (_, value) ↦ fieldText value

/-- The table of diagnostics.  Without any it is empty. -/
def table (ds : List Diagnostic) : List (List String) :=
  match ds with
  | [] => []
  | d :: _ => header d :: ds.map record

/-- The table of diagnostics as text. -/
def render (ds : List Diagnostic) : String :=
  .ofList ((table ds).flatMap fun fields ↦ writeRecord (fields.map String.toList))

end HardcodedText.Csv
