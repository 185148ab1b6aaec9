import HardcodedText.Number.Decimal
import HardcodedText.Report.Diagnostic

/-!
# Results of runs

What came out of a run, as a value and as a short text.
-/

namespace HardcodedText

/-- What came out of a run. -/
structure RunReport where
  /-- The hardcoded texts. -/
  diagnostics : List Diagnostic
  /-- Whether all checks passed. -/
  passed : Bool
  /-- How long the run took, in seconds. -/
  duration : Binary64
  /-- The names of the checks that were made. -/
  checks : List String := Check.all.map Check.name
  /-- Which checks passed. -/
  verdicts : List (String × Bool) := []
  /-- The number of files that were looked at. -/
  filesScanned : Int := 0
  /-- The number of files among them that could not be read. -/
  filesSkipped : Int := 0
deriving Repr

namespace RunReport

/-- The diagnostics by file. -/
def byFile (r : RunReport) : List (String × List Diagnostic) :=
  Diagnostic.byFile r.diagnostics

/-- How long the run took, in seconds with three decimals. -/
def roundedDuration (r : RunReport) : Binary64 :=
  r.duration.roundTo 3

/-- The fields of a result without its diagnostics; `duration` stands for the rounded duration. -/
def headFields (r : RunReport) (duration : Json) : List (String × Json) := [
  ("passed", .bool r.passed), ("duration_seconds", duration),
  ("checks", .arr (r.checks.map Json.str)),
  ("check_verdicts", .obj (r.verdicts.map fun (check, passed) ↦ (check, Json.bool passed))),
  ("files_scanned", .int r.filesScanned), ("files_skipped", .int r.filesSkipped),
  ("findings_count", .int r.diagnostics.length)]

/-- The fields of a result. -/
def fields (r : RunReport) (duration : Json) : List (String × Json) :=
  r.headFields duration ++ [("findings", .arr (r.diagnostics.map fun d ↦ .obj d.fields))]

/-- A result as a JSON value. -/
def json (r : RunReport) : Json :=
  .obj (r.fields (.float r.roundedDuration))

end RunReport

namespace Summary

/-- The label of a check. -/
def checkLabel (name : String) : String :=
  match Check.ofName? name with
  | some .markup => "Markup text and attributes"
  | some .calls => "Notification calls and properties"
  | none => name

/-- A line with a label and a value in columns. -/
def line (label value : String) : String :=
  .ofList ((label ++ ":").toList.rightpad 36 ' ') ++ value

/-- A line of equal characters. -/
def rule (c : Char) (length : Nat) : String := .ofList (List.replicate length c)

/-- The line for a check.  A check without a verdict has passed. -/
def checkLine (r : RunReport) (check : String) : String :=
  line (checkLabel check) (if (r.verdicts.lookup check).getD true then "PASS" else "FAIL")

/-- The summary of a result. -/
def render (r : RunReport) : String :=
  "\n".intercalate (
    [rule '=' 60, "Summary", rule '-' 30] ++
    r.checks.map (checkLine r) ++
    [rule '-' 30, line "Files scanned" (toString r.filesScanned)] ++
    (if r.filesSkipped = 0 then [] else [line "Files skipped" (toString r.filesSkipped)]) ++
    [line "Elapsed" (r.duration.fixedText 2 ++ "s"), rule '-' 30,
      if r.passed then "All hardcoding checks passed."
      else "Hardcoded text found. Fix the findings above and run again.",
      rule '=' 60])

end Summary

end HardcodedText
