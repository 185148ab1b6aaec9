import HardcodedText.Report.Diagnostic

/-!
# The listing of diagnostics

Diagnostics as they are shown to people: file by file, with advice at the end.
-/

namespace HardcodedText.Listing

/-- The line between the files. -/
def separator : String := .ofList (List.replicate 80 '─')

/-- The advice at the end. -/
def advice : List String := [
  "How to fix:",
  "  1. Markup text:        <div>Hello</div>            ->  <div>\x7bt('common.hello')\x7d</div>",
  "  2. Attribute values:   <img alt=\"Logo\" />          ->  <img alt=\x7bt('alt.logo')\x7d />",
  "  3. Notification calls: message.error('Failed')     ->  message.error(t('error.failed'))",
  "  4. Object properties:  title: 'Settings'           ->  title: t('title.settings')",
  "Suggested keys are derived from the text; check them against your locale files before editing."]

/-- The lines for one diagnostic of a file. -/
def item (d : Diagnostic) (index : Nat) : List String :=
  let f := d.finding
  [s!"Error {index}: {f.message} [{f.kind.label}] at {f.line}:{f.column}",
    "  Text: " ++ f.value] ++
  (if f.suggestion = "" then [] else ["  Suggestion: " ++ f.suggestion]) ++ [d.frame]

/-- The lines for a file. -/
def file (path : String) (ds : List Diagnostic) : List String :=
  [s!"{path} ({ds.length} finding(s))", separator] ++
  [""].intercalate ((ds.zipIdx 1).map fun (d, index) ↦ item d index) ++ [separator, ""]

/-- The listing of diagnostics. -/
def render (ds : List Diagnostic) : String :=
  if ds.isEmpty then "No hardcoded text found."
  else
    let files := Diagnostic.byFile ds
    "\n".intercalate
      ([s!"Found {ds.length} hardcoded string(s) in {files.length} file(s)", ""] ++
        files.flatMap (fun (path, ds) ↦ file path ds) ++ advice)

end HardcodedText.Listing
