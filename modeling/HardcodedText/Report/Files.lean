import HardcodedText.Json.Writer
import HardcodedText.Report.Csv
import HardcodedText.Report.RunReport

/-!
# Report files

The files that a run leaves behind: a summary and a table of what was found.
-/

namespace HardcodedText.ReportFiles

/-- The summary of a result, made at the time `made`, with the full paths of the two files. -/
def summary (r : RunReport) (made summaryPath tablePath : String) : Json := .obj [
  ("generated_at", .str made),
  ("run", .obj (r.headFields (.float r.roundedDuration))),
  ("counts", .obj [
    ("findings_total", .int r.diagnostics.length),
    ("files_with_findings", .int r.byFile.length)]),
  ("files", .obj [("summary", .str summaryPath), ("findings", .str tablePath)])]

/-- Writes the files to a directory, which is made if need be.  The answer is the full paths of the
files; after a failure, what has been written before it stays. -/
def write (ws : Workspace) (r : RunReport) (made : String) (dir : Path) :
    Workspace × Except AccessError (List String) :=
  let summaryFile := dir.append (.ofText "summary.json")
  let tableFile := dir.append (.ofText "findings.csv")
  match ws.makeDirectory dir with
  | .error e => (ws, .error e)
  | .ok ws =>
    match ws.writeText tableFile (Csv.render r.diagnostics) with
    | .error e => (ws, .error e)
    | .ok ws =>
      let summaryPath := ws.fullText summaryFile
      let tablePath := ws.fullText tableFile
      match ws.writeText summaryFile (summary r made summaryPath tablePath).write with
      | .error e => (ws, .error e)
      | .ok ws => (ws, .ok [summaryPath, tablePath])

end HardcodedText.ReportFiles
