/-!
# Usage

What the commands say about how they are used.
-/

namespace HardcodedText.CommandLine

/-- Who reads a command line: the program, or one of its commands. -/
inductive Reader
  | program
  | check
  | suggestKey
deriving DecidableEq, Repr

namespace Reader

/-- The name under which a reader reports faults. -/
def name : Reader → String
  | program => "i18n-scanner"
  | check => "i18n-scanner check"
  | suggestKey => "i18n-scanner suggest-key"

/-- The lines that say how a command line looks. -/
def usage : Reader → List String
  | program => ["usage: i18n-scanner [-h] \x7bcheck,suggest-key\x7d ..."]
  | check => [
    "usage: i18n-scanner check [-h] [--root ROOT] [--config CONFIG]",
    "                          [--markup-only | --calls-only]",
    "                          [--check-free-standing-properties]",
    "                          [--context-lines CONTEXT_LINES] [--jobs JOBS]",
    "                          [--format \x7btext,json\x7d] [--output-dir OUTPUT_DIR]",
    "                          [-v | -q]",
    "                          [patterns ...]"]
  | suggestKey => ["usage: i18n-scanner suggest-key [-h] context value"]

/-- The lines that explain what the arguments mean. -/
def explanation : Reader → List String
  | program => [
    "Find user-facing text in JS/TS/JSX sources that bypasses the i18n lookup",
    "function",
    "",
    "positional arguments:",
    "  \x7bcheck,suggest-key\x7d",
    "    check              Scan source files for hardcoded text",
    "    suggest-key        Print the suggested i18n key for a text",
    "",
    "options:",
    "  -h, --help           show this help message and exit"]
  | check => [
    "positional arguments:",
    "  patterns              Glob patterns or directories to check; prefix with !",
    "                        to exclude (default: src)",
    "",
    "options:",
    "  -h, --help            show this help message and exit",
    "  --root ROOT           Directory the patterns are relative to",
    "  --config CONFIG       JSON rule configuration",
    "  --markup-only         Only check markup text and attributes",
    "  --calls-only          Only check notification calls and properties",
    "  --check-free-standing-properties",
    "                        Also flag user-facing object properties outside",
    "                        notification calls",
    "  --context-lines CONTEXT_LINES",
    "  --jobs JOBS           Files to scan in parallel",
    "  --format \x7btext,json\x7d",
    "  --output-dir OUTPUT_DIR",
    "                        Also write summary.json and findings.csv here",
    "  -v, --verbose",
    "  -q, --quiet"]
  | suggestKey => [
    "positional arguments:",
    "  context     Call, property or attribute name, e.g. Message.error",
    "  value       The hardcoded text",
    "",
    "options:",
    "  -h, --help  show this help message and exit"]

/-- Lines as text. -/
def linesText (lines : List String) : String :=
  String.join (lines.map (· ++ "\n"))

/-- How a command line looks, as text. -/
def usageText (r : Reader) : String := linesText r.usage

/-- All that a reader says about its command line. -/
def help (r : Reader) : String := linesText (r.usage ++ [""] ++ r.explanation)

/-- The report of a fault. -/
def complaint (r : Reader) (message : String) : String :=
  r.usageText ++ r.name ++ ": error: " ++ message ++ "\n"

end Reader

end HardcodedText.CommandLine
