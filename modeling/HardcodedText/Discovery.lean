import HardcodedText.Log
import HardcodedText.Pattern.Braces
import HardcodedText.Workspace.Glob

/-!
# Discovery

Which files of a workspace are scanned.  Patterns include files, or exclude them if they start with
an exclamation mark; both may have braces with alternatives.  An include pattern is looked up in the
workspace, an exclude pattern is compared with the path of each file found.
-/

namespace HardcodedText

/-- Why no files could be looked for. -/
inductive DiscoveryError
  /-- There is no include pattern. -/
  | noInclude
  /-- The root is not a directory. -/
  | noRoot (root : Path)
  /-- The braces of a pattern do not match. -/
  | braces (cause : Braces.Unbalanced)
  /-- A pattern cannot be looked up. -/
  | unusable (pattern : String)
deriving DecidableEq, Repr

/-- The wording of a discovery error. -/
def DiscoveryError.message : DiscoveryError → String
  | noInclude => "At least one include pattern is required"
  | noRoot root => "Root directory does not exist: " ++ root.text
  | braces cause => cause.message
  | unusable pattern =>
    s!"Failed to expand pattern {Text.quoted pattern}: {AccessError.nul.message}"

namespace Discovery

/-- The pattern of all source files. -/
def sourceGlob : String := "**/*.\x7bjs,jsx,ts,tsx\x7d"

/-- The patterns that are used if none are given. -/
def standardPatterns : List String := ["src/" ++ sourceGlob]

/-- The patterns of files that are excluded unless the user asks for them: tests, stories, and what
was installed or built. -/
def standardExcludes : List String := [
  "**/*.test.\x7bjs,jsx,ts,tsx\x7d", "**/*.stories.\x7bjs,jsx,ts,tsx\x7d",
  "**/*.spec.\x7bjs,jsx,ts,tsx\x7d", "**/node_modules/**", "**/dist/**", "**/build/**"]

/-- Whether a text is a pattern and not just a path. -/
def isPattern (text : String) : Bool :=
  text.toList.any fun c ↦ c == '*' || c == '?' || c == '[' || c == '\x7b'

/-- A text without the slashes at its end. -/
def dropSlashes (cs : List Char) : String :=
  .ofList (cs.reverse.dropWhile (· == '/')).reverse

/-- Whether a text is a pattern, or the path of a file below a root. -/
def standsAlone (ws : Workspace) (root : Path) (text : String) : Bool :=
  isPattern text || ws.isFile (root.append (.ofText text))

/-- The pattern that an argument stands for.  A path that is no file is taken for a directory, and
stands for the source files or, excluded, for everything below it. -/
def patternOf (ws : Workspace) (root : Path) (arg : String) : String :=
  match arg.toList with
  | '!' :: rest =>
    let body := dropSlashes rest
    if body = "" ∨ standsAlone ws root body then "!" ++ body else "!" ++ body ++ "/**"
  | cs =>
    if standsAlone ws root arg then arg else dropSlashes cs ++ "/" ++ sourceGlob

/-- The patterns that arguments stand for.  Empty arguments do not count. -/
def patternsOf (ws : Workspace) (root : Path) (args : List String) : List String :=
  match args.filter (· != "") with
  | [] => standardPatterns
  | args => args.map (patternOf ws root)

/-- The text after the exclamation mark of an exclude pattern. -/
def excluded? (pattern : String) : Option String :=
  match pattern.toList with
  | '!' :: rest => some (.ofList rest)
  | _ => none

/-- The include patterns among patterns. -/
def includes (patterns : List String) : List String :=
  patterns.filter fun p ↦ p != "" && (excluded? p).isNone

/-- The exclude patterns among patterns, without their exclamation marks. -/
def excludes (patterns : List String) : List String :=
  (patterns.filterMap excluded?).filter (· != "")

/-- Whether a path is excluded by a pattern.  A leading `**` also stands for no directory. -/
def isExcludedBy (path pattern : String) : Bool :=
  Wildcard.accepts pattern path ||
    (match pattern.toList with
    | '*' :: '*' :: '/' :: rest => Wildcard.accepts (.ofList rest) path
    | _ => false)

/-- Whether a path is excluded by one of the given patterns. -/
def isExcludedByAny (path : String) (patterns : List String) : Bool :=
  patterns.any (isExcludedBy path)

/-- What has been found so far. -/
structure Progress where
  /-- The paths that have been looked at, relative to the root. -/
  seen : List String := []
  /-- The files found. -/
  files : List String := []
  /-- The log, latest entry first. -/
  log : List LogEntry := []

/-- What has been found once one more match of a pattern is looked at. -/
def Progress.visit (ws : Workspace) (root : Path) (excludePatterns : List String) (p : Progress)
    (found : String) : Progress :=
  let relative := Path.ofText found
  let file := root.append relative
  if p.seen.contains relative.text then p
  else if !ws.isFile file then { p with seen := relative.text :: p.seen }
  else if isExcludedByAny relative.text excludePatterns then
    { p with
      seen := relative.text :: p.seen
      log := ⟨.debug, "Excluded " ++ relative.text⟩ :: p.log }
  else { p with seen := relative.text :: p.seen, files := file.text :: p.files }

/-- The alternatives of include patterns, up to one that has none. -/
def alternatives (patterns : List String) : List (Except DiscoveryError String) :=
  patterns.flatMap fun p ↦
    match Braces.expand p with
    | .ok ps => ps.map .ok
    | .error e => [.error (.braces e)]

/-- What is found by alternatives in order, and the error that ended the search. -/
def sweep (ws : Workspace) (root : Path) (excludePatterns : List String) :
    Progress → List (Except DiscoveryError String) → Progress × Option DiscoveryError
  | p, [] => (p, none)
  | p, .error e :: _ => (p, some e)
  | p, .ok pattern :: rest =>
    match Glob.expand ws root.text pattern with
    | .error _ => (p, some (.unusable pattern))
    | .ok found =>
      let sorted := found.mergeSort fun a b ↦ decide (a ≤ b)
      sweep ws root excludePatterns
        (sorted.foldl (Progress.visit ws root excludePatterns) p) rest

/-- The alternatives of exclude patterns. -/
def excludeAlternatives (patterns : List String) : Except DiscoveryError (List String) :=
  (patterns.mapM fun p ↦ (Braces.expand p).mapError DiscoveryError.braces).map List.flatten

end Discovery

/-- The files that patterns stand for, and what is logged about them. -/
def Workspace.discover (ws : Workspace) (patterns : List String) (root : Path)
    (withStandardExcludes : Bool := true) :
    Except DiscoveryError (List String) × List LogEntry :=
  let includes := Discovery.includes patterns
  let excludes := Discovery.excludes patterns
  if includes.isEmpty then (.error .noInclude, [])
  else if !ws.isDirectory root then (.error (.noRoot root), [])
  else
    let standard := if withStandardExcludes then Discovery.standardExcludes else []
    match Discovery.excludeAlternatives (standard ++ excludes) with
    | .error e => (.error e, [])
    | .ok globs =>
      let start : List LogEntry := [
        ⟨.info, "Include patterns: [" ++ ", ".intercalate includes ++ "]"⟩,
        ⟨.info, "Exclude patterns: [" ++ ", ".intercalate excludes ++ "]"⟩]
      match Discovery.sweep ws root globs {} (Discovery.alternatives includes) with
      | (p, some e) => (.error e, start ++ p.log.reverse)
      | (p, none) =>
        (.ok p.files.reverse,
          start ++ p.log.reverse ++ [⟨.info, s!"Files to check: {p.files.length}"⟩])

end HardcodedText
