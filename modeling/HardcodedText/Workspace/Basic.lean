import HardcodedText.Source.Tree
import HardcodedText.Text.Quoted
import HardcodedText.Text.Utf8
import HardcodedText.Workspace.Path

/-!
# Workspaces

Files and directories, one of which is current, and the tree that the parser makes of each file.  A
place is given by the names that lead to it from the root; a path starts at the root or at the
current directory, and is followed to its place name by name.

There are no symbolic links and no permissions: every name leads to one file or directory, which can
be read and written.  The parser itself is not part of the project, so the tree of a file comes with
the file; the files that the program writes are never parsed.
-/

namespace HardcodedText

/-- What lies at a place. -/
inductive Entry
  /-- A file, with the tree that the parser makes of its text. -/
  | file (bytes : List UInt8) (tree : Tree)
  /-- A directory. -/
  | directory
deriving Repr, Inhabited

/-- Files and directories by place. -/
structure Workspace where
  /-- The place of the current directory. -/
  current : List String
  /-- What lies where, the root apart. -/
  entries : List (List String × Entry)
  /-- Everything has a name that a file or directory can have. -/
  named : ∀ e ∈ entries, ∀ name ∈ e.1, Path.IsName name

/-- Why a path leads to nothing that can be used. -/
inductive AccessFault
  /-- There is nothing at the end of the path. -/
  | notFound
  /-- A file stands where the path goes on. -/
  | notDirectory
  /-- A directory is at the end of the path. -/
  | isDirectory
  /-- There is something at the end of the path already. -/
  | occupied
deriving DecidableEq, Repr

namespace AccessFault

/-- The number of a fault. -/
def code : AccessFault → Nat
  | notFound => 2
  | occupied => 17
  | notDirectory => 20
  | isDirectory => 21

/-- The wording of a fault. -/
def reason : AccessFault → String
  | notFound => "No such file or directory"
  | occupied => "File exists"
  | notDirectory => "Not a directory"
  | isDirectory => "Is a directory"

end AccessFault

/-- A failure to use a path. -/
inductive AccessError
  /-- The path does not lead to what is needed. -/
  | path (fault : AccessFault) (path : Path)
  /-- The path has a character that no path may have. -/
  | nul
  /-- The file holds no text. -/
  | text (cause : Utf8.DecodeError)
deriving DecidableEq, Repr

/-- The wording of a failure. -/
def AccessError.message : AccessError → String
  | path fault p => s!"[Errno {fault.code}] {fault.reason}: {Text.quoted p.text}"
  | nul => "embedded null byte"
  | text cause => cause.message

namespace Workspace

/-- What lies at a place. -/
def entry? (ws : Workspace) (place : List String) : Option Entry :=
  if place = [] then some .directory else ws.entries.lookup place

/-- The place to which names lead from a place.  Only a directory can be left by a name; the name
`..` does not lead out of the root. -/
def follow (ws : Workspace) (place : List String) : List String → Except AccessFault (List String)
  | [] => .ok place
  | name :: rest =>
    match ws.entry? place with
    | none => .error .notFound
    | some (.file ..) => .error .notDirectory
    | some .directory =>
      if !Path.isStep name then ws.follow place rest
      else if name = ".." then ws.follow place.dropLast rest
      else if (ws.entry? (place ++ [name])).isSome then ws.follow (place ++ [name]) rest
      else .error .notFound

/-- The place where a path starts. -/
def start (ws : Workspace) (p : Path) : List String :=
  if p.anchor = "" then ws.current else []

/-- The place of a path. -/
def place (ws : Workspace) (p : Path) : Except AccessFault (List String) :=
  ws.follow (ws.start p) p.names

/-- The place that a text leads to, in which slashes at the end ask for a directory. -/
def placeOfText (ws : Workspace) (text : String) : Except AccessFault (List String) :=
  if text = "" then .error .notFound
  else ws.follow (ws.start (.ofText text)) (Path.components text)

/-- What a path leads to. -/
def at? (ws : Workspace) (p : Path) : Option Entry :=
  (ws.place p).toOption.bind ws.entry?

/-- Whether a path leads to a file. -/
def isFile (ws : Workspace) (p : Path) : Bool :=
  match ws.at? p with
  | some (.file ..) => true
  | _ => false

/-- Whether a path leads to a directory. -/
def isDirectory (ws : Workspace) (p : Path) : Bool :=
  match ws.at? p with
  | some .directory => true
  | _ => false

/-- The place of the directory that a text leads to. -/
def directory? (ws : Workspace) (text : String) : Option (List String) :=
  match ws.placeOfText text with
  | .ok place =>
    match ws.entry? place with
    | some .directory => some place
    | _ => none
  | .error _ => none

/-- Places one after another with an entry put at one of them. -/
def putIn (place : List String) (entry : Entry) :
    List (List String × Entry) → List (List String × Entry)
  | [] => [(place, entry)]
  | (p, e) :: rest => if p = place then (place, entry) :: rest else (p, e) :: putIn place entry rest

theorem mem_putIn {place : List String} {entry : Entry} {entries : List (List String × Entry)}
    {e : List String × Entry} (h : e ∈ putIn place entry entries) :
    e = (place, entry) ∨ e ∈ entries := by
  induction entries with
  | nil => exact .inl (List.mem_singleton.mp h)
  | cons first entries ih =>
    rw [putIn] at h
    split at h
    · rcases List.mem_cons.mp h with rfl | h
      · exact .inl rfl
      · exact .inr (List.mem_cons_of_mem _ h)
    · rcases List.mem_cons.mp h with rfl | h
      · exact .inr List.mem_cons_self
      · exact (ih h).imp_right (List.mem_cons_of_mem _)

/-- The workspace with an entry put at a place, if things can have such names. -/
def put (ws : Workspace) (place : List String) (entry : Entry) : Workspace :=
  if h : ∀ name ∈ place, Path.IsName name then
    { ws with
      entries := putIn place entry ws.entries
      named := fun e he ↦ (mem_putIn he).elim (fun heq ↦ heq ▸ h) (ws.named e) }
  else ws

/-- The workspace with directories at a place and all places on the way to it. -/
def withDirectories (ws : Workspace) (base : List String) : List String → Workspace
  | [] => ws
  | name :: rest =>
    let here := base ++ [name]
    let ws := if (ws.entry? here).isSome then ws else ws.put here .directory
    ws.withDirectories here rest

/-- A workspace with nothing but the current directory. -/
def empty (current : List String) : Workspace :=
  withDirectories ⟨current, [], fun _ h ↦ nomatch h⟩ [] current

/-- The workspace with an entry put where a path without `..` leads, together with the directories
on the way. -/
def insert (ws : Workspace) (p : Path) (entry : Entry) : Workspace :=
  let place := ws.start p ++ p.names
  (ws.withDirectories [] place.dropLast).put place entry

/-- The workspace without what lies at a place. -/
def erase (ws : Workspace) (place : List String) : Workspace :=
  { ws with
    entries := ws.entries.filter (·.1 != place)
    named := fun e he ↦ ws.named e (List.mem_filter.mp he).1 }

/-- A text with every end of line written as a line feed. -/
def unifyNewlines : List Char → List Char
  | '\r' :: '\n' :: rest => '\n' :: unifyNewlines rest
  | '\r' :: rest => '\n' :: unifyNewlines rest
  | c :: rest => c :: unifyNewlines rest
  | [] => []

/-- A file as it is on disk. -/
def contents (ws : Workspace) (p : Path) : Except AccessError (List UInt8 × Tree) :=
  if Path.hasNul p.text then .error .nul
  else
    match ws.place p with
    | .error fault => .error (.path fault p)
    | .ok place =>
      match ws.entry? place with
      | some (.file bytes tree) => .ok (bytes, tree)
      | some .directory => .error (.path .isDirectory p)
      | none => .error (.path .notFound p)

/-- The text of a file and the tree of it. -/
def readText (ws : Workspace) (p : Path) : Except AccessError (String × Tree) := do
  let (bytes, tree) ← ws.contents p
  let chars ← (Utf8.decode bytes).mapError .text
  return (.ofList (unifyNewlines chars), tree)

/-- The place where the last name of a path is to be put: its directory must be there. -/
def parentPlace (ws : Workspace) (p : Path) : Except AccessFault (List String) := do
  let place ← ws.place ⟨p.anchor, p.names.dropLast⟩
  match ws.entry? place with
  | some .directory => return place
  | _ => throw .notDirectory

/-- Makes one directory. -/
def makeOne (ws : Workspace) (p : Path) : Except AccessFault Workspace :=
  match p.names.getLast? with
  | none => .error .occupied
  | some name => do
    let parent ← ws.parentPlace p
    if name = ".." ∨ (ws.entry? (parent ++ [name])).isSome then throw .occupied
    return ws.put (parent ++ [name]) .directory

/-- The directories that lead to a path, the path included, from the shortest on. -/
def ancestors (p : Path) : List Path :=
  (List.range (p.names.length + 1)).map fun n ↦ ⟨p.anchor, p.names.take n⟩

/-- The workspace with a directory at the end of a path, and on the way to it where there is
nothing yet. -/
def makeDirectory (ws : Workspace) (p : Path) : Except AccessError Workspace :=
  if Path.hasNul p.text then .error .nul
  else
    let attempt (ws : Workspace) (p : Path) : Except AccessError Workspace :=
      match ws.makeOne p with
      | .ok ws => .ok ws
      | .error fault => if ws.isDirectory p then .ok ws else .error (.path fault p)
    match ws.makeOne p with
    | .ok ws => .ok ws
    | .error .notFound => (ancestors p).foldlM attempt ws
    | .error fault => if ws.isDirectory p then .ok ws else .error (.path fault p)

/-- The workspace with a text written to a file. -/
def writeText (ws : Workspace) (p : Path) (text : String) : Except AccessError Workspace :=
  if Path.hasNul p.text then .error .nul
  else
    match p.names.getLast? with
    | none => .error (.path .isDirectory p)
    | some name =>
      match ws.parentPlace p with
      | .error fault => .error (.path fault p)
      | .ok parent =>
        match name, ws.entry? (parent ++ [name]) with
        | "..", _ | _, some .directory => .error (.path .isDirectory p)
        | _, _ => .ok (ws.put (parent ++ [name]) (.file (Utf8.encode text.toList) .blank))

/-- The workspace without a file. -/
def delete (ws : Workspace) (p : Path) : Except AccessError Workspace :=
  if Path.hasNul p.text then .error .nul
  else
    match ws.place p with
    | .error fault => .error (.path fault p)
    | .ok place =>
      match ws.entry? place with
      | some (.file ..) => .ok (ws.erase place)
      | some .directory => .error (.path .isDirectory p)
      | none => .error (.path .notFound p)

/-- The full text of a path whose directory is there. -/
def fullText (ws : Workspace) (p : Path) : String :=
  match ws.place ⟨p.anchor, p.names.dropLast⟩ with
  | .ok place => "/" ++ "/".intercalate (place ++ p.names.getLast?.toList)
  | .error _ => p.text

end Workspace

end HardcodedText
