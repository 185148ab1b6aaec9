import HardcodedText.Json.Reader
import HardcodedText.Source.TreeJson
import HardcodedText.Workspace.Basic

/-!
# Trees next to files

The tree of a file is kept in a file of its own next to it, under the same name with `.tree.json`
after it.
-/

namespace HardcodedText.Workspace

/-- The place of the file with the tree of the file at a place. -/
def sidecar (place : List String) : List String :=
  place.dropLast ++ place.getLast?.toList.map (· ++ ".tree.json")

/-- The tree that bytes write. -/
def treeOfBytes? (bytes : List UInt8) : Option Tree :=
  (Json.read (.ofList (Utf8.decodeLossy bytes))).toOption.bind Tree.ofJson?

/-- The tree that is kept for the file at a place. -/
def keptTree? (ws : Workspace) (place : List String) : Option Tree :=
  match ws.entries.lookup (sidecar place) with
  | some (.file bytes _) => treeOfBytes? bytes
  | _ => none

/-- What lies at a place, if it is a file with the tree that is kept for it. -/
def withKeptTree (ws : Workspace) (place : List String) : Entry → Entry
  | .file bytes tree => .file bytes ((ws.keptTree? place).getD tree)
  | .directory => .directory

/-- The workspace with every file given the tree that is kept for it. -/
def withKeptTrees (ws : Workspace) : Workspace :=
  { ws with
    entries := ws.entries.map fun (place, entry) ↦ (place, ws.withKeptTree place entry)
    named := List.forall_mem_map.mpr ws.named }

end HardcodedText.Workspace
