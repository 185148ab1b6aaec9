import HardcodedText.Workspace.Path

/-!
# Languages

The language in which a file is written, by the suffix of its name.
-/

namespace HardcodedText

/-- A language. -/
inductive Language
  | typescript
  | javascript
  | tsx
deriving DecidableEq, Repr, Inhabited

namespace Language

/-- The name of a language. -/
def name : Language → String
  | typescript => "typescript"
  | javascript => "javascript"
  | tsx => "tsx"

/-- The language of a file.  Files with an unknown suffix may hold everything. -/
def ofPath (path : String) : Language :=
  let suffix := String.ofList (Text.lower (Path.ofText path).suffix)
  if [".ts", ".mts", ".cts"].contains suffix then typescript
  else if [".js", ".jsx", ".mjs", ".cjs"].contains suffix then javascript
  else tsx

end Language

end HardcodedText
