import HardcodedText.Source.StringLiteral

/-!
# Imports

The names that a document takes over from modules, in document order.
-/

namespace HardcodedText

/-- A name taken over from a module. -/
structure Import where
  /-- The module. -/
  source : String
  /-- The name in the document. -/
  localName : String
  /-- The name in the module: `default` for its default export, `*` for the module as a whole. -/
  exported : String
deriving DecidableEq, Repr, Inhabited

namespace Document

/-- The name that an entry between braces takes over. -/
def specifierImport? (doc : Document) (source : String) (entry : Tree) : Option Import :=
  if entry.kind = "import_specifier" then
    (entry.child? "name").map fun name ↦
      ⟨source, doc.text ((entry.child? "alias").getD name).span, doc.text name.span⟩
  else none

/-- The names that one item of an import clause takes over. -/
def itemImports (doc : Document) (source : String) (item : Tree) : List Import :=
  let named := item.children.filter (·.head.named)
  if item.kind = "identifier" then [⟨source, doc.text item.span, "default"⟩]
  else if item.kind = "namespace_import" then
    (named.filter (·.kind = "identifier")).map fun name ↦ ⟨source, doc.text name.span, "*"⟩
  else if item.kind = "named_imports" then named.filterMap (doc.specifierImport? source)
  else []

/-- The names that a statement takes over. -/
def statementImports (doc : Document) (statement : Tree) : List Import :=
  if statement.kind = "import_statement" then
    match statement.child? "source" with
    | some literal =>
      let source := doc.stringValue literal.span
      let clauses := statement.children.filter fun c ↦ c.head.named && c.kind == "import_clause"
      clauses.flatMap fun clause ↦
        (clause.children.filter (·.head.named)).flatMap (doc.itemImports source)
    | none => []
  else []

/-- The names that a document takes over. -/
def imports (doc : Document) : List Import :=
  (doc.root.children.filter (·.head.named)).flatMap doc.statementImports

end Document

end HardcodedText
