import HardcodedText.Check.Calls
import HardcodedText.Check.Markup
import HardcodedText.Node.Walk

/-!
# Scanning a document

The findings of a document: what the walk comes upon is checked, repeated findings are dropped, and
the rest is put in the order of the text.
-/

namespace HardcodedText

namespace Scope

/-- The findings for nodes in the order of the walk.  A property is passed over if a notification
call before it has `inspected` it. -/
def collect (scope : Scope) (checks : List Check) (inspected : List Span) :
    List Node → List Finding
  | [] => []
  | .element _ name attributes children :: rest =>
    (if .markup ∈ checks then
      scope.textFindings name children ++ scope.attributeFindings name attributes
    else []) ++ scope.collect checks inspected rest
  | .call _ callee arguments :: rest =>
    if .calls ∈ checks then
      scope.callFindings callee arguments ++
        scope.collect checks (inspected ++ scope.inspectedSpans callee arguments) rest
    else scope.collect checks inspected rest
  | .property site key n :: rest =>
    (if site.span ∈ inspected then [] else (scope.propertyFinding? key n).toList) ++
      scope.collect checks inspected rest
  | _ :: rest => scope.collect checks inspected rest

end Scope

namespace Document

/-- The rules and names that the checks of a document go by. -/
def scope (doc : Document) (config : Configuration) : Scope :=
  ⟨config, doc.path, doc.imports⟩

/-- The findings in the order in which they are made, some perhaps more than once. -/
def rawFindings (doc : Document) (config : Configuration) (checks : List Check) : List Finding :=
  (doc.scope config).collect checks []
    (doc.nodes (decide (.calls ∈ checks) && config.freeStanding))

/-- The findings of a document. -/
def findings (doc : Document) (config : Configuration) (checks : List Check) : List Finding :=
  Finding.sort (Finding.firsts (doc.rawFindings config checks))

/-- The findings of a document, unless its tree has a fault. -/
def scan (doc : Document) (config : Configuration) (checks : List Check) :
    Except ParseError (List Finding) :=
  doc.check.map fun doc ↦ doc.findings config checks

end Document

end HardcodedText
