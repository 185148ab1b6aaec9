import HardcodedText.Pattern.Wildcard
import HardcodedText.Text.Blank

/-!
# Notification calls

The names of the functions that show their arguments to the user.  A name is a path of segments with
dots between them; a pattern with a star stands for paths of as many segments.
-/

namespace HardcodedText

/-- A pattern of names of notification calls. -/
structure CallPattern where
  /-- The pattern as it is written, without blanks around it. -/
  text : String
deriving DecidableEq, Repr, Inhabited

/-- Why a text is no pattern of names. -/
inductive CallPattern.Fault
  /-- It is blank. -/
  | empty
  /-- It begins or ends with a dot or has two next to each other. -/
  | emptySegment
deriving DecidableEq, Repr

namespace CallPattern

/-- The parts of a text between its dots. -/
def segmentsOf (path : String) : List String :=
  (path.toList.splitOn '.').map .ofList

/-- The segments of a pattern. -/
def segments (p : CallPattern) : List String :=
  segmentsOf p.text

/-- Whether a pattern stands for more than one name. -/
def isWildcard (p : CallPattern) : Bool :=
  p.text.toList.contains '*'

/-- Whether a pattern stands for a name.  Stars do not reach across dots. -/
def accepts (p : CallPattern) (path : String) : Bool :=
  if p.isWildcard then
    (segmentsOf path).length == p.segments.length &&
      (p.segments.zip (segmentsOf path)).all fun (pattern, part) ↦ Wildcard.accepts pattern part
  else path == p.text

/-- The pattern that a text writes. -/
def read (text : String) : Except Fault CallPattern :=
  let p : CallPattern := ⟨Text.strip text⟩
  if p.text = "" then .error .empty
  else if p.segments.contains "" then .error .emptySegment
  else .ok p

/-- The calls that are looked at unless others are given. -/
def standard : List CallPattern := [
  ⟨"message.error"⟩, ⟨"message.success"⟩, ⟨"message.warning"⟩, ⟨"message.info"⟩,
  ⟨"message.loading"⟩,
  ⟨"Message.error"⟩, ⟨"Message.success"⟩, ⟨"Message.warning"⟩, ⟨"Message.info"⟩,
  ⟨"toast.error"⟩, ⟨"toast.success"⟩, ⟨"toast.warning"⟩, ⟨"toast.info"⟩,
  ⟨"notification.error"⟩, ⟨"notification.success"⟩, ⟨"notification.warning"⟩,
  ⟨"notification.info"⟩, ⟨"notification.open"⟩,
  ⟨"alert"⟩, ⟨"confirm"⟩, ⟨"prompt"⟩,
  ⟨"showMessage"⟩, ⟨"showError"⟩, ⟨"showSuccess"⟩, ⟨"showWarning"⟩]

end CallPattern

end HardcodedText
