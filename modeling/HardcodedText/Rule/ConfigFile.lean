import HardcodedText.Json.Reader
import HardcodedText.Rule.Options
import HardcodedText.Workspace.Basic

/-!
# Configuration files
-/

namespace HardcodedText

/-- What is wrong with a configuration file that can be read. -/
inductive ConfigFileError
  /-- There is no such file. -/
  | missing (path : Path)
  /-- The file does not hold JSON. -/
  | notJson (path : Path) (cause : Json.ReadError)
  /-- The file does not hold a configuration. -/
  | options (cause : OptionError)

/-- The wording of a configuration file error. -/
def ConfigFileError.message : ConfigFileError → String
  | missing path => "Config file not found: " ++ path.text
  | notJson path cause => s!"Config file is not valid JSON: {path.text}: {cause.message}"
  | options cause => cause.message

/-- Whether an error is noticed as one of the configuration. -/
def ConfigFileError.isReported : ConfigFileError → Bool
  | options cause => cause.isReported
  | _ => true

/-- The configuration in a file.  If there is something at the path that holds no text, that is a
failure of its own and not an error in the configuration. -/
def Workspace.loadConfiguration (ws : Workspace) (characters : CharacterNames) (path : Path) :
    Except AccessError (Except ConfigFileError Configuration) :=
  if (ws.at? path).isNone then .ok (.error (.missing path))
  else do
    let (text, _) ← ws.readText path
    return do
      let value ← (Json.read text).mapError (.notJson path)
      (Configuration.ofJson characters value).mapError .options

end HardcodedText
