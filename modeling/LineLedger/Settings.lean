import LineLedger.Confirm
import LineLedger.Registry

set_option autoImplicit false

namespace LineLedger

structure Settings where
  extensions : List String
  confirm : ConfirmMode
  overrides : Table String String
  logLevel : String
deriving DecidableEq

namespace Settings

def defaultExtensions : List String := [
  ".py", ".js", ".java", ".cpp", ".cs", ".rb", ".php", ".swift", ".kt", ".go", ".rs", ".ts",
  ".sh", ".pl", ".lua", ".scala", ".c", ".h", ".hpp", ".pas"]

def defaultLogLevel : String := "info"

def default : Settings := ⟨defaultExtensions, .perFile, .empty, defaultLogLevel⟩

def resolveOverride (ext name : String) : Except SettingsProblem (String × Language) :=
  match Language.ofName name with
  | .ok language => .ok (Extension.normalize ext, language)
  | .error unknown => .error (.unknownLanguage unknown)

def languageOverrides (s : Settings) : Except SettingsProblem (List (String × Language)) :=
  s.overrides.entries.mapM fun (ext, name) => resolveOverride ext name

def validate (s : Settings) : Except SettingsProblem Unit := do
  if !logLevels.contains s.logLevel then .error (.unknownLogLevel s.logLevel)
  let _ ← s.languageOverrides
  .ok ()

def registry (s : Settings) : Except SettingsProblem Registry := do
  .ok (Registry.ofOverrides (← s.languageOverrides))

end Settings

end LineLedger
