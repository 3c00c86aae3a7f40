import LineLedger.Failure
import LineLedger.Text.Blank
import LineLedger.Text.Lowercase

set_option autoImplicit false

namespace LineLedger

structure ConfirmRequest where
  file : Path
  pendingChanges : Nat
  affectedFiles : Nat
deriving DecidableEq, Repr

structure Confirmation where
  accept : Bool
  forAll : Bool
deriving DecidableEq, Repr

namespace Confirmation

def yes : Confirmation := ⟨true, false⟩

def no : Confirmation := ⟨false, false⟩

def always (answer : Confirmation) : Confirmation := { answer with forAll := true }

end Confirmation

structure Policy (σ : Type) where
  ask : σ → ConfirmRequest → Confirmation × σ

namespace Policy

variable {σ : Type}

def acceptAll : Policy σ := ⟨fun state _ => (Confirmation.yes.always, state)⟩

def rejectAll : Policy σ := ⟨fun state _ => (Confirmation.no.always, state)⟩

end Policy

inductive ConfirmMode where
  | never
  | once
  | perFile
deriving DecidableEq, Repr

namespace ConfirmMode

def all : List ConfirmMode := [.never, .once, .perFile]

def name : ConfirmMode → String
  | .never => "never"
  | .once => "once"
  | .perFile => "per-file"

def spellings : ConfirmMode → List String
  | .never => ["never"]
  | .once => ["once"]
  | .perFile => ["per-file", "per_file", "perfile"]

def ofText (text : String) : Except SettingsProblem ConfirmMode :=
  let wanted := String.ofList (Text.lower (Text.trim text.toList))
  match all.find? fun mode => mode.spellings.contains wanted with
  | some mode => .ok mode
  | none => .error (.unknownConfirmMode wanted)

def apply {σ : Type} (mode : ConfirmMode) (prompt : Policy σ) : Policy σ :=
  match mode with
  | .never => .acceptAll
  | .once =>
    ⟨fun state request =>
      let (answer, state) := prompt.ask state request
      (answer.always, state)⟩
  | .perFile => prompt

end ConfirmMode

end LineLedger
