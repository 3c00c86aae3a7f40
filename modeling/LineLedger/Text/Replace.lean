import LineLedger.Text.Word

set_option autoImplicit false

namespace LineLedger.Text

def after? : List Char → List Char → Option (List Char)
  | [], text => some text
  | _ :: _, [] => none
  | s :: start, c :: text => if s = c then after? start text else none

theorem after?_eq_some_iff {start text rest : List Char} :
    after? start text = some rest ↔ text = start ++ rest := by
  induction start generalizing text with
  | nil => simp [after?, eq_comm]
  | cons s start ih =>
      cases text with
      | nil => simp [after?]
      | cons c text =>
          rw [after?]
          split
          · rename_i same
            simp [ih, same]
          · rename_i other
            simp [Ne.symm other]

theorem length_of_after? {start text rest : List Char} (found : after? start text = some rest) :
    rest.length + start.length = text.length := by
  rw [after?_eq_some_iff.1 found]
  simp
  omega

def startsWith (start text : List Char) : Bool := (after? start text).isSome

def hasPart (part : List Char) : List Char → Bool
  | [] => part.isEmpty
  | c :: rest => startsWith part (c :: rest) || hasPart part rest

def startsWithWord : List Char → Bool
  | [] => false
  | c :: _ => isWordChar c

-- Exactly one of the two neighbours is a word character.
def isBoundary (before : Option Char) (rest : List Char) : Bool :=
  before.any isWordChar != startsWithWord rest

def occurrence? (whole : Bool) (old : List Char) (before : Option Char) (text : List Char) :
    Option (List Char) :=
  match after? old text with
  | none => none
  | some rest =>
    if whole && !(isBoundary before text && isBoundary old.getLast? rest) then none
    else some rest

theorem occurrence?_shorter {whole : Bool} {old text rest : List Char} {before : Option Char}
    (found : occurrence? whole old before text = some rest) :
    rest.length + old.length = text.length := by
  unfold occurrence? at found
  split at found
  · simp at found
  · rename_i tail eq
    split at found
    · simp at found
    · simp only [Option.some.injEq] at found
      exact found ▸ length_of_after? eq

def replaceFrom (whole : Bool) (old new : List Char) (before : Option Char) :
    List Char → Option (List Char)
  | [] => none
  | c :: text =>
    match _found : occurrence? whole old before (c :: text) with
    | some rest =>
      if old.isEmpty then none
      else some (new ++ (replaceFrom whole old new old.getLast? rest).getD rest)
    | none => (replaceFrom whole old new (some c) text).map (c :: ·)
termination_by text => text.length
decreasing_by
  · have := occurrence?_shorter _found
    have : old.length ≠ 0 := by simp_all
    simp only [List.length_cons] at *
    omega
  · simp

def replace? (whole : Bool) (old new : List Char) (text : List Char) : Option (List Char) :=
  replaceFrom whole old new none text

end LineLedger.Text
