import LineLedger.Text.Letter
import LineLedger.Text.Numeral
import LineLedger.Text.Mark

set_option autoImplicit false

namespace LineLedger.Text

def isAlphanumeric (c : Char) : Bool := isLetter c || isNumeral c

def isCodeChar (c : Char) : Bool := isAlphanumeric c || c = '_'

-- The code points of the general category Pc.
def connectorRanges : List (Nat × Nat) := [
  (0x5F, 0x5F), (0x203F, 0x2040), (0x2054, 0x2054), (0xFE33, 0xFE34), (0xFE4D, 0xFE4F),
  (0xFF3F, 0xFF3F)]

def isConnector (c : Char) : Bool := inRanges c.toNat connectorRanges

def isJoiner (c : Char) : Bool := c.toNat = 0x200C || c.toNat = 0x200D

def isWordChar (c : Char) : Bool :=
  isLetter c || isMark c || isDecimalDigit c || isConnector c || isJoiner c

def splitAt (test : Char → Bool) : List Char → List (List Char)
  | [] => [[]]
  | c :: rest =>
    if test c then [] :: splitAt test rest
    else
      match splitAt test rest with
      | [] => [[c]]
      | piece :: pieces => (c :: piece) :: pieces

theorem splitAt_ne_nil (test : Char → Bool) (text : List Char) : splitAt test text ≠ [] := by
  cases text with
  | nil => simp [splitAt]
  | cons c rest =>
      rw [splitAt]
      split
      · simp
      · split <;> simp

def codeWords (code : List Char) : List (List Char) :=
  (splitAt (fun c => !isCodeChar c) code).filter (fun word => !word.isEmpty)

end LineLedger.Text
