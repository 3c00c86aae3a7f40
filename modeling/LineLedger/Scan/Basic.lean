import LineLedger.Record

set_option autoImplicit false

namespace LineLedger

structure Mark where
  line : Nat
  tag : Option String
  text : List Char
deriving DecidableEq, Repr

def Mark.toRecord (name : String) (extension : Option String) (m : Mark) : Record :=
  Record.make name m.line extension m.tag (String.ofList m.text)

structure Scanner (σ : Type) where
  start : σ
  step : σ → List Char → List (Option String) × σ

namespace Scanner

variable {σ : Type}

def run (scanner : Scanner σ) : σ → List (Nat × List Char) → List Mark × σ
  | state, [] => ([], state)
  | state, (number, line) :: rest =>
    let (tags, next) := scanner.step state line
    let (marks, final) := scanner.run next rest
    (tags.map (⟨number, ·, line⟩) ++ marks, final)

def scan (scanner : Scanner σ) (source : List Char) : List Mark :=
  (scanner.run scanner.start (Text.numberedLines source)).1

theorem run_append (scanner : Scanner σ) (state : σ) (first second : List (Nat × List Char)) :
    scanner.run state (first ++ second) =
      let (marks, middle) := scanner.run state first
      let (later, final) := scanner.run middle second
      (marks ++ later, final) := by
  induction first generalizing state with
  | nil => rfl
  | cons head rest ih =>
      obtain ⟨number, line⟩ := head
      simp only [List.cons_append, run, ih, List.append_assoc]

end Scanner

end LineLedger
