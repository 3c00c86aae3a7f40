import LineLedger.Scan.Lua
import LineLedger.Proofs.Text.Word

set_option autoImplicit false

namespace LineLedger.Lua

def keywords : List String :=
  ["function", "if", "elseif", "else", "end", "local", "require", "for", "while", "repeat", "until"]

-- A text that no keyword rule reacts to and that leaves no parenthesis open.
structure Inert (text : List Char) : Prop where
  noKeyword : ∀ word ∈ words text, word ∉ keywords
  noMark : ∀ c ∈ text, c ∉ ['{', '}', '"', '\'', ';']
  noComment : ¬ ['-', '-'] <:+: text
  balanced : text.count '(' = text.count ')'

theorem inert_iff (text : List Char) :
    Inert text ↔ ((words text).all fun word => !keywords.contains word) = true ∧
      (text.all fun c => !(['{', '}', '"', '\'', ';'].contains c)) = true ∧
      ¬ ['-', '-'] <:+: text ∧ text.count '(' = text.count ')' := by
  simp only [List.all_eq_true, Bool.not_eq_true', List.contains_eq_mem, decide_eq_false_iff_not]
  exact ⟨fun inert => ⟨inert.noKeyword, inert.noMark, inert.noComment, inert.balanced⟩,
    fun ⟨word, mark, comment, balanced⟩ => ⟨word, mark, comment, balanced⟩⟩

structure Clear (text : List Char) : Prop where
  noMark : ∀ c ∈ text, c ∉ ['"', '\'', ';']
  noComment : ¬ ['-', '-'] <:+: text

theorem Inert.clear {text : List Char} (inert : Inert text) : Clear text where
  noMark c member listed := inert.noMark c member (by
    simp only [List.mem_cons, List.not_mem_nil, or_false] at listed ⊢
    exact .inr (.inr listed))
  noComment := inert.noComment

section Clear

-- Two dashes in a row lie on one side of any other character.
theorem dashes_append_cons {c : Char} (other : c ≠ '-') {first second : List Char}
    (found : ['-', '-'] <:+: first ++ c :: second) :
    ['-', '-'] <:+: first ∨ ['-', '-'] <:+: second := by
  induction first with
  | nil =>
      rw [List.nil_append, List.infix_cons_iff, List.cons_prefix_cons] at found
      exact found.elim (fun here => absurd here.1.symm other) .inr
  | cons d rest ih =>
      rw [List.cons_append, List.infix_cons_iff, List.cons_prefix_cons] at found
      rcases found with ⟨rfl, next⟩ | later
      · cases rest with
        | nil => exact absurd (List.cons_prefix_cons.1 next).1.symm other
        | cons e tail =>
            have ⟨same, _⟩ := List.cons_prefix_cons.1 next
            exact .inl ⟨[], tail, by rw [← same]; rfl⟩
      · exact (ih later).imp_left fun before => before.trans (List.suffix_cons ..).isInfix

theorem Clear.append_cons {c : Char} {first second : List Char} (before : Clear first)
    (after : Clear second) (code : c ∉ ['-', '"', '\'', ';']) : Clear (first ++ c :: second) := by
  rw [List.mem_cons, not_or] at code
  refine ⟨?_, fun found => ?_⟩
  · rw [List.forall_mem_append, List.forall_mem_cons]
    exact ⟨before.noMark, code.2, after.noMark⟩
  · exact (dashes_append_cons code.1 found).elim before.noComment after.noComment

theorem clear_nil : Clear [] where
  noMark _ member := nomatch member
  noComment := by decide

theorem Clear.spaced {pieces : List (List Char)} (clear : ∀ piece ∈ pieces, Clear piece) :
    Clear ([' '].intercalate pieces) := by
  induction pieces with
  | nil => exact clear_nil
  | cons piece rest ih =>
      have ⟨here, later⟩ := List.forall_mem_cons.1 clear
      cases rest with
      | nil => rwa [List.intercalate_singleton]
      | cons next more =>
          rw [List.intercalate_cons_cons, List.append_assoc]
          exact here.append_cons (ih later) (by decide)

theorem Clear.code_append {before text : List Char} (clear : Clear text)
    (code : ∀ c ∈ before, c ∉ ['-', '"', '\'', ';']) : Clear (before ++ text) := by
  induction before with
  | nil => exact clear
  | cons c rest ih =>
      have ⟨here, later⟩ := List.forall_mem_cons.1 code
      exact clear_nil.append_cons (ih later) here

theorem clear_of_code {text : List Char} (code : ∀ c ∈ text, c ∉ ['-', '"', '\'', ';']) :
    Clear text := by
  have clear := clear_nil.code_append code
  rwa [List.append_nil] at clear

theorem Clear.append_code {text after : List Char} (clear : Clear text)
    (code : ∀ c ∈ after, c ∉ ['-', '"', '\'', ';']) : Clear (text ++ after) := by
  cases after with
  | nil => rwa [List.append_nil]
  | cons c rest =>
      have ⟨here, later⟩ := List.forall_mem_cons.1 code
      exact clear.append_cons (clear_of_code later) here

theorem code_of_isBlank {c : Char} (blank : Text.isBlank c = true) : c ∉ ['-', '"', '\'', ';'] := by
  intro listed
  simp only [List.mem_cons, List.not_mem_nil, or_false] at listed
  rcases listed with rfl | rfl | rfl | rfl <;> revert blank <;> decide

theorem clear_trim (text : List Char) : Clear (Text.trim text) ↔ Clear text := by
  obtain ⟨before, after, split, blank, blank'⟩ := Text.exists_trimmed text
  refine ⟨fun clear => ?_, fun clear => ?_⟩
  · rw [split]
    have code : ∀ c ∈ before, c ∉ ['-', '"', '\'', ';'] := fun c member =>
      code_of_isBlank (blank c member)
    exact (clear.code_append code).append_code fun c member => code_of_isBlank (blank' c member)
  · have within : Text.trim text <:+: text := ⟨before, after, split.symm⟩
    exact ⟨fun c member => clear.noMark c (within.subset member),
      fun found => clear.noComment (found.trans within)⟩

theorem codeUntilComment_of_clear {text : List Char} (clear : Clear text) :
    codeUntilComment none text = (text, none) := by
  induction text with
  | nil => rfl
  | cons c rest ih =>
      have ⟨here, later⟩ := List.forall_mem_cons.1 clear.noMark
      have code := ih
        ⟨later, fun found => clear.noComment (found.trans (List.suffix_cons ..).isInfix)⟩
      have unquoted : ¬ (c = '"' || c = '\'') := by
        intro quote
        simp only [Bool.or_eq_true, decide_eq_true_eq] at quote
        rcases quote with rfl | rfl <;> simp at here
      rw [codeUntilComment, if_neg unquoted, code]
      all_goals
        rintro tail rfl rfl
        exact clear.noComment ⟨[], _, rfl⟩

theorem stripCode_of_clear {text : List Char} (clear : Clear text) :
    stripCode text = (text, false) := by
  rw [stripCode]
  split <;> rename_i found <;> rw [codeUntilComment_of_clear clear] at found <;> cases found
  rfl

theorem statements_of_clear {text : List Char} (clear : Clear text) :
    statements text = [Text.trim text] := by
  have uncut : ∀ c ∈ text, decide (c = ';') = false := by
    intro c member
    rw [decide_eq_false_iff_not]
    rintro rfl
    exact clear.noMark _ member (by decide)
  rw [statements, Text.splitAt_of_forall uncut]
  rfl

end Clear

section Reading

theorem classify_of_blank {text : List Char} (blank : Text.trim text = []) (nesting : Nesting) :
    classify nesting text = (none, nesting) := by
  have absent (c : Char) (visible : Text.isBlank c = false) : c ∉ text := by
    rw [← Text.mem_trim visible, blank]
    exact List.not_mem_nil
  have silent : words text = [] := by
    rw [words, ← Text.codeWords_trim, blank]
    rfl
  simp [classify, trackParens, pops, pushes, silent, absent '{' (by decide), absent '}' (by decide),
    List.count_eq_zero.2 (absent '(' (by decide)), List.count_eq_zero.2 (absent ')' (by decide))]

theorem classify_trim (nesting : Nesting) (text : List Char) :
    classify nesting (Text.trim text) = classify nesting text := by
  by_cases blank : Text.trim text = []
  · rw [classify_of_blank blank, blank]
    rfl
  · have filled : (Text.trim text).isEmpty = text.isEmpty := by
      rw [List.isEmpty_eq_false_iff.2 blank, eq_comm, List.isEmpty_eq_false_iff]
      rintro rfl
      exact blank rfl
    have contains (c : Char) (visible : Text.isBlank c = false) :
        (Text.trim text).contains c = text.contains c := by
      rw [Bool.eq_iff_iff, List.contains_iff_mem, List.contains_iff_mem, Text.mem_trim visible]
    have same : words (Text.trim text) = words text := by rw [words, words, Text.codeWords_trim]
    simp only [classify, trackParens, filled, same, contains '{' (by decide),
      contains '}' (by decide), contains '=' (by decide), Text.count_trim (c := '(') (by decide),
      Text.count_trim (c := ')') (by decide)]

theorem words_spaced (pieces : List (List Char)) :
    words ([' '].intercalate pieces) = pieces.flatMap words := by
  induction pieces with
  | nil => rfl
  | cons piece rest ih =>
      cases rest with
      | nil => simp
      | cons next more =>
          rw [List.intercalate_cons_cons, List.append_assoc, List.singleton_append, words,
            Text.codeWords_append_cons piece (by decide), List.map_append]
          exact congrArg _ ih

theorem mem_spaced {c : Char} (other : c ≠ ' ') (pieces : List (List Char)) :
    c ∈ [' '].intercalate pieces ↔ ∃ piece ∈ pieces, c ∈ piece := by
  induction pieces with
  | nil => simp
  | cons piece rest ih =>
      cases rest with
      | nil => simp
      | cons next more =>
          rw [List.intercalate_cons_cons, List.mem_append, List.mem_append, ih]
          simp [other]

end Reading

inductive Line where
  | plain (text : List Char)
  | binding (name value : List Char)
  | function (name args : List Char)
  | conditional (test : List Char)
  | elseIf (test : List Char)
  | otherwise
  | forLoop (range : List Char)
  | whileLoop (test : List Char)
  | repeatLoop
  | table (name : List Char)
  | finish
  | untilTest (test : List Char)
  | tableEnd
deriving DecidableEq, Repr

namespace Line

def texts : Line → List (List Char)
  | .plain text => [text]
  | .binding name value => [name, value]
  | .function name args => [name, args]
  | .conditional test | .elseIf test | .whileLoop test | .untilTest test => [test]
  | .forLoop range => [range]
  | .table name => [name]
  | .otherwise | .repeatLoop | .finish | .tableEnd => []

def pieces : Line → List (List Char)
  | .plain text => [text]
  | .binding name value => ["local".toList, name, ['='], value]
  | .function name args => ["function".toList, name ++ '(' :: (args ++ [')'])]
  | .conditional test => ["if".toList, test, "then".toList]
  | .elseIf test => ["elseif".toList, test, "then".toList]
  | .otherwise => ["else".toList]
  | .forLoop range => ["for".toList, range, "do".toList]
  | .whileLoop test => ["while".toList, test, "do".toList]
  | .repeatLoop => ["repeat".toList]
  | .table name => [name, ['='], ['{']]
  | .finish => ["end".toList]
  | .untilTest test => ["until".toList, test]
  | .tableEnd => [['}']]

def text (line : Line) : List Char := [' '].intercalate line.pieces

def Inert (line : Line) : Prop := ∀ text ∈ line.texts, Lua.Inert text

def effect (nesting : Nesting) : Line → Option Tag × Nesting
  | .plain _ => (none, nesting)
  | .binding _ _ => (some ⟨.variable, nesting.level⟩, nesting)
  | .function _ _ => (openBlock nesting "function" .function false).map some id
  | .conditional _ => (openBlock nesting "if" .conditional false).map some id
  | .elseIf _ => (nextBranch nesting "elseif" .elseIf).map some id
  | .otherwise => (nextBranch nesting "else" .otherwise).map some id
  | .forLoop _ => (openBlock nesting "for" .forLoop false).map some id
  | .whileLoop _ => (openBlock nesting "while" .whileLoop false).map some id
  | .repeatLoop => (openBlock nesting "repeat" .repeatLoop false).map some id
  | .table _ => (openBlock nesting "table" .table false).map some id
  | .finish => (closeBlock nesting .closed).map some id
  | .untilTest _ => (closeBlock nesting .untilLoop).map some id
  | .tableEnd => (closeBlock nesting fun _ => .tableEnd).map some id

def keyword? : Line → Option String
  | .plain _ | .table _ | .tableEnd => none
  | .binding _ _ => "local"
  | .function _ _ => "function"
  | .conditional _ => "if"
  | .elseIf _ => "elseif"
  | .otherwise => "else"
  | .forLoop _ => "for"
  | .whileLoop _ => "while"
  | .repeatLoop => "repeat"
  | .finish => "end"
  | .untilTest _ => "until"

theorem words_reserved : ∀ word ∈ keywords ++ ["then", "do"], words word.toList = [word] := by
  decide

theorem words_parenthesized (name args : List Char) :
    words (name ++ '(' :: (args ++ [')'])) = words name ++ words args := by
  rw [words, Text.codeWords_append_cons name (by decide),
    Text.codeWords_append_cons args (by decide), Text.codeWords_nil, List.append_nil,
    List.map_append]
  rfl

-- The embedded texts have no keyword, so a line has the keyword of its form and no other.
theorem mem_words {line : Line} (inert : line.Inert) {keyword : String}
    (listed : keyword ∈ keywords) :
    keyword ∈ words line.text ↔ line.keyword? = some keyword := by
  have silent : ∀ text ∈ line.texts, keyword ∉ words text := fun text embedded found =>
    (inert text embedded).noKeyword keyword found listed
  have reserved {word : String} (known : word ∈ keywords ++ ["then", "do"]) :
      keyword ∈ words word.toList ↔ word = keyword := by
    rw [words_reserved word known, List.mem_singleton, eq_comm]
  have neutral : "then" ≠ keyword ∧ "do" ≠ keyword := by
    refine ⟨?_, ?_⟩ <;> rintro rfl <;> revert listed <;> decide
  have sign : words ['='] = [] ∧ words ['{'] = [] ∧ words ['}'] = [] := ⟨rfl, rfl, rfl⟩
  rw [Line.text, words_spaced]
  cases line with
  | plain text =>
      simp only [texts, List.forall_mem_singleton] at silent
      simp [pieces, keyword?, silent]
  | binding name value =>
      simp only [texts, List.forall_mem_cons] at silent
      simp (disch := decide) only [pieces, List.flatMap_cons, List.mem_append, reserved]
      simp [keyword?, sign, silent]
  | function name args =>
      simp only [texts, List.forall_mem_cons] at silent
      simp (disch := decide) only [pieces, List.flatMap_cons, List.mem_append, reserved,
        words_parenthesized]
      simp [keyword?, silent]
  | conditional test | elseIf test | whileLoop test | untilTest test | forLoop test =>
      simp only [texts, List.forall_mem_singleton] at silent
      simp (disch := decide) only [pieces, List.flatMap_cons, List.mem_append, reserved]
      simp [keyword?, silent, neutral]
  | otherwise | repeatLoop | finish =>
      simp (disch := decide) only [pieces, List.flatMap_cons, List.mem_append, reserved]
      simp [keyword?]
  | table name =>
      simp only [texts, List.forall_mem_singleton] at silent
      simp [pieces, keyword?, sign, silent]
  | tableEnd => simp [pieces, keyword?, sign]

def brace? : Line → Option Char
  | .table _ => some '{'
  | .tableEnd => some '}'
  | _ => none

theorem mem_text {line : Line} (inert : line.Inert) {brace : Char} (listed : brace ∈ ['{', '}']) :
    brace ∈ line.text ↔ line.brace? = some brace := by
  have silent : ∀ text ∈ line.texts, brace ∉ text := fun text embedded found =>
    (inert text embedded).noMark brace found (List.mem_append_left _ listed)
  have visible : brace ≠ ' ' := by
    rintro rfl
    revert listed
    decide
  rw [Line.text, mem_spaced visible]
  simp only [List.mem_cons, List.not_mem_nil, or_false] at listed
  rcases listed with rfl | rfl <;> cases line <;> simp_all [pieces, texts, brace?]

theorem classify_text {line : Line} (inert : line.Inert) (nesting : Nesting) :
    classify nesting line.text = line.effect nesting := by
  have has : ∀ keyword ∈ keywords, keyword ∈ words line.text ↔ line.keyword? = some keyword :=
    fun keyword listed => mem_words inert listed
  simp only [keywords, List.forall_mem_cons] at has
  have opened : '{' ∈ line.text ↔ line.brace? = some '{' := mem_text inert (by decide)
  have closed : '}' ∈ line.text ↔ line.brace? = some '}' := mem_text inert (by decide)
  cases line with
  | plain text =>
      have still : trackParens (plain text).text nesting = nesting := by
        have balanced := (inert text (List.mem_cons_self ..)).balanced
        simp [trackParens, Line.text, pieces, balanced, pushes, pops]
      simp [classify, has, keyword?, opened, closed, brace?, still, effect]
  | binding name value =>
      have filled : (binding name value).text ≠ [] ∧ '=' ∈ (binding name value).text := by
        simp [Line.text, pieces]
      simp [classify, has, keyword?, opened, closed, brace?, effect, filled]
  | function name args | conditional test | elseIf test | otherwise | forLoop range | whileLoop test
  | repeatLoop | table name | finish | untilTest test | tableEnd =>
      rw [classify, if_neg (by simp [Line.text, pieces])]
      simp [has, keyword?, opened, closed, brace?, effect, Prod.map]

theorem clear_text {line : Line} (inert : line.Inert) : Clear line.text := by
  have clear : ∀ text ∈ line.texts, Clear text := fun text embedded => (inert text embedded).clear
  have reserved : ∀ word ∈ keywords ++ ["then", "do"], Clear word.toList := by
    have code : ∀ word ∈ keywords ++ ["then", "do"], ∀ c ∈ word.toList,
        c ∉ ['-', '"', '\'', ';'] := by simp [keywords]
    exact fun word known => clear_of_code (code word known)
  have sign : ∀ c ∈ ['=', '{', '}'], Clear [c] := by
    have code : ∀ c ∈ ['=', '{', '}'], c ∉ ['-', '"', '\'', ';'] := by simp
    exact fun c known => clear_of_code (List.forall_mem_singleton.2 (code c known))
  refine Clear.spaced ?_
  cases line with
  | function name args =>
      simp only [texts, List.forall_mem_cons] at clear
      have parenthesized := clear.1.append_cons (c := '(')
        (clear.2.1.append_cons (c := ')') clear_nil (by decide)) (by decide)
      simp only [pieces, List.forall_mem_cons]
      exact ⟨reserved "function" (by decide), parenthesized, fun _ member => nomatch member⟩
  | _ => simp_all [pieces, texts, keywords]

theorem step_of_trim {line : Line} (inert : line.Inert) {physical : List Char}
    (same : Text.trim physical = Text.trim line.text) (nesting : Nesting) :
    step ⟨nesting, false⟩ physical =
      ((line.effect nesting).1.toList, ⟨(line.effect nesting).2, false⟩) := by
  have clear : Clear physical := by
    rw [← clear_trim, same, clear_trim]
    exact clear_text inert
  have effect : classify nesting (Text.trim physical) = line.effect nesting := by
    rw [same, classify_trim, classify_text inert]
  have code : strip false physical = (physical, false) := stripCode_of_clear clear
  rw [step, code]
  simp only [statements_of_clear clear, classifyAll, effect, List.append_nil]

end Line

end LineLedger.Lua
