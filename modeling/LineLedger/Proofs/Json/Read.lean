import LineLedger.Json.Print
import LineLedger.Json.Read
import LineLedger.Proofs.Json.Text

set_option autoImplicit false

namespace LineLedger.Json

def resume (r : Reading) (text : List Char) : Option Reading :=
  (tokens? text).bind fun tokens => tokens.foldlM Reading.step r

section Tokens

variable {r : Reading} {text rest : List Char}

theorem resume_token {token : Token}
    (split : tokens? text = (tokens? rest).map (token :: ·)) :
    resume r text = (r.step token).bind fun next => resume next rest := by
  rw [resume, split]
  cases found : tokens? rest with
  | none => simp [resume, found]
  | some tokens => simp [resume, found]

def punctuation : List (Char × Token) := [
  ('[', .openArray), (']', .closeArray), ('{', .openObject), ('}', .closeObject), (':', .colon),
  (',', .comma)]

theorem resume_punctuation (token : Token) {c : Char} (listed : (c, token) ∈ punctuation) :
    resume r (c :: rest) = (r.step token).bind fun next => resume next rest := by
  refine resume_token ?_
  simp only [punctuation, List.mem_cons, Prod.mk.injEq, List.not_mem_nil, or_false] at listed
  rcases listed with ⟨rfl, rfl⟩ | ⟨rfl, rfl⟩ | ⟨rfl, rfl⟩ | ⟨rfl, rfl⟩ | ⟨rfl, rfl⟩ | ⟨rfl, rfl⟩ <;>
    rw [tokens?.eq_5] <;> simp [isSpace]

theorem resume_blanks {blanks : List Char} (blank : ∀ c ∈ blanks, isSpace c = true) :
    resume r (blanks ++ rest) = resume r rest := by
  induction blanks with
  | nil => rfl
  | cons c more ih =>
      have ⟨here, later⟩ := List.forall_mem_cons.1 blank
      rw [← ih later, resume, List.cons_append, tokens?.eq_5]
      · rw [if_pos here]
        rfl
      all_goals
        rintro _ rfl
        cases here

theorem tokens?_quote (text rest : List Char) :
    tokens? (quote (escape text) ++ rest) =
      (tokens? rest).map (.string (escape text) :: ·) := by
  rw [quote, List.cons_append, List.append_assoc, List.singleton_append, tokens?.eq_5] <;>
    simp only [isSpace, Char.reduceEq, decide_false, Bool.or_self, Bool.false_eq_true, if_false,
      if_true, false_implies, implies_true]
  split
  · rename_i found
    rw [takeString_escape] at found
    cases found
    rfl
  · rename_i none
    rw [takeString_escape] at none
    cases none

theorem exists_lead_digit (n : Nat) :
    ∃ lead digits, Nat.toDigits 10 n = lead :: digits ∧ ∀ c, c.isDigit = false → lead ≠ c := by
  obtain ⟨lead, digits, split⟩ :=
    List.exists_cons_of_ne_nil (Nat.toDigits_ne_nil (n := n) (b := 10))
  refine ⟨lead, digits, split, ?_⟩
  rintro c other rfl
  have digit : lead.isDigit = true :=
    Text.isDigit_toDigits n lead (split ▸ List.mem_cons_self ..)
  rw [digit] at other
  cases other

theorem tokens?_digits (n : Nat) (stops : Stops rest) :
    tokens? (Nat.toDigits 10 n ++ rest) =
      (tokens? rest).map (.number (Nat.toDigits 10 n) :: ·) := by
  have taken := takeNumber_toDigits n stops
  obtain ⟨lead, digits, split, apart⟩ := exists_lead_digit n
  rw [split, List.cons_append] at taken
  have visible : isSpace lead = false := by
    simp [isSpace, apart ' ' rfl, apart '\t' rfl, apart '\n' rfl, apart '\r' rfl]
  rw [split, List.cons_append, tokens?.eq_5, taken]
  · simp [visible, apart '[' rfl, apart ']' rfl, apart '{' rfl, apart '}' rfl, apart ':' rfl,
      apart ',' rfl, apart '"' rfl]
  · exact fun _ same => absurd same (apart 't' rfl)
  · exact fun _ same => absurd same (apart 'f' rfl)
  · exact fun _ same => absurd same (apart 'n' rfl)

end Tokens

inductive Awaits : List Partial → Reading → Prop where
  | value (stack : List Partial) : Awaits stack (.value stack)
  | first (stack : List Partial) : Awaits (.array [] :: stack) (.valueOrClose stack)

theorem Awaits.step_eq {stack : List Partial} {r : Reading} {token : Token}
    (awaits : Awaits stack r) (opens : token ≠ .closeArray) :
    r.step token = Reading.readValue stack token := by
  cases awaits with
  | value => rfl
  | first outer => exact Reading.step.eq_3 token outer opens

-- The text stands for the value: wherever a value is awaited, the reader goes on behind the text
-- with the value in place.
structure Reads (v : Json) (text : List Char) : Prop where
  resumes : ∀ {stack : List Partial} {r : Reading} {rest : List Char}, Awaits stack r →
    Stops rest → resume r (text ++ rest) = resume (Reading.place v stack) rest

section Values

theorem reads_token {v : Json} {token : Token} {text : List Char}
    (split : ∀ rest, Stops rest → tokens? (text ++ rest) = (tokens? rest).map (token :: ·))
    (opens : token ≠ .closeArray)
    (placed : ∀ stack, Reading.readValue stack token = some (Reading.place v stack)) :
    Reads v text where
  resumes {stack r rest} awaits stops := by
    rw [resume_token (split rest stops), awaits.step_eq opens, placed, Option.bind_some]

theorem reads_null : Reads .null "null".toList :=
  reads_token (fun rest _ => tokens?.eq_4 rest) (by decide) fun _ => rfl

theorem reads_bool (b : Bool) : Reads (.bool b) (compact (.bool b)) := by
  cases b with
  | true => exact reads_token (fun rest _ => tokens?.eq_2 rest) (by decide) fun _ => rfl
  | false => exact reads_token (fun rest _ => tokens?.eq_3 rest) (by decide) fun _ => rfl

theorem reads_digits (n : Nat) : Reads (.number (Nat.toDigits 10 n)) (Nat.toDigits 10 n) :=
  reads_token (fun _ stops => tokens?_digits n stops) Token.noConfusion fun _ => rfl

theorem reads_quote (text : List Char) : Reads (.string (escape text)) (quote (escape text)) :=
  reads_token (fun rest _ => tokens?_quote text rest) Token.noConfusion fun _ => rfl

end Values

section Containers

variable {top : Partial} {v whole : Json} {text after gap : List Char}

structure Finishes (top : Partial) (whole : Json) (text : List Char) : Prop where
  stops : ∀ rest, Stops (text ++ rest)
  resumes : ∀ stack rest,
    resume (.commaOrClose top stack) (text ++ rest) = resume (Reading.place whole stack) rest

theorem stops_cons {c : Char} {rest : List Char}
    (stop : c.isDigit = false ∧ c ≠ '.' ∧ c ≠ 'e' ∧ c ≠ 'E') : Stops (c :: rest) := by
  intro d same
  cases same
  exact stop

theorem stops_blanks {rest : List Char} (blank : ∀ c ∈ gap, isSpace c = true)
    (stops : Stops rest) : Stops (gap ++ rest) := by
  cases gap with
  | nil => exact stops
  | cons c more =>
      have space := blank c (List.mem_cons_self ..)
      simp only [isSpace, Bool.or_eq_true, decide_eq_true_eq] at space
      rcases space with ((rfl | rfl) | rfl) | rfl <;> exact stops_cons (by decide)

theorem finishes_closeArray (items : List Json) (blank : ∀ c ∈ gap, isSpace c = true) :
    Finishes (.array items) (.array items.reverse) (gap ++ [']']) where
  stops rest := by
    rw [List.append_assoc]
    exact stops_blanks blank (stops_cons (by decide))
  resumes stack rest := by
    rw [List.append_assoc, resume_blanks blank, List.singleton_append,
      resume_punctuation .closeArray (by simp [punctuation])]
    rfl

theorem finishes_closeObject (members : List (List Char × Json))
    (blank : ∀ c ∈ gap, isSpace c = true) :
    Finishes (.object members) (.object members.reverse) (gap ++ ['}']) where
  stops rest := by
    rw [List.append_assoc]
    exact stops_blanks blank (stops_cons (by decide))
  resumes stack rest := by
    rw [List.append_assoc, resume_blanks blank, List.singleton_append,
      resume_punctuation .closeObject (by simp [punctuation])]
    rfl

theorem finishes_item {items : List Json} (blank : ∀ c ∈ gap, isSpace c = true)
    (here : Reads v text) (later : Finishes (.array (v :: items)) whole after) :
    Finishes (.array items) whole (',' :: (gap ++ text ++ after)) where
  stops rest := stops_cons (by decide)
  resumes stack rest := by
    rw [List.cons_append, resume_punctuation .comma (by simp [punctuation])]
    change resume (.value (.array items :: stack)) (gap ++ text ++ after ++ rest) = _
    rw [List.append_assoc, List.append_assoc, resume_blanks blank,
      here.resumes (.value _) (later.stops rest)]
    exact later.resumes stack rest

theorem resume_member {members : List (List Char × Json)} {stack : List Partial} {r : Reading}
    {key rest space : List Char}
    (named : r.step (.string (escape key)) = some (.colon members (escape key) stack))
    (blank : ∀ c ∈ space, isSpace c = true) (here : Reads v text) (stops : Stops rest) :
    resume r (quote (escape key) ++ ':' :: (space ++ text) ++ rest) =
      resume (.commaOrClose (.object ((escape key, v) :: members)) stack) rest := by
  rw [List.append_assoc, resume_token (tokens?_quote key _), named, Option.bind_some,
    List.cons_append, resume_punctuation .colon (by simp [punctuation])]
  change resume (.value (.member members (escape key) :: stack)) (space ++ text ++ rest) = _
  rw [List.append_assoc, resume_blanks blank]
  exact here.resumes (.value _) stops

theorem finishes_member {members : List (List Char × Json)} {key space : List Char}
    (blank : ∀ c ∈ gap, isSpace c = true) (apart : ∀ c ∈ space, isSpace c = true)
    (here : Reads v text) (later : Finishes (.object ((escape key, v) :: members)) whole after) :
    Finishes (.object members) whole
      (',' :: (gap ++ (quote (escape key) ++ ':' :: (space ++ text)) ++ after)) where
  stops rest := stops_cons (by decide)
  resumes stack rest := by
    rw [List.cons_append, resume_punctuation .comma (by simp [punctuation])]
    change resume (.key members stack) (gap ++ _ ++ after ++ rest) = _
    rw [List.append_assoc, List.append_assoc, resume_blanks blank,
      resume_member rfl apart here (later.stops rest)]
    exact later.resumes stack rest

theorem reads_emptyArray : Reads (.array []) ['[', ']'] where
  resumes awaits _ := by
    rw [List.cons_append, resume_punctuation .openArray (by simp [punctuation]),
      awaits.step_eq Token.noConfusion]
    exact resume_punctuation .closeArray (by simp [punctuation])

theorem reads_emptyObject : Reads (.object []) ['{', '}'] where
  resumes awaits _ := by
    rw [List.cons_append, resume_punctuation .openObject (by simp [punctuation]),
      awaits.step_eq Token.noConfusion]
    exact resume_punctuation .closeObject (by simp [punctuation])

theorem reads_array (blank : ∀ c ∈ gap, isSpace c = true) (here : Reads v text)
    (later : Finishes (.array [v]) whole after) :
    Reads whole ('[' :: (gap ++ text ++ after)) where
  resumes {stack r rest} awaits _ := by
    rw [List.cons_append, resume_punctuation .openArray (by simp [punctuation]),
      awaits.step_eq Token.noConfusion]
    change resume (.valueOrClose stack) _ = _
    rw [List.append_assoc, List.append_assoc, resume_blanks blank,
      here.resumes (.first _) (later.stops rest)]
    exact later.resumes stack rest

theorem reads_object {key space : List Char} (blank : ∀ c ∈ gap, isSpace c = true)
    (apart : ∀ c ∈ space, isSpace c = true) (here : Reads v text)
    (later : Finishes (.object [(escape key, v)]) whole after) :
    Reads whole ('{' :: (gap ++ (quote (escape key) ++ ':' :: (space ++ text)) ++ after)) where
  resumes {stack r rest} awaits _ := by
    rw [List.cons_append, resume_punctuation .openObject (by simp [punctuation]),
      awaits.step_eq Token.noConfusion]
    change resume (.keyOrClose stack) _ = _
    rw [List.append_assoc, List.append_assoc, resume_blanks blank,
      resume_member rfl apart here (later.stops rest)]
    exact later.resumes stack rest

end Containers

section Layout

variable {gap space stop : List Char}

theorem finishes_items {print : Json → List Char} (blank : ∀ c ∈ gap, isSpace c = true)
    (last : ∀ c ∈ stop, isSpace c = true) {items : List Json}
    (all : ∀ v ∈ items, Reads v (print v)) (before : List Json) :
    Finishes (.array before) (.array (before.reverse ++ items))
      ((items.flatMap fun v => ',' :: (gap ++ print v)) ++ (stop ++ [']'])) := by
  induction items generalizing before with
  | nil => simpa using finishes_closeArray before last
  | cons v rest ih =>
      have ⟨here, others⟩ := List.forall_mem_cons.1 all
      simpa using finishes_item blank here (ih others (v :: before))

def printMember (space : List Char) (print : Json → List Char) (member : List Char × Json) :
    List Char :=
  quote member.1 ++ ':' :: (space ++ print member.2)

def escapeKey (member : List Char × Json) : List Char × Json := (escape member.1, member.2)

theorem finishes_members {print : Json → List Char} (blank : ∀ c ∈ gap, isSpace c = true)
    (apart : ∀ c ∈ space, isSpace c = true) (last : ∀ c ∈ stop, isSpace c = true)
    {members : List (List Char × Json)} (all : ∀ member ∈ members, Reads member.2 (print member.2))
    (before : List (List Char × Json)) :
    Finishes (.object before) (.object (before.reverse ++ members.map escapeKey))
      (((members.map escapeKey).flatMap fun member => ',' :: (gap ++ printMember space print member))
        ++ (stop ++ ['}'])) := by
  induction members generalizing before with
  | nil => simpa using finishes_closeObject before last
  | cons member rest ih =>
      have ⟨here, others⟩ := List.forall_mem_cons.1 all
      simpa [escapeKey, printMember] using
        finishes_member blank apart here (ih others (escapeKey member :: before))

theorem compactItems_cons (v : Json) (rest : List Json) :
    compactItems (v :: rest) = compact v ++ ((rest.flatMap fun v => ',' :: compact v) ++ [']']) := by
  induction rest generalizing v with
  | nil => simp [compactItems]
  | cons next more ih => simp [compactItems, ih]

theorem compactMembers_cons (member : List Char × Json) (rest : List (List Char × Json)) :
    compactMembers (member :: rest) = printMember [] compact member ++
      ((rest.flatMap fun member => ',' :: printMember [] compact member) ++ ['}']) := by
  induction rest generalizing member with
  | nil => simp [compactMembers, printMember]
  | cons next more ih => simp [compactMembers, ih, printMember]

theorem layOutItems_eq (depth : Nat) (items : List Json) : layOutItems depth items =
    (items.flatMap fun v => ',' :: (newLine (depth + 1) ++ layOut (depth + 1) v)) ++
      (newLine depth ++ [']']) := by
  induction items with
  | nil => simp [layOutItems]
  | cons v rest ih => simp [layOutItems, ih]

theorem layOutMembers_eq (depth : Nat) (members : List (List Char × Json)) :
    layOutMembers depth members =
      (members.flatMap fun member =>
        ',' :: (newLine (depth + 1) ++ printMember [' '] (layOut (depth + 1)) member)) ++
      (newLine depth ++ ['}']) := by
  induction members with
  | nil => simp [layOutMembers]
  | cons member rest ih => simp [layOutMembers, ih, printMember]

theorem isSpace_newLine (depth : Nat) : ∀ c ∈ newLine depth, isSpace c = true := by
  intro c member
  rcases List.mem_cons.1 member with rfl | blank
  · rfl
  · rw [List.eq_of_mem_replicate blank]
    rfl

inductive Plain : Json → Prop where
  | null : Plain .null
  | bool (b : Bool) : Plain (.bool b)
  | number (n : Nat) : Plain (.number (Nat.toDigits 10 n))
  | string (text : List Char) : Plain (.string (escape text))
  | array (items : List Json) (all : ∀ v ∈ items, Plain v) : Plain (.array items)
  | object (members : List (List Char × Json)) (all : ∀ member ∈ members, Plain member.2) :
      Plain (.object (members.map escapeKey))

theorem Plain.reads_compact {v : Json} (plain : Plain v) : Reads v (compact v) := by
  have none : ∀ c ∈ ([] : List Char), isSpace c = true := fun c member => nomatch member
  induction plain with
  | null => exact reads_null
  | bool b => exact reads_bool b
  | number n => simpa only [compact] using reads_digits n
  | string text => simpa only [compact] using reads_quote text
  | array items all ih =>
      cases items with
      | nil => simpa only [compact, compactItems] using reads_emptyArray
      | cons v rest =>
          have ⟨here, others⟩ := List.forall_mem_cons.1 ih
          simpa [compact, compactItems_cons] using
            reads_array none here (finishes_items none none others [v])
  | object members all ih =>
      cases members with
      | nil => simpa only [List.map_nil, compact, compactMembers] using reads_emptyObject
      | cons member rest =>
          have ⟨here, others⟩ := List.forall_mem_cons.1 ih
          simpa [compact, compactMembers_cons, printMember, escapeKey] using
            reads_object none none here
              (finishes_members none none none others [escapeKey member])

theorem Plain.reads_layOut {v : Json} (plain : Plain v) (depth : Nat) :
    Reads v (layOut depth v) := by
  have single : ∀ c ∈ [' '], isSpace c = true := List.forall_mem_singleton.2 rfl
  induction plain generalizing depth with
  | null => exact reads_null
  | bool b => cases b <;> exact reads_bool _
  | number n => simpa only [layOut] using reads_digits n
  | string text => simpa only [layOut] using reads_quote text
  | array items all ih =>
      cases items with
      | nil => simpa only [layOut] using reads_emptyArray
      | cons v rest =>
          have ⟨here, others⟩ := List.forall_mem_cons.1 ih
          simpa [layOut, layOutItems_eq] using
            reads_array (isSpace_newLine (depth + 1)) (here (depth + 1))
              (finishes_items (isSpace_newLine (depth + 1)) (isSpace_newLine depth)
                (fun v member => others v member (depth + 1)) [v])
  | object members all ih =>
      cases members with
      | nil => simpa only [List.map_nil, layOut] using reads_emptyObject
      | cons member rest =>
          have ⟨here, others⟩ := List.forall_mem_cons.1 ih
          simpa [layOut, layOutMembers_eq, printMember, escapeKey] using
            reads_object (isSpace_newLine (depth + 1)) single
              (here (depth + 1))
              (finishes_members (isSpace_newLine (depth + 1)) single
                (isSpace_newLine depth)
                (fun member present => others member present (depth + 1)) [escapeKey member])

theorem read?_reads {v : Json} {text : List Char} (reads : Reads v text) :
    read? (String.ofList text) = some v := by
  have ended : resume (.value []) text = some (.done v) := by
    have stops : Stops [] := fun c none => nomatch none
    simpa [resume, Reading.place, tokens?.eq_1] using reads.resumes (.value []) stops
  obtain ⟨tokens, split, steps⟩ := Option.bind_eq_some_iff.1 ended
  rw [read?, String.toList_ofList, split, Option.bind_some, ofTokens?, steps]

def layouts : List (Json → String) := [toCompact, toPretty]

theorem Plain.read?_print {v : Json} (plain : Plain v) {print : Json → String}
    (layout : print ∈ layouts) : read? (print v) = some v := by
  simp only [layouts, List.mem_cons, List.not_mem_nil, or_false] at layout
  rcases layout with rfl | rfl
  · exact read?_reads plain.reads_compact
  · exact read?_reads (plain.reads_layOut 0)

end Layout

end LineLedger.Json
