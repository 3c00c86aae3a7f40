import LineLedger.Json.Token
import LineLedger.Proofs.Text.Digits
import LineLedger.Proofs.Text.Trim

set_option autoImplicit false

namespace LineLedger.Json

section Escape

inductive Spelling (c : Char) : List Char → Prop where
  | plain (visible : ¬ c.toNat < 0x20) (quote : c ≠ '"') (backslash : c ≠ '\\') : Spelling c [c]
  | short (letter : Char) (meant : shortEscape? letter = some c) (other : letter ≠ 'u') :
      Spelling c ['\\', letter]
  | code (low : c.toNat < 0x20) : Spelling c ('\\' :: 'u' :: Text.hexDigits 4 c.toNat)

theorem spelling_escapeChar (c : Char) : Spelling c (escapeChar c) := by
  unfold escapeChar
  split
  case h_8 =>
    split
    · rename_i low
      exact .code low
    · rename_i visible
      exact .plain visible (by assumption) (by assumption)
  all_goals exact .short _ rfl (by decide)

theorem hexDigits_four (n : Nat) : ∃ a b c d, Text.hexDigits 4 n = [a, b, c, d] :=
  ⟨_, _, _, _, rfl⟩

theorem unescape_noCode {a b c d : Char} (none : Text.hexNumber? [a, b, c, d] = none)
    (rest : List Char) : unescape ('\\' :: 'u' :: a :: b :: c :: d :: rest) = .none := by
  by_cases again : ∃ e f g h after, rest = '\\' :: 'u' :: e :: f :: g :: h :: after
  · obtain ⟨e, f, g, h, after, rfl⟩ := again
    rw [unescape.eq_2, none]
  · rw [unescape.eq_3, none]
    exact fun e f g h after same => again ⟨e, f, g, h, after, same⟩

theorem unescape_code {a b c d : Char} {n : Nat} (number : Text.hexNumber? [a, b, c, d] = some n)
    (high : isHighSurrogate n = false) (low : isLowSurrogate n = false) (rest : List Char) :
    unescape ('\\' :: 'u' :: a :: b :: c :: d :: rest) =
      (unescape rest).map (Char.ofNat n :: ·) := by
  by_cases again : ∃ e f g h after, rest = '\\' :: 'u' :: e :: f :: g :: h :: after
  · obtain ⟨e, f, g, h, after, rfl⟩ := again
    cases next : Text.hexNumber? [e, f, g, h] with
    | none => rw [unescape.eq_2, number, next, unescape_noCode next, Option.map_none]
    | some m => simp only [unescape.eq_2, number, next, high, low, Bool.false_and, Bool.or_false,
        Bool.false_eq_true, if_false]
  · rw [unescape.eq_3, number]
    · simp only [high, low, Bool.or_false, Bool.false_eq_true, if_false]
    · exact fun e f g h after same => again ⟨e, f, g, h, after, same⟩

theorem hexNumber?_code {c : Char} (low : c.toNat < 0x20) :
    Text.hexNumber? (Text.hexDigits 4 c.toNat) = some c.toNat := by
  have within : c.toNat < Nat.pow 16 4 := Nat.lt_trans low (by decide)
  simpa using Text.hexNumber?_hexDigits id Text.hexValue?_digitChar within

theorem Spelling.unescape_append {c : Char} {spelling : List Char} (spelled : Spelling c spelling)
    (rest : List Char) : unescape (spelling ++ rest) = (unescape rest).map (c :: ·) := by
  cases spelled with
  | plain _ _ backslash => rw [List.singleton_append, unescape.eq_6] <;> simp [backslash]
  | short letter meant other =>
      rw [List.cons_append, List.singleton_append, unescape.eq_4, meant] <;> simp [other]
  | code low =>
      have number := hexNumber?_code low
      obtain ⟨a, b, d, e, digits⟩ := hexDigits_four c.toNat
      rw [digits] at number
      have high : isHighSurrogate c.toNat = false := by
        simp only [isHighSurrogate, Bool.and_eq_false_imp, decide_eq_true_eq,
          decide_eq_false_iff_not]
        omega
      have second : isLowSurrogate c.toNat = false := by
        simp only [isLowSurrogate, Bool.and_eq_false_imp, decide_eq_true_eq,
          decide_eq_false_iff_not]
        omega
      rw [digits]
      simpa using unescape_code number high second rest

theorem unescape_escape (text : List Char) : unescape (escape text) = some text := by
  induction text with
  | nil => rfl
  | cons c rest ih =>
      rw [escape, List.flatMap_cons, ← escape, (spelling_escapeChar c).unescape_append, ih,
        Option.map_some]

theorem escapeChar_digit {c : Char} (digit : c.isDigit = true) : escapeChar c = [c] := by
  unfold escapeChar
  split
  case h_8 =>
    exact if_neg (Nat.not_lt.2 (Nat.le_trans (by decide) (Char.isDigit_iff_toNat.1 digit).1))
  all_goals cases digit

theorem escape_digits {text : List Char} (all : ∀ c ∈ text, c.isDigit = true) :
    escape text = text := by
  induction text with
  | nil => rfl
  | cons c rest ih =>
      have ⟨digit, others⟩ := List.forall_mem_cons.1 all
      rw [escape, List.flatMap_cons, ← escape, escapeChar_digit digit, ih others]
      rfl

theorem isHexDigit_hexDigits (width n : Nat) :
    ∀ c ∈ Text.hexDigits width n, Text.isHexDigit c = true := by
  induction width generalizing n with
  | zero => exact fun c member => nomatch member
  | succ width ih =>
      intro c member
      rcases List.mem_append.1 member with upper | last
      · exact ih _ c upper
      · rw [List.mem_singleton.1 last, Text.isHexDigit,
          Text.hexValue?_digitChar _ (Nat.mod_lt n (by decide))]
        rfl

theorem Spelling.takeString_append {c : Char} {spelling : List Char} (spelled : Spelling c spelling)
    (rest : List Char) : takeString (spelling ++ rest) =
      (takeString rest).map fun (s, after) => (spelling ++ s, after) := by
  cases spelled with
  | plain visible quote backslash =>
      rw [List.singleton_append, takeString.eq_5] <;> simp [visible, quote, backslash]
  | short letter meant other =>
      rw [List.cons_append, List.singleton_append, takeString.eq_4] <;>
        simp [other, isShortEscape, meant]
  | code low =>
      have all := isHexDigit_hexDigits 4 c.toNat
      obtain ⟨a, b, d, e, digits⟩ := hexDigits_four c.toNat
      rw [digits] at all ⊢
      rw [← List.all_eq_true] at all
      simp only [List.cons_append, List.nil_append, takeString.eq_3, all, if_true]

theorem takeString_escape (text rest : List Char) :
    takeString (escape text ++ '"' :: rest) = some (escape text, rest) := by
  induction text with
  | nil => rfl
  | cons c more ih =>
      rw [escape, List.flatMap_cons, ← escape, List.append_assoc,
        (spelling_escapeChar c).takeString_append, ih, Option.map_some]

end Escape

section Number

def Stops (rest : List Char) : Prop :=
  ∀ c, rest.head? = some c → c.isDigit = false ∧ c ≠ '.' ∧ c ≠ 'e' ∧ c ≠ 'E'

theorem natural?_toDigits {n : Nat} (small : n < numberBound) :
    natural? (Nat.toDigits 10 n) = some n := by
  have digits : (Nat.toDigits 10 n).all Char.isDigit = true :=
    List.all_eq_true.2 (Text.isDigit_toDigits n)
  have lead : Nat.toDigits 10 n = ['0'] ∨ (Nat.toDigits 10 n).head? ≠ some '0' := by
    rcases Nat.eq_zero_or_pos n with rfl | positive
    · exact .inl rfl
    · exact .inr (Text.head?_toDigits positive)
  have value : (Nat.toDigits 10 n).foldl (fun n c => 10 * n + (c.toNat - '0'.toNat)) 0 = n :=
    Nat.ofDigitChars_ten_toDigits
  unfold natural?
  split
  · rename_i none
    exact absurd none Nat.toDigits_ne_nil
  · rw [if_pos (by simpa [digits] using lead)]
    simp only [value, small, if_true]

variable {rest : List Char}

theorem takeDigits_append {digits : List Char} (all : ∀ c ∈ digits, c.isDigit = true)
    (stops : Stops rest) : takeDigits (digits ++ rest) = (digits, rest) := by
  have ends : ∀ c, rest.head? = some c → c.isDigit = false := fun c first => (stops c first).1
  rw [takeDigits, Text.takeWhile_append_of_stops all ends, Text.dropWhile_append_of_stops all ends]

theorem takeWhole_toDigits (n : Nat) (stops : Stops rest) :
    takeWhole (Nat.toDigits 10 n ++ rest) = some (Nat.toDigits 10 n, rest) := by
  rcases Nat.eq_zero_or_pos n with rfl | positive
  · rfl
  · have taken := takeDigits_append (Text.isDigit_toDigits n) stops
    have lead := Text.head?_toDigits positive
    obtain ⟨first, digits, split⟩ :=
      List.exists_cons_of_ne_nil (Nat.toDigits_ne_nil (n := n) (b := 10))
    rw [split] at lead taken ⊢
    rw [List.cons_append, takeWhole.eq_2, ← List.cons_append, taken]
    intro _ same
    exact lead (congrArg List.head? same)

theorem takeFraction_stops (stops : Stops rest) : takeFraction rest = some ([], rest) := by
  unfold takeFraction
  split
  · exact absurd rfl (stops '.' rfl).2.1
  · rfl

theorem takeExponent_stops (stops : Stops rest) : takeExponent rest = some ([], rest) := by
  unfold takeExponent
  cases rest with
  | nil => rfl
  | cons c more =>
      have ⟨_, _, small, capital⟩ := stops c rfl
      simp [small, capital]

theorem takeNumber_toDigits (n : Nat) (stops : Stops rest) :
    takeNumber (Nat.toDigits 10 n ++ rest) = some (Nat.toDigits 10 n, rest) := by
  have whole := takeWhole_toDigits n stops
  have all := Text.isDigit_toDigits n
  obtain ⟨lead, digits, split⟩ :=
    List.exists_cons_of_ne_nil (Nat.toDigits_ne_nil (n := n) (b := 10))
  rw [split] at whole all ⊢
  have sign : lead ≠ '-' := by
    rintro rfl
    cases all '-' (List.mem_cons_self ..)
  rw [List.cons_append] at whole ⊢
  unfold takeNumber
  split
  rename_i minus text unsigned
  split at unsigned
  · rename_i same
    exact absurd (List.cons.inj same).1 sign
  · cases unsigned
    simp [whole, takeFraction_stops stops, takeExponent_stops stops]

end Number

end LineLedger.Json
