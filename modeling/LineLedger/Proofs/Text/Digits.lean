import LineLedger.Text.Hex

set_option autoImplicit false

namespace LineLedger.Text

section Hex

theorem hexNumber?_concat (digits : List Char) (c : Char) :
    hexNumber? (digits ++ [c]) =
      (hexNumber? digits).bind fun n => (hexValue? c).map (16 * n + ·) := by
  simp [hexNumber?]

theorem hexNumber?_hexDigits (spell : Char → Char)
    (faithful : ∀ digit < 16, hexValue? (spell (Nat.digitChar digit)) = some digit) {width n : Nat}
    (within : n < Nat.pow 16 width) : hexNumber? ((hexDigits width n).map spell) = some n := by
  induction width generalizing n with
  | zero =>
      have none : n = 0 := by simpa using within
      rw [none]
      rfl
  | succ width ih =>
      have upper : n / 16 < Nat.pow 16 width := by
        change n < Nat.pow 16 width * 16 at within
        exact Nat.div_lt_of_lt_mul (by rwa [Nat.mul_comm])
      rw [hexDigits, List.map_append, List.map_singleton, hexNumber?_concat, ih upper,
        Option.bind_some, faithful _ (Nat.mod_lt n (by decide)), Option.map_some,
        Nat.div_add_mod]

theorem hexValue?_digitChar : ∀ digit < 16, hexValue? (Nat.digitChar digit) = some digit := by
  decide

theorem hexValue?_toUpper_digitChar :
    ∀ digit < 16, hexValue? (Nat.digitChar digit).toUpper = some digit := by
  decide

end Hex

section Decimal

theorem isDigit_toDigits (n : Nat) : ∀ c ∈ Nat.toDigits 10 n, c.isDigit = true :=
  fun _ member => Nat.isDigit_of_mem_toDigits (by decide) (by decide) member

theorem head?_toDigits {n : Nat} (positive : 0 < n) : (Nat.toDigits 10 n).head? ≠ some '0' := by
  induction n using Nat.strongRecOn with
  | ind n ih =>
      by_cases small : n < 10
      · rw [Nat.toDigits_of_lt_base small]
        simp [Nat.ne_of_gt positive]
      · have upper := ih (n / 10) (by omega) (by omega)
        obtain ⟨first, rest, digits⟩ :=
          List.exists_cons_of_ne_nil (Nat.toDigits_ne_nil (n := n / 10) (b := 10))
        rw [Nat.toDigits_of_base_le (by decide) (Nat.not_lt.1 small), digits]
        rwa [digits] at upper

end Decimal

end LineLedger.Text
