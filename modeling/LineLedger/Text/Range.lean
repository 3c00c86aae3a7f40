set_option autoImplicit false

namespace LineLedger.Text

-- Membership stops at the first range that starts above the code point.
def inRanges (code : Nat) : List (Nat × Nat) → Bool
  | [] => false
  | (low, high) :: rest =>
    if code < low then false else if code ≤ high then true else inRanges code rest

@[simp] theorem inRanges_nil (code : Nat) : inRanges code [] = false := rfl

theorem mem_of_inRanges {code : Nat} {ranges : List (Nat × Nat)}
    (found : inRanges code ranges = true) : ∃ r ∈ ranges, r.1 ≤ code ∧ code ≤ r.2 := by
  induction ranges with
  | nil => simp at found
  | cons r rest ih =>
      obtain ⟨low, high⟩ := r
      simp only [inRanges] at found
      split at found
      · simp at found
      · split at found
        · exact ⟨(low, high), by simp, by omega, by assumption⟩
        · obtain ⟨r, present, bounds⟩ := ih found
          exact ⟨r, List.mem_cons_of_mem _ present, bounds⟩

end LineLedger.Text
