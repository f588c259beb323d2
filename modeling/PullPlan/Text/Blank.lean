import PullPlan.Text.Basic

/-!
# Blank characters

The Unicode property White_Space, and trimming by it. The property holds 25 characters; the zero
width space U+200B and the byte order mark U+FEFF are not among them.

* `isBlank` is the property.
* `Text.trim` takes blank characters off both ends. `Text.trimStart_eq` and `Text.trimEnd_eq` say
  that nothing but blank characters goes.
-/

namespace PullPlan

/-- The ranges of the property White_Space, both ends included. -/
def blankRanges : List (Nat × Nat) :=
  [(0x09, 0x0D), (0x20, 0x20), (0x85, 0x85), (0xA0, 0xA0), (0x1680, 0x1680), (0x2000, 0x200A),
   (0x2028, 0x2029), (0x202F, 0x202F), (0x205F, 0x205F), (0x3000, 0x3000)]

-- The table has 25 characters.
example :
    (blankRanges.flatMap fun range => List.range' range.1 (range.2 + 1 - range.1)).length = 25 := by
  decide

/-- Whether a character has the property White_Space. -/
def isBlank (c : Char) : Bool :=
  blankRanges.any fun range => range.1 ≤ c.toNat && c.toNat ≤ range.2

namespace Text

/-- Takes the blank characters off the front. -/
def trimStart (t : Text) : Text := t.dropWhile isBlank

/-- Takes the blank characters off the end. -/
def trimEnd : Text → Text
  | [] => []
  | c :: t =>
    match trimEnd t with
    | [] => if isBlank c then [] else [c]
    | kept => c :: kept

/-- Takes the blank characters off both ends. -/
def trim (t : Text) : Text := trimEnd (trimStart t)

theorem trimEnd_eq (t : Text) : ∃ tail, t = trimEnd t ++ tail ∧ ∀ c ∈ tail, isBlank c = true := by
  induction t with
  | nil => exact ⟨[], by simp [trimEnd]⟩
  | cons c t ih =>
    obtain ⟨tail, ht, htail⟩ := ih
    rw [trimEnd]
    split
    · rename_i h
      rw [h, List.nil_append] at ht
      by_cases hc : isBlank c = true
      · refine ⟨c :: tail, ?_, ?_⟩
        · rw [if_pos hc, ← ht, List.nil_append]
        · intro d hd
          rcases List.mem_cons.1 hd with rfl | hd
          · exact hc
          · exact htail d hd
      · refine ⟨tail, ?_, htail⟩
        rw [if_neg hc, ← ht, List.cons_append, List.nil_append]
    · exact ⟨tail, by rw [List.cons_append, ← ht], htail⟩

theorem trimStart_eq (t : Text) :
    ∃ head, t = head ++ trimStart t ∧ ∀ c ∈ head, isBlank c = true := by
  refine ⟨t.takeWhile isBlank, List.takeWhile_append_dropWhile.symm, fun c hc => ?_⟩
  exact List.all_eq_true.1 List.all_takeWhile c hc

end Text
end PullPlan
