import PullPlan.Proofs.Number.Grammar

/-!
# Texts that look like a number

`IsLookalike` lists texts that are close to a number literal and are none
(`IsLookalike.not_isLiteral`): the names that other readers of numbers know, underscores, units,
doubled signs, signed base marks, and decimals without a digit in front. What a literal can be told
from is its characters: one that is in no decimal and behind no base mark occurs in infinity alone
(`IsLiteral.eq_infinity`).

`number?_grammar` is the main statement about acceptance: literals and nothing else.
-/

namespace PullPlan
namespace Literal

/-! ### The forms -/

/-- The names that readers of numbers know, in small letters. -/
def numberNames : List Text := ["nan".toList, "inf".toList, "infinity".toList]

/-- The forms of texts that look like a literal and are none. -/
inductive IsLookalike : Text → Prop
  /-- A name of a number, in other letters than those of infinity. -/
  | name {sign word : Text} (hsign : IsSign sign) (hword : Text.toLowerAscii word ∈ numberNames)
    (hne : word ≠ "Infinity".toList) : IsLookalike (sign ++ word)
  /-- A text with an underscore. -/
  | underscore {t : Text} (h : '_' ∈ t) : IsLookalike t
  /-- A decimal with a character behind it that is in no decimal, unless that is a mark behind a
  zero. -/
  | suffix {sign mantissa exponent rest : Text} {c : Char} (hsign : IsSign sign)
    (hmantissa : IsMantissa mantissa) (hexponent : IsExponent exponent)
    (hc : isDecimalChar c = false)
    (hmark : mantissa ++ exponent = ['0'] → ∀ radix ∈ radices, c ∉ radix.marks) :
    IsLookalike (sign ++ (mantissa ++ exponent ++ c :: rest))
  /-- Two signs. -/
  | signs {a b : Char} {rest : Text} (ha : IsSign [a]) (hb : IsSign [b]) :
    IsLookalike (a :: b :: rest)
  /-- An integer with a base mark behind a sign. -/
  | signedBase {a : Char} {t : Text} (ha : IsSign [a]) (h : IsBased t) : IsLookalike (a :: t)
  /-- A point alone. -/
  | point {sign : Text} (hsign : IsSign sign) : IsLookalike (sign ++ ['.'])
  /-- An exponent alone. -/
  | exponent {sign rest : Text} {mark : Char} (hsign : IsSign sign)
    (hmark : mark = 'e' ∨ mark = 'E') : IsLookalike (sign ++ mark :: rest)

/-- The characters of integers with a base mark. -/
def basedChars : Text := "0123456789abcdefABCDEFxXoO".toList

theorem IsBased.mem_basedChars {t : Text} (h : IsBased t) : ∀ c ∈ t, c ∈ basedChars := by
  have hall : (radices.all fun radix =>
      radix.marks.all basedChars.contains && radix.symbols.all basedChars.contains) = true := by
    decide
  obtain ⟨hradix, hmark, -, hdigits⟩ := h
  have hchars := List.all_eq_true.1 hall _ hradix
  rw [Bool.and_eq_true, List.all_eq_true, List.all_eq_true] at hchars
  refine List.forall_mem_cons.2 ⟨by decide, List.forall_mem_cons.2 ⟨?_, fun c hc => ?_⟩⟩
  · simpa using hchars.1 _ hmark
  · simpa using hchars.2 c (hdigits c hc)

/-- A character that is in no decimal and behind no base mark can only be in infinity. -/
theorem IsLiteral.eq_infinity {t : Text} (h : IsLiteral t) {c : Char} (hc : c ∈ t)
    (hdecimal : isDecimalChar c = false) (hbased : c ∉ basedChars) :
    ∃ sign, IsSign sign ∧ t = sign ++ "Infinity".toList := by
  cases h with
  | nothing => contradiction
  | based h => exact absurd (h.mem_basedChars c hc) hbased
  | signed hsign h =>
    cases h with
    | infinity => exact ⟨_, hsign, rfl⟩
    | decimal hmantissa hexponent =>
      exfalso
      rcases List.mem_append.1 hc with hc | hc
      · rcases hsign with rfl | rfl | rfl
        · contradiction
        · exact absurd hdecimal (List.mem_singleton.1 hc ▸ by decide)
        · exact absurd hdecimal (List.mem_singleton.1 hc ▸ by decide)
      · rw [isDecimalChar_of_mem hmantissa hexponent hc] at hdecimal
        contradiction

/-- Only the two letters have this small form. -/
theorem toLower_eq_n {c : Char} (h : c.toLower = 'n') : c = 'n' ∨ c = 'N' := by
  by_cases hcapital : 65 ≤ c.toNat ∧ c.toNat ≤ 90
  · have hall : ∀ k : Fin 26, (Char.ofNat (65 + k.val)).toLower = 'n' →
        Char.ofNat (65 + k.val) = 'N' := by
      decide
    have hc : Char.ofNat (65 + (c.toNat - 65)) = c := by
      rw [Nat.add_sub_cancel' hcapital.1, Char.ofNat_toNat]
    have hletter := hall ⟨c.toNat - 65, by omega⟩
    rw [hc] at hletter
    exact .inr (hletter h)
  · have hsame : c.toLower = c := dif_neg hcapital
    exact .inl (hsame ▸ h)

/-- Every name of a number has the letter `n`. -/
theorem exists_n_of_mem_numberNames {word : Text} (h : Text.toLowerAscii word ∈ numberNames) :
    ∃ c ∈ word, isDecimalChar c = false ∧ c ∉ basedChars := by
  have hall : (numberNames.all fun name => name.contains 'n') = true := by decide
  have hmem : 'n' ∈ Text.toLowerAscii word := by simpa using List.all_eq_true.1 hall _ h
  obtain ⟨c, hc, hlower⟩ := List.mem_map.1 hmem
  refine ⟨c, hc, ?_⟩
  rcases toLower_eq_n hlower with rfl | rfl <;> decide

/-- No name of a number starts with a sign. -/
theorem head_ne_sign_of_mem_numberNames {word : Text} (h : Text.toLowerAscii word ∈ numberNames)
    {c : Char} (hc : word.head? = some c) : c ≠ '+' ∧ c ≠ '-' := by
  have hall : (numberNames.all fun name => name.all fun c => c ≠ '+' && c ≠ '-') = true := by decide
  have hlower : c.toLower ∈ Text.toLowerAscii word :=
    List.mem_map_of_mem (List.mem_of_mem_head? hc)
  have hne := List.all_eq_true.1 (List.all_eq_true.1 hall _ h) _ hlower
  constructor
  · rintro rfl
    exact absurd hne (by decide)
  · rintro rfl
    exact absurd hne (by decide)

/-- What follows the sign of a literal is unsigned; without a sign it may have a base mark. -/
theorem isUnsigned_or_isBased {sign t : Text} (hsign : IsSign sign) (hne : t ≠ [])
    (hhead : sign = [] → ∀ c, t.head? = some c → c ≠ '+' ∧ c ≠ '-')
    (h : IsLiteral (sign ++ t)) : IsUnsigned t ∨ (sign = [] ∧ IsBased t) := by
  generalize hu : sign ++ t = u at h
  cases h with
  | nothing => exact absurd (List.append_eq_nil_iff.1 hu).2 hne
  | based h =>
    rcases hsign with rfl | rfl | rfl
    · rw [List.nil_append] at hu
      exact .inr ⟨rfl, hu ▸ h⟩
    · cases h
      exact absurd (List.cons.inj hu).1 (by decide)
    · cases h
      exact absurd (List.cons.inj hu).1 (by decide)
  | signed hsign' h =>
    have heq := sign_append_inj hsign hsign' hhead (fun _ _ hc => h.head_ne_sign hc) hu
    exact .inl (heq.2 ▸ h)

theorem IsUnsigned.not_isBased {t : Text} (h : IsUnsigned t) : ¬IsBased t := by
  intro hbased
  obtain ⟨base, digits, hbase, -⟩ := isBased_iff.1 hbased
  have hnone := base?_signed (.inl rfl) h
  rw [List.nil_append, hbase] at hnone
  contradiction

theorem IsMantissa.exists_digit {t : Text} (h : IsMantissa t) : ∃ c ∈ t, isAsciiDigit c = true := by
  obtain ⟨digits, hdigits, hsub⟩ : ∃ digits, IsDigits digits ∧ digits ⊆ t := by
    cases h with
    | whole h => exact ⟨_, h, fun _ hc => hc⟩
    | point h hfraction => exact ⟨_, h, List.subset_append_left _ _⟩
    | fraction h => exact ⟨_, h, List.subset_cons_self _ _⟩
  obtain ⟨c, hc⟩ := List.exists_mem_of_ne_nil _ hdigits.1
  exact ⟨c, hsub hc, hdigits.2 c hc⟩

/-- What stands behind a decimal ends it, unless it is the mark of a base. -/
theorem not_isLiteral_suffix {sign mantissa exponent rest : Text} {c : Char} (hsign : IsSign sign)
    (hmantissa : IsMantissa mantissa) (hexponent : IsExponent exponent)
    (hc : isDecimalChar c = false)
    (hmark : mantissa ++ exponent = ['0'] → ∀ radix ∈ radices, c ∉ radix.marks) :
    ¬IsLiteral (sign ++ (mantissa ++ exponent ++ c :: rest)) := by
  intro hliteral
  have hdecimal : IsUnsigned (mantissa ++ exponent) := .decimal hmantissa hexponent
  obtain ⟨d, tail, hcons, -⟩ := hdecimal.exists_cons
  have hhead : ∀ a, (mantissa ++ exponent ++ c :: rest).head? = some a → a ≠ '+' ∧ a ≠ '-' := by
    intro a ha
    rw [hcons] at ha hdecimal
    exact hdecimal.head_ne_sign ha
  rcases isUnsigned_or_isBased hsign (by simp) (fun _ => hhead) hliteral with h | ⟨-, h⟩
  · generalize ht : mantissa ++ exponent ++ c :: rest = t at h
    cases h with
    | infinity =>
      -- The decimal starts with a digit or a point.
      obtain ⟨a, more, rfl, ha⟩ := hmantissa.exists_cons
      obtain rfl : a = 'I' := (List.cons.inj ht).1
      exact absurd ha (by decide)
    | decimal hmantissa' hexponent' =>
      have hmem : c ∈ mantissa ++ exponent ++ c :: rest := by simp
      rw [ht] at hmem
      rw [isDecimalChar_of_mem hmantissa' hexponent' hmem] at hc
      contradiction
  · generalize ht : mantissa ++ exponent ++ c :: rest = t at h
    obtain ⟨hradix, hmark', -, -⟩ := h
    rw [hcons, List.cons_append, List.cons.injEq] at ht
    obtain ⟨rfl, ht⟩ := ht
    cases tail with
    | nil =>
      obtain ⟨rfl, -⟩ := List.cons.inj ht
      exact hmark hcons _ hradix hmark'
    | cons a tail =>
      -- The mark would stand in the decimal.
      obtain ⟨rfl, -⟩ := List.cons.inj ht
      have hmem : a ∈ mantissa ++ exponent := by simp [hcons]
      have hchar := isDecimalChar_of_mem hmantissa hexponent hmem
      rw [isDecimalChar_of_mem_marks hradix hmark'] at hchar
      contradiction

/-- A text that looks like a literal is none. -/
theorem IsLookalike.not_isLiteral {t : Text} (h : IsLookalike t) : ¬IsLiteral t := by
  intro hliteral
  cases h with
  | name hsign hword hne =>
    obtain ⟨c, hc, hdecimal, hbased⟩ := exists_n_of_mem_numberNames hword
    obtain ⟨sign', hsign', heq⟩ :=
      hliteral.eq_infinity (List.mem_append_right _ hc) hdecimal hbased
    have hword' := sign_append_inj hsign hsign'
      (fun _ _ hc => head_ne_sign_of_mem_numberNames hword hc)
      (fun _ _ hc => IsUnsigned.infinity.head_ne_sign hc) heq
    exact hne hword'.2
  | underscore h =>
    obtain ⟨sign, hsign, rfl⟩ := hliteral.eq_infinity h (by decide) (by decide)
    rcases hsign with rfl | rfl | rfl <;> exact absurd h (by decide)
  | suffix hsign hmantissa hexponent hc hmark =>
    exact not_isLiteral_suffix hsign hmantissa hexponent hc hmark hliteral
  | @signs a b rest ha hb =>
    rcases isUnsigned_or_isBased ha (List.cons_ne_nil b rest) nofun hliteral with h | ⟨hnil, -⟩
    · have hhead := h.head_ne_sign rfl
      simp [IsSign, hhead] at hb
    · contradiction
  | @signedBase a t ha h =>
    have hne : t ≠ [] := by
      rintro rfl
      contradiction
    rcases isUnsigned_or_isBased ha hne nofun hliteral with hunsigned | ⟨hnil, -⟩
    · exact hunsigned.not_isBased h
    · contradiction
  | point hsign =>
    have hhead : ∀ c, ['.'].head? = some c → c ≠ '+' ∧ c ≠ '-' := by
      rintro c ⟨⟩
      decide
    rcases isUnsigned_or_isBased hsign (by simp) (fun _ => hhead) hliteral with h | ⟨-, h⟩
    · generalize ht : ['.'] = t at h
      cases h with
      | infinity => exact absurd (List.cons.inj ht).1 (by decide)
      | decimal hmantissa hexponent =>
        obtain ⟨c, hc, hdigit⟩ := hmantissa.exists_digit
        have hmem : c ∈ ['.'] := ht ▸ List.mem_append_left _ hc
        obtain rfl := List.mem_singleton.1 hmem
        exact absurd hdigit (by decide)
    · cases h
  | @exponent sign rest mark hsign hmark =>
    have hhead : ∀ c, (mark :: rest).head? = some c → c ≠ '+' ∧ c ≠ '-' := by
      rintro c ⟨⟩
      rcases hmark with rfl | rfl <;> decide
    rcases isUnsigned_or_isBased hsign (by simp) (fun _ => hhead) hliteral with h | ⟨-, h⟩
    · obtain ⟨c, more, hcons, hc⟩ := h.exists_cons
      obtain rfl := (List.cons.inj hcons).1
      rcases hmark with rfl | rfl <;> exact absurd hc (by decide)
    · cases h
      rcases hmark with h | h <;> exact absurd h (by decide)

/-- **A text is taken for a number just if it is a literal of the grammar**, blanks around it aside.
In particular none of the texts that merely look like one is. -/
theorem number?_grammar (raw : Text) :
    ((number? raw).isSome = true ↔ IsLiteral (Text.trim raw)) ∧
      (IsLookalike (Text.trim raw) → number? raw = none) := by
  refine ⟨number?_isSome_iff, fun h => ?_⟩
  rw [← Option.not_isSome_iff_eq_none, number?_isSome_iff]
  exact h.not_isLiteral

/-- A number with a unit. -/
def lengthInPixels : Text := " 12px\n".toList

theorem isLookalike_lengthInPixels : IsLookalike (Text.trim lengthInPixels) := by
  have htrim : Text.trim lengthInPixels = [] ++ ("12".toList ++ [] ++ 'p' :: ['x']) := by decide
  have hdigits : IsDigits "12".toList := ⟨by decide, List.all_eq_true.1 (by decide)⟩
  rw [htrim]
  exact .suffix (.inl rfl) (.whole hdigits) .nothing (by decide) (by decide)

theorem number?_grammar_lengthInPixels :
    IsLookalike (Text.trim lengthInPixels) ∧ number? lengthInPixels = none :=
  ⟨isLookalike_lengthInPixels, (number?_grammar lengthInPixels).2 isLookalike_lengthInPixels⟩

end Literal
end PullPlan
