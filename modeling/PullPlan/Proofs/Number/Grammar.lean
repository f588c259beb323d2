import Mathlib.Tactic.SplitIfs
import PullPlan.Number.Literal
import PullPlan.Proofs.Text.Digits

/-!
# The grammar of number literals

`IsLiteral` is the grammar of the numeric texts of an environment line: nothing at all, digits of a
base behind its mark, and infinity or a decimal behind an optional sign. Each part of the grammar
has an iff with the function that reads it, and `number?_isSome_iff` puts them together: a text is
taken for a number just if it is such a literal, blanks around it aside.
-/

namespace PullPlan

/-! ### The grammar -/

/-- Whether a text is an optional sign. -/
def IsSign (t : Text) : Prop := t = [] ∨ t = ['+'] ∨ t = ['-']

/-- Whether a text is one ASCII digit or more. -/
def IsDigits (t : Text) : Prop := t ≠ [] ∧ ∀ c ∈ t, isAsciiDigit c = true

theorem natural?_isSome_iff {t : Text} : (Text.natural? t).isSome = true ↔ IsDigits t := by
  simp [Option.isSome_iff_exists, Text.natural?_eq_some_iff, IsDigits]

/-- What digits start with is no sign. -/
theorem IsDigits.head_ne_sign {t : Text} (h : IsDigits t) {c : Char} (hc : t.head? = some c) :
    c ≠ '+' ∧ c ≠ '-' := by
  have hdigit : isAsciiDigit c = true := h.2 c (List.mem_of_head? hc)
  exact ⟨ne_of_isAsciiDigit hdigit (by decide), ne_of_isAsciiDigit hdigit (by decide)⟩

/-- A text is a sign and what follows it; if it is taken to have none, it starts with none. -/
theorem exists_sign (t : Text) :
    ∃ sign rest, IsSign sign ∧ (sign = [] → ∀ c, rest.head? = some c → c ≠ '+' ∧ c ≠ '-') ∧
      t = sign ++ rest := by
  by_cases hplus : ∃ rest, t = '+' :: rest
  · obtain ⟨rest, rfl⟩ := hplus
    exact ⟨['+'], rest, .inr (.inl rfl), by simp, rfl⟩
  by_cases hminus : ∃ rest, t = '-' :: rest
  · obtain ⟨rest, rfl⟩ := hminus
    exact ⟨['-'], rest, .inr (.inr rfl), by simp, rfl⟩
  refine ⟨[], t, .inl rfl, fun _ c hc => ?_, rfl⟩
  obtain ⟨rest, rfl⟩ := List.head?_eq_some_iff.1 hc
  constructor
  · rintro rfl
    exact hplus ⟨rest, rfl⟩
  · rintro rfl
    exact hminus ⟨rest, rfl⟩

/-- Two texts behind signs agree if they agree with their signs, as long as neither text starts with
a sign where none stands before it. -/
theorem sign_append_inj {sign sign' t t' : Text} (hsign : IsSign sign) (hsign' : IsSign sign')
    (hhead : sign = [] → ∀ c, t.head? = some c → c ≠ '+' ∧ c ≠ '-')
    (hhead' : sign' = [] → ∀ c, t'.head? = some c → c ≠ '+' ∧ c ≠ '-')
    (h : sign ++ t = sign' ++ t') : sign = sign' ∧ t = t' := by
  rcases hsign with rfl | rfl | rfl <;> rcases hsign' with rfl | rfl | rfl <;>
    simp only [List.nil_append, List.cons_append, List.cons.injEq, true_and] at h
  · exact ⟨rfl, h⟩
  · exact absurd rfl (hhead rfl '+' (by rw [h]; rfl)).1
  · exact absurd rfl (hhead rfl '-' (by rw [h]; rfl)).2
  · exact absurd rfl (hhead' rfl '+' (by rw [← h]; rfl)).1
  · exact ⟨rfl, h⟩
  · exact absurd h.1 (by decide)
  · exact absurd rfl (hhead' rfl '-' (by rw [← h]; rfl)).2
  · exact absurd h.1 (by decide)
  · exact ⟨rfl, h⟩

namespace Literal

/-- A base of integers. -/
structure Radix where
  /-- The number that it is. -/
  base : Nat
  /-- The marks that announce it behind a zero. -/
  marks : Text
  /-- Its digits. -/
  symbols : Text

/-- Base sixteen; letters count in either case. -/
def hexadecimal : Radix := ⟨16, "xX".toList, "0123456789abcdefABCDEF".toList⟩

/-- Base eight. -/
def octal : Radix := ⟨8, "oO".toList, "01234567".toList⟩

/-- Base two. -/
def binary : Radix := ⟨2, "bB".toList, "01".toList⟩

/-- The bases that have a mark. -/
def radices : List Radix := [hexadecimal, octal, binary]

/-- An integer behind the mark of its base. -/
inductive IsBased : Text → Prop
  | intro {radix : Radix} {mark : Char} {digits : Text} (hradix : radix ∈ radices)
    (hmark : mark ∈ radix.marks) (hne : digits ≠ []) (hdigits : ∀ c ∈ digits, c ∈ radix.symbols) :
    IsBased ('0' :: mark :: digits)

/-- Digits with an optional point behind, among or before them. -/
inductive IsMantissa : Text → Prop
  | whole {digits : Text} (h : IsDigits digits) : IsMantissa digits
  | point {digits fraction : Text} (h : IsDigits digits)
    (hfraction : ∀ c ∈ fraction, isAsciiDigit c = true) : IsMantissa (digits ++ '.' :: fraction)
  | fraction {digits : Text} (h : IsDigits digits) : IsMantissa ('.' :: digits)

/-- Nothing, or a mark and digits behind an optional sign. -/
inductive IsExponent : Text → Prop
  | nothing : IsExponent []
  | marked {mark : Char} {sign digits : Text} (hmark : mark = 'e' ∨ mark = 'E')
    (hsign : IsSign sign) (h : IsDigits digits) : IsExponent (mark :: (sign ++ digits))

/-- A decimal or infinity, without a sign. -/
inductive IsUnsigned : Text → Prop
  | infinity : IsUnsigned "Infinity".toList
  | decimal {mantissa exponent : Text} (hmantissa : IsMantissa mantissa)
    (hexponent : IsExponent exponent) : IsUnsigned (mantissa ++ exponent)

/-- A number literal without blanks around it. -/
inductive IsLiteral : Text → Prop
  | nothing : IsLiteral []
  | based {t : Text} (h : IsBased t) : IsLiteral t
  | signed {sign t : Text} (hsign : IsSign sign) (h : IsUnsigned t) : IsLiteral (sign ++ t)

/-! ### Integers with a base mark -/

/-- The digits of a base are its symbols. -/
theorem digitValue?_isSome_iff {radix : Radix} (h : radix ∈ radices) (c : Char) :
    (digitValue? radix.base c).isSome = true ↔ c ∈ radix.symbols := by
  -- Both sides are conditions on the code of the character.
  have hcode : ∀ d : Char, c = d ↔ c.toNat = d.toNat := fun d => Char.toNat_inj.symm
  have hle : ∀ d : Char, d ≤ c ↔ d.toNat ≤ c.toNat := fun d => Iff.rfl
  have hle' : ∀ d : Char, c ≤ d ↔ c.toNat ≤ d.toNat := fun d => Iff.rfl
  simp only [radices, List.mem_cons, List.not_mem_nil, or_false] at h
  rcases h with rfl | rfl | rfl
  · show (digitValue? 16 c).isSome = true ↔ c ∈ "0123456789abcdefABCDEF".toList
    simp [digitValue?, hcode, hle, hle']
    split_ifs <;> simp <;> omega
  · show (digitValue? 8 c).isSome = true ↔ c ∈ "01234567".toList
    simp [digitValue?, hcode, hle, hle']
    split_ifs <;> simp <;> omega
  · show (digitValue? 2 c).isSome = true ↔ c ∈ "01".toList
    simp [digitValue?, hcode, hle, hle']
    split_ifs <;> simp <;> omega

theorem accumulate_isSome_iff {base : Nat} {m : Magnitude} {digits : Text} :
    (accumulate base m digits).isSome = true ↔
      ∀ c ∈ digits, (digitValue? base c).isSome = true := by
  induction digits generalizing m with
  | nil => simp [accumulate]
  | cons c digits ih =>
    cases hc : digitValue? base c with
    | none => simp [accumulate, hc]
    | some d => simp [accumulate, hc, ih]

theorem base?_eq_some_iff {t digits : Text} {base : Nat} :
    base? t = some (base, digits) ↔
      ∃ radix ∈ radices, ∃ mark ∈ radix.marks, radix.base = base ∧ t = '0' :: mark :: digits := by
  constructor
  · intro h
    rw [base?.eq_def] at h
    split at h
    · rename_i mark rest
      split_ifs at h with hx ho hb <;> obtain ⟨rfl, rfl⟩ := Prod.mk.inj (Option.some.inj h)
      · exact ⟨hexadecimal, by simp [radices], mark, by simpa [hexadecimal] using hx, rfl, rfl⟩
      · exact ⟨octal, by simp [radices], mark, by simpa [octal] using ho, rfl, rfl⟩
      · exact ⟨binary, by simp [radices], mark, by simpa [binary] using hb, rfl, rfl⟩
    · contradiction
  · rintro ⟨radix, hradix, mark, hmark, rfl, rfl⟩
    simp only [radices, List.mem_cons, List.not_mem_nil, or_false] at hradix
    rcases hradix with rfl | rfl | rfl
    · rcases (by simpa [hexadecimal] using hmark : mark = 'x' ∨ mark = 'X') with rfl | rfl <;> rfl
    · rcases (by simpa [octal] using hmark : mark = 'o' ∨ mark = 'O') with rfl | rfl <;> rfl
    · rcases (by simpa [binary] using hmark : mark = 'b' ∨ mark = 'B') with rfl | rfl <;> rfl

theorem base?_mark {radix : Radix} (hradix : radix ∈ radices) {mark : Char}
    (hmark : mark ∈ radix.marks) (digits : Text) :
    base? ('0' :: mark :: digits) = some (radix.base, digits) :=
  base?_eq_some_iff.2 ⟨radix, hradix, mark, hmark, rfl, rfl⟩

theorem isBased_iff {t : Text} :
    IsBased t ↔
      ∃ base digits, base? t = some (base, digits) ∧ (based? base digits).isSome = true := by
  have hbased : ∀ radix ∈ radices, ∀ digits : Text, (based? radix.base digits).isSome = true ↔
      digits ≠ [] ∧ ∀ c ∈ digits, c ∈ radix.symbols := by
    intro radix hradix digits
    simp only [← digitValue?_isSome_iff hradix, ← accumulate_isSome_iff (m := .zero)]
    cases digits <;> simp [based?]
  constructor
  · rintro ⟨hradix, hmark, hne, hdigits⟩
    exact ⟨_, _, base?_mark hradix hmark _, (hbased _ hradix _).2 ⟨hne, hdigits⟩⟩
  · rintro ⟨base, digits, hbase, hsome⟩
    obtain ⟨radix, hradix, mark, hmark, rfl, rfl⟩ := base?_eq_some_iff.1 hbase
    obtain ⟨hne, hdigits⟩ := (hbased radix hradix digits).1 hsome
    exact .intro hradix hmark hne hdigits

/-! ### Decimals -/

/-- A sign does not matter to whether an exponent is read. -/
theorem signedExponent?_isSome {sign digits : Text} (hsign : IsSign sign)
    (hhead : sign = [] → ∀ c, digits.head? = some c → c ≠ '+' ∧ c ≠ '-') :
    (signedExponent? (sign ++ digits)).isSome = (Text.natural? digits).isSome := by
  rcases hsign with rfl | rfl | rfl
  · show (signedExponent? digits).isSome = _
    rw [signedExponent?.eq_3]
    · cases Text.natural? digits <;> rfl
    · rintro rest rfl
      exact (hhead rfl '+' rfl).1 rfl
    · rintro rest rfl
      exact (hhead rfl '-' rfl).2 rfl
  · show (signedExponent? ('+' :: digits)).isSome = _
    rw [signedExponent?]
    cases Text.natural? digits <;> rfl
  · show (signedExponent? ('-' :: digits)).isSome = _
    rw [signedExponent?]
    cases Text.natural? digits <;> rfl

theorem signedExponent?_isSome_iff {t : Text} :
    (signedExponent? t).isSome = true ↔
      ∃ sign digits, IsSign sign ∧ IsDigits digits ∧ t = sign ++ digits := by
  constructor
  · intro h
    obtain ⟨sign, digits, hsign, hhead, rfl⟩ := exists_sign t
    rw [signedExponent?_isSome hsign hhead, natural?_isSome_iff] at h
    exact ⟨sign, digits, hsign, h, rfl⟩
  · rintro ⟨sign, digits, hsign, h, rfl⟩
    rw [signedExponent?_isSome hsign fun _ _ hc => h.head_ne_sign hc]
    exact natural?_isSome_iff.2 h

theorem exponentPart?_isSome_iff {t : Text} :
    (exponentPart? t).isSome = true ↔ IsExponent t := by
  cases t with
  | nil => exact iff_of_true rfl .nothing
  | cons mark rest =>
    rw [exponentPart?]
    constructor
    · intro h
      split at h
      · rename_i hmark
        obtain ⟨sign, digits, hsign, hdigits, rfl⟩ := signedExponent?_isSome_iff.1 h
        exact .marked (by simpa using hmark) hsign hdigits
      · contradiction
    · intro h
      cases h with
      | marked hmark hsign hdigits =>
        rw [if_pos (by simpa using hmark)]
        exact signedExponent?_isSome_iff.2 ⟨_, _, hsign, hdigits, rfl⟩

theorem IsExponent.head {t : Text} (h : IsExponent t) {c : Char} (hc : t.head? = some c) :
    c = 'e' ∨ c = 'E' := by
  cases h with
  | nothing => contradiction
  | marked hmark hsign h =>
    obtain rfl := Option.some.inj hc
    exact hmark

/-- A decimal without a point. -/
theorem decimal?_append {whole rest : Text} (hwhole : ∀ c ∈ whole, isAsciiDigit c = true)
    (hrest : ∀ c, rest.head? = some c → isAsciiDigit c = false ∧ c ≠ '.') :
    decimal? (whole ++ rest)
      = if whole = [] then none
        else (exponentPart? rest).map fun exponent => .ofDecimal (Text.toNat whole) exponent := by
  obtain ⟨htake, hdrop⟩ := Text.run_iff.2 ⟨rfl, hwhole, fun c hc => (hrest c hc).1⟩
  have hpoint : ∀ tail, rest ≠ '.' :: tail := by
    rintro tail rfl
    exact (hrest '.' rfl).2 rfl
  rw [decimal?, htake, hdrop]
  split
  rename_i fraction rest' hmatch
  split at hmatch
  · exact absurd rfl (hpoint _)
  · obtain ⟨rfl, rfl⟩ := Prod.mk.inj hmatch
    simp

/-- A decimal with a point. -/
theorem decimal?_point {whole fraction rest : Text} (hwhole : ∀ c ∈ whole, isAsciiDigit c = true)
    (hfraction : ∀ c ∈ fraction, isAsciiDigit c = true)
    (hrest : ∀ c, rest.head? = some c → isAsciiDigit c = false) :
    decimal? (whole ++ '.' :: (fraction ++ rest))
      = if whole = [] ∧ fraction = [] then none
        else (exponentPart? rest).map fun exponent =>
          .ofDecimal (Text.toNat (whole ++ fraction)) (exponent - fraction.length) := by
  have hpoint : ∀ c, ('.' :: (fraction ++ rest)).head? = some c → isAsciiDigit c = false := by
    rintro c ⟨⟩
    decide
  obtain ⟨htake, hdrop⟩ := Text.run_iff.2 ⟨rfl, hwhole, hpoint⟩
  obtain ⟨htake', hdrop'⟩ := Text.run_iff.2 ⟨rfl, hfraction, hrest⟩
  rw [decimal?, htake, hdrop]
  simp [htake', hdrop']

theorem IsExponent.head_ne {t : Text} (h : IsExponent t) {c : Char} (hc : t.head? = some c) :
    isAsciiDigit c = false ∧ c ≠ '.' := by
  rcases h.head hc with rfl | rfl <;> decide

theorem decimal?_isSome_of_isMantissa {mantissa exponent : Text} (hmantissa : IsMantissa mantissa)
    (hexponent : IsExponent exponent) : (decimal? (mantissa ++ exponent)).isSome = true := by
  have hsome := exponentPart?_isSome_iff.2 hexponent
  have hdigit : ∀ c, exponent.head? = some c → isAsciiDigit c = false := fun c hc =>
    (hexponent.head_ne hc).1
  cases hmantissa with
  | whole h =>
    rw [decimal?_append h.2 fun c hc => hexponent.head_ne hc, if_neg h.1, Option.isSome_map]
    exact hsome
  | point h hfraction =>
    rw [List.append_assoc, List.cons_append, decimal?_point h.2 hfraction hdigit,
      if_neg fun hnil => h.1 hnil.1, Option.isSome_map]
    exact hsome
  | fraction h =>
    have hwhole : ∀ c ∈ ([] : Text), isAsciiDigit c = true := nofun
    have hpoint := decimal?_point hwhole h.2 hdigit
    rw [List.nil_append] at hpoint
    rw [List.cons_append, hpoint, if_neg fun hnil => h.1 hnil.2, Option.isSome_map]
    exact hsome

theorem exists_mantissa_of_decimal?_isSome {t : Text} (h : (decimal? t).isSome = true) :
    ∃ mantissa exponent, IsMantissa mantissa ∧ IsExponent exponent ∧ t = mantissa ++ exponent := by
  -- The digits in front, and what follows them.
  obtain ⟨ht, hwhole, hrest⟩ := Text.run_iff (p := isAsciiDigit) (t := t).1 ⟨rfl, rfl⟩
  generalize t.takeWhile isAsciiDigit = whole at ht hwhole
  generalize t.dropWhile isAsciiDigit = rest at ht hrest
  subst ht
  by_cases hpoint : ∃ tail, rest = '.' :: tail
  · obtain ⟨tail, rfl⟩ := hpoint
    -- The digits behind the point, and what follows those.
    obtain ⟨htail, hfraction, hexponent⟩ :=
      Text.run_iff (p := isAsciiDigit) (t := tail).1 ⟨rfl, rfl⟩
    generalize tail.takeWhile isAsciiDigit = fraction at htail hfraction
    generalize tail.dropWhile isAsciiDigit = exponent at htail hexponent
    subst htail
    rw [decimal?_point hwhole hfraction hexponent] at h
    split at h
    · contradiction
    · rename_i hne
      rw [Option.isSome_map, exponentPart?_isSome_iff] at h
      by_cases hnil : whole = []
      · subst hnil
        have hdigits : IsDigits fraction := ⟨fun hnil => hne ⟨rfl, hnil⟩, hfraction⟩
        exact ⟨_, exponent, .fraction hdigits, h, rfl⟩
      · exact ⟨_, exponent, .point ⟨hnil, hwhole⟩ hfraction, h, by simp⟩
  · have hhead : ∀ c, rest.head? = some c → isAsciiDigit c = false ∧ c ≠ '.' := by
      refine fun c hc => ⟨hrest c hc, ?_⟩
      rintro rfl
      exact hpoint (List.head?_eq_some_iff.1 hc)
    rw [decimal?_append hwhole hhead] at h
    split at h
    · contradiction
    · rename_i hne
      rw [Option.isSome_map, exponentPart?_isSome_iff] at h
      exact ⟨whole, rest, .whole ⟨hne, hwhole⟩, h, rfl⟩

theorem unsigned?_isSome_iff {t : Text} : (unsigned? t).isSome = true ↔ IsUnsigned t := by
  rw [unsigned?]
  constructor
  · intro h
    split at h
    · subst t
      exact .infinity
    · obtain ⟨mantissa, exponent, hmantissa, hexponent, rfl⟩ :=
        exists_mantissa_of_decimal?_isSome h
      exact .decimal hmantissa hexponent
  · rintro (_ | ⟨hmantissa, hexponent⟩)
    · rfl
    · split
      · rfl
      · exact decimal?_isSome_of_isMantissa hmantissa hexponent

/-! ### The characters of a literal -/

/-- Whether a decimal may hold a character. -/
def isDecimalChar (c : Char) : Bool :=
  isAsciiDigit c || c = '.' || c = 'e' || c = 'E' || c = '+' || c = '-'

theorem isDecimalChar_of_isAsciiDigit {c : Char} (h : isAsciiDigit c = true) :
    isDecimalChar c = true := by
  simp [isDecimalChar, h]

theorem IsMantissa.isDecimalChar {t : Text} (h : IsMantissa t) :
    ∀ c ∈ t, Literal.isDecimalChar c = true := by
  cases h with
  | whole h => exact fun c hc => isDecimalChar_of_isAsciiDigit (h.2 c hc)
  | point h hfraction =>
    intro c hc
    rcases List.mem_append.1 hc with hc | hc
    · exact isDecimalChar_of_isAsciiDigit (h.2 c hc)
    rcases List.mem_cons.1 hc with rfl | hc
    · decide
    · exact isDecimalChar_of_isAsciiDigit (hfraction c hc)
  | fraction h =>
    exact List.forall_mem_cons.2 ⟨by decide, fun c hc => isDecimalChar_of_isAsciiDigit (h.2 c hc)⟩

theorem IsExponent.isDecimalChar {t : Text} (h : IsExponent t) :
    ∀ c ∈ t, Literal.isDecimalChar c = true := by
  cases h with
  | nothing => exact nofun
  | marked hmark hsign h =>
    refine List.forall_mem_cons.2 ⟨by rcases hmark with rfl | rfl <;> decide, fun c hc => ?_⟩
    rcases List.mem_append.1 hc with hc | hc
    · rcases hsign with rfl | rfl | rfl
      · contradiction
      · exact List.mem_singleton.1 hc ▸ rfl
      · exact List.mem_singleton.1 hc ▸ rfl
    · exact isDecimalChar_of_isAsciiDigit (h.2 c hc)

theorem isDecimalChar_of_mem {mantissa exponent : Text} (hmantissa : IsMantissa mantissa)
    (hexponent : IsExponent exponent) {c : Char} (hc : c ∈ mantissa ++ exponent) :
    isDecimalChar c = true :=
  (List.mem_append.1 hc).elim (hmantissa.isDecimalChar c) (hexponent.isDecimalChar c)

/-- A mark stands in no decimal. -/
theorem isDecimalChar_of_mem_marks {radix : Radix} (hradix : radix ∈ radices) {mark : Char}
    (hmark : mark ∈ radix.marks) : isDecimalChar mark = false := by
  have hall : (radices.all fun radix => radix.marks.all fun c => !isDecimalChar c) = true := by
    decide
  simpa using List.all_eq_true.1 (List.all_eq_true.1 hall radix hradix) mark hmark

theorem IsMantissa.exists_cons {t : Text} (h : IsMantissa t) :
    ∃ c rest, t = c :: rest ∧ (isAsciiDigit c = true ∨ c = '.') := by
  cases h with
  | whole h =>
    obtain ⟨c, rest, rfl⟩ := List.exists_cons_of_ne_nil h.1
    exact ⟨c, rest, rfl, .inl (h.2 c List.mem_cons_self)⟩
  | point h hfraction =>
    obtain ⟨c, rest, rfl⟩ := List.exists_cons_of_ne_nil h.1
    exact ⟨c, _, rfl, .inl (h.2 c List.mem_cons_self)⟩
  | fraction h => exact ⟨'.', _, rfl, .inr rfl⟩

theorem IsUnsigned.exists_cons {t : Text} (h : IsUnsigned t) :
    ∃ c rest, t = c :: rest ∧ (isAsciiDigit c = true ∨ c = '.' ∨ c = 'I') := by
  cases h with
  | infinity => exact ⟨'I', _, rfl, .inr (.inr rfl)⟩
  | decimal hmantissa hexponent =>
    obtain ⟨c, rest, rfl, hc⟩ := hmantissa.exists_cons
    exact ⟨c, _, rfl, hc.imp_right .inl⟩

theorem IsUnsigned.head_ne_sign {t : Text} (h : IsUnsigned t) {c : Char} (hc : t.head? = some c) :
    c ≠ '+' ∧ c ≠ '-' := by
  obtain ⟨d, rest, rfl, hd⟩ := h.exists_cons
  obtain rfl := Option.some.inj hc
  rcases hd with hd | rfl | rfl
  · exact ⟨ne_of_isAsciiDigit hd (by decide), ne_of_isAsciiDigit hd (by decide)⟩
  · decide
  · decide

/-! ### All literals -/

theorem base?_signed {sign t : Text} (hsign : IsSign sign) (h : IsUnsigned t) :
    base? (sign ++ t) = none := by
  rw [Option.eq_none_iff_forall_ne_some]
  rintro ⟨base, digits⟩ hbase
  obtain ⟨radix, hradix, mark, hmark, -, heq⟩ := base?_eq_some_iff.1 hbase
  rcases hsign with rfl | rfl | rfl
  · rw [List.nil_append] at heq
    cases h with
    | infinity => exact absurd (List.cons.inj heq).1 (by decide)
    | decimal hmantissa hexponent =>
      -- The mark would be a character of the decimal.
      have hmem : mark ∈ '0' :: mark :: digits := by simp
      rw [← heq] at hmem
      have hchar := isDecimalChar_of_mem hmantissa hexponent hmem
      rw [isDecimalChar_of_mem_marks hradix hmark] at hchar
      contradiction
  · exact absurd (List.cons.inj heq).1 (by decide)
  · exact absurd (List.cons.inj heq).1 (by decide)

theorem trimmed?_signed {sign t : Text} (hsign : IsSign sign)
    (hhead : sign = [] → ∀ c, t.head? = some c → c ≠ '+' ∧ c ≠ '-')
    (hbase : base? (sign ++ t) = none) :
    trimmed? (sign ++ t) = (unsigned? t).map (Double.mk (decide (sign = ['-']))) := by
  rw [trimmed?.eq_def, hbase]
  rcases hsign with rfl | rfl | rfl
  · rw [List.nil_append]
    dsimp only
    split
    · exact absurd rfl (hhead rfl '-' rfl).2
    · exact absurd rfl (hhead rfl '+' rfl).1
    · rfl
  · rfl
  · rfl

theorem trimmed?_isSome_iff {t : Text} :
    (trimmed? t).isSome = true ↔
      IsBased t ∨ ∃ sign u, IsSign sign ∧ IsUnsigned u ∧ t = sign ++ u := by
  cases hbase : base? t with
  | some parts =>
    have hsigned : ¬∃ sign u, IsSign sign ∧ IsUnsigned u ∧ t = sign ++ u := by
      rintro ⟨sign, u, hsign, hu, rfl⟩
      rw [base?_signed hsign hu] at hbase
      contradiction
    obtain ⟨base, digits⟩ := parts
    rw [or_iff_left hsigned, isBased_iff, trimmed?.eq_def, hbase]
    dsimp only
    rw [Option.isSome_map]
    constructor
    · exact fun h => ⟨base, digits, rfl, h⟩
    · rintro ⟨_, _, heq, h⟩
      obtain ⟨rfl, rfl⟩ := Prod.mk.inj (Option.some.inj heq)
      exact h
  | none =>
    have hbased : ¬IsBased t := by
      rw [isBased_iff]
      simp [hbase]
    obtain ⟨sign, u, hsign, hhead, rfl⟩ := exists_sign t
    rw [or_iff_right hbased, trimmed?_signed hsign hhead hbase, Option.isSome_map,
      unsigned?_isSome_iff]
    constructor
    · exact fun hu => ⟨sign, u, hsign, hu, rfl⟩
    · rintro ⟨sign', u', hsign', hu', heq⟩
      rw [(sign_append_inj hsign hsign' hhead (fun _ _ hc => hu'.head_ne_sign hc) heq).2]
      exact hu'

/-- A text is a number just if it is a literal, blanks around it aside. -/
theorem number?_isSome_iff {raw : Text} :
    (number? raw).isSome = true ↔ IsLiteral (Text.trim raw) := by
  rw [number?]
  generalize Text.trim raw = t
  by_cases hnil : t = []
  · subst hnil
    exact iff_of_true rfl .nothing
  · rw [if_neg (by simpa using hnil), trimmed?_isSome_iff]
    constructor
    · rintro (hbased | ⟨sign, u, hsign, hu, rfl⟩)
      · exact .based hbased
      · exact .signed hsign hu
    · rintro (_ | hbased | ⟨hsign, hu⟩)
      · exact absurd rfl hnil
      · exact .inl hbased
      · exact .inr ⟨_, _, hsign, hu, rfl⟩

end Literal
end PullPlan
