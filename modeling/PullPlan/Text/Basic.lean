/-!
# Text

A text is the list of its characters: the rules of this library look for lead words, markers and
line ends, and on a list each of them is a short recursion.

* `Text.after?` takes a lead off a text.
* `Text.mentions` looks for a text inside another one.
* `Text.cutAt?` splits at the first occurrence of a character.
* `Text.lines` splits a text into its lines.
-/

namespace PullPlan

/-- A text is the list of its characters. -/
abbrev Text := List Char

namespace Text

/-! ### Leads and mentions -/

/-- What follows `lead`, if the text opens with it. -/
def after? : (lead : Text) → Text → Option Text
  | [], t => some t
  | _ :: _, [] => none
  | l :: lead, c :: t => if l = c then after? lead t else none

theorem after?_eq_some_iff {lead t rest : Text} : after? lead t = some rest ↔ t = lead ++ rest := by
  induction lead generalizing t with
  | nil => simp [after?]
  | cons l lead ih =>
    cases t with
    | nil => simp [after?]
    | cons c t =>
      by_cases h : l = c
      · simp [after?, h, ih]
      · have h' : c ≠ l := fun e => h e.symm
        simp [after?, h, h']

/-- Whether the text opens with `lead`. -/
def opensWith (lead t : Text) : Bool := (after? lead t).isSome

/-- Whether `needle` stands somewhere in the text. -/
def mentions (needle : Text) : Text → Bool
  | [] => opensWith needle []
  | c :: t => opensWith needle (c :: t) || mentions needle t

theorem opensWith_iff {lead t : Text} : opensWith lead t = true ↔ ∃ rest, t = lead ++ rest := by
  simp [opensWith, Option.isSome_iff_exists, after?_eq_some_iff]

/-- `mentions` holds exactly when the text is some text, the needle, and some text. -/
theorem mentions_iff {needle t : Text} :
    mentions needle t = true ↔ ∃ before behind, t = before ++ needle ++ behind := by
  induction t with
  | nil =>
    simp only [mentions, opensWith_iff]
    constructor
    · rintro ⟨rest, h⟩
      exact ⟨[], rest, by simpa using h⟩
    · rintro ⟨before, behind, h⟩
      simp only [List.append_assoc, List.nil_eq, List.append_eq_nil_iff] at h
      exact ⟨[], by simp [h.2.1]⟩
  | cons c t ih =>
    simp only [mentions, Bool.or_eq_true, opensWith_iff, ih]
    constructor
    · rintro (⟨rest, h⟩ | ⟨before, behind, h⟩)
      · exact ⟨[], rest, by simpa using h⟩
      · exact ⟨c :: before, behind, by simp [h]⟩
    · rintro ⟨before, behind, h⟩
      cases before with
      | nil => exact .inl ⟨behind, by simpa using h⟩
      | cons b before =>
        simp only [List.cons_append, List.cons.injEq] at h
        exact .inr ⟨before, behind, h.2⟩

/-! ### Splitting -/

/-- The parts before and after the first `separator`. -/
def cutAt? (separator : Char) : Text → Option (Text × Text)
  | [] => none
  | c :: t =>
    if c = separator then some ([], t)
    else (cutAt? separator t).map fun parts => (c :: parts.1, parts.2)

theorem cutAt?_eq_some_iff {separator : Char} {t before behind : Text} :
    cutAt? separator t = some (before, behind) ↔
      t = before ++ separator :: behind ∧ separator ∉ before := by
  induction t generalizing before with
  | nil => simp [cutAt?]
  | cons c t ih =>
    by_cases h : c = separator
    · subst h
      simp only [cutAt?, ↓reduceIte, Option.some.injEq, Prod.mk.injEq]
      constructor
      · rintro ⟨rfl, rfl⟩
        simp
      · rintro ⟨h₁, h₂⟩
        cases before with
        | nil => simpa using h₁
        | cons b before =>
          simp only [List.cons_append, List.cons.injEq] at h₁
          exact absurd (by simp [h₁.1]) h₂
    · simp only [cutAt?, h, ↓reduceIte, Option.map_eq_some_iff, Prod.exists, Prod.mk.injEq]
      constructor
      · rintro ⟨b, a, hba, rfl, rfl⟩
        obtain ⟨rfl, hb⟩ := ih.1 hba
        have h' : separator ≠ c := fun e => h e.symm
        exact ⟨by simp, by simp [h', hb]⟩
      · rintro ⟨h₁, h₂⟩
        cases before with
        | nil => exact absurd (by simpa using congrArg List.head? h₁) h
        | cons b before =>
          simp only [List.cons_append, List.cons.injEq] at h₁
          refine ⟨before, behind, ih.2 ⟨h₁.2, fun h' => h₂ (by simp [h'])⟩, by simp [h₁.1], rfl⟩

theorem cutAt?_eq_none_iff {separator : Char} {t : Text} :
    cutAt? separator t = none ↔ separator ∉ t := by
  induction t with
  | nil => simp [cutAt?]
  | cons c t ih =>
    by_cases h : c = separator
    · simp [cutAt?, h]
    · have h' : separator ≠ c := fun e => h e.symm
      simp [cutAt?, h, h', ih]

/-- The lines of a text. A line ends at a line feed, and a carriage return directly before that
line feed belongs to the line end; what follows the last line feed is a line if it is not empty. -/
def lines : Text → List Text
  | [] => []
  | '\n' :: t => [] :: lines t
  | '\r' :: '\n' :: t => [] :: lines t
  | c :: t =>
    match lines t with
    | [] => [[c]]
    | line :: more => (c :: line) :: more

/-- The decimal digits of a natural number. -/
def ofNat (n : Nat) : Text := Nat.toDigits 10 n

end Text
end PullPlan
