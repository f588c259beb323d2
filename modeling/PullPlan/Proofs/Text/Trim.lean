import PullPlan.Text.Blank

/-!
# Trimming

A trimmed text has no blank character at either end (`trim_head?`, `trim_getLast?`), a text without
blank characters at its ends stays as it is (`trim_eq_self`), and no character is lost but blank
ones (`mem_trim`, `mem_of_mem_trim`, `exists_eq_append_trim`). A text behind which there are only
blanks ends where the last character of it that is not blank stands
(`exists_of_append_eq_append`).
-/

namespace PullPlan
namespace Text

/-! ### Blank texts -/

/-- The text has no characters but blank ones. -/
def AllBlank (t : Text) : Prop := ∀ c ∈ t, isBlank c = true

instance (t : Text) : Decidable t.AllBlank :=
  decidable_of_iff (t.all isBlank = true) List.all_eq_true

theorem AllBlank.append {t u : Text} (ht : t.AllBlank) (hu : u.AllBlank) : (t ++ u).AllBlank :=
  List.forall_mem_append.2 ⟨ht, hu⟩

theorem AllBlank.not_mem {t : Text} (h : t.AllBlank) {c : Char} (hc : isBlank c = false) :
    c ∉ t := by
  intro hmem
  rw [h c hmem] at hc
  contradiction

/-! ### What trimming keeps -/

theorem mem_of_mem_trimEnd {t : Text} {c : Char} (h : c ∈ trimEnd t) : c ∈ t := by
  obtain ⟨tail, ht, -⟩ := trimEnd_eq t
  rw [ht]
  exact List.mem_append_left _ h

theorem mem_of_mem_trim {t : Text} {c : Char} (h : c ∈ trim t) : c ∈ t :=
  (List.dropWhile_sublist isBlank).subset (mem_of_mem_trimEnd h)

/-- A text is blanks, what trimming leaves of it, and blanks. -/
theorem exists_eq_append_trim (t : Text) :
    ∃ front behind, t = front ++ trim t ++ behind ∧ front.AllBlank ∧ behind.AllBlank := by
  obtain ⟨front, hfront, hfrontBlank⟩ := trimStart_eq t
  obtain ⟨behind, hbehind, hbehindBlank⟩ := trimEnd_eq (trimStart t)
  refine ⟨front, behind, ?_, hfrontBlank, hbehindBlank⟩
  rw [trim, List.append_assoc, ← hbehind, ← hfront]

/-- A character that is not blank is not trimmed off. -/
theorem mem_trim {t : Text} {c : Char} (h : c ∈ t) (hc : isBlank c = false) : c ∈ trim t := by
  obtain ⟨front, behind, ht, hfront, hbehind⟩ := exists_eq_append_trim t
  rw [ht, List.mem_append, List.mem_append] at h
  rcases h with (h | h) | h
  · exact absurd h (hfront.not_mem hc)
  · exact h
  · exact absurd h (hbehind.not_mem hc)

/-! ### The ends of a trimmed text -/

theorem trimEnd_getLast? {t : Text} {c : Char} (h : (trimEnd t).getLast? = some c) :
    isBlank c = false := by
  induction t with
  | nil => simp [trimEnd] at h
  | cons d t ih =>
    rw [trimEnd] at h
    split at h
    · split at h
      · simp at h
      · rename_i hd
        have hdc : d = c := by simpa using h
        simpa [hdc] using hd
    · rename_i kept hkept
      rw [List.getLast?_cons_of_ne_nil (by simpa using hkept)] at h
      exact ih h

theorem trim_getLast? {t : Text} {c : Char} (h : (trim t).getLast? = some c) :
    isBlank c = false :=
  trimEnd_getLast? h

/-- Trimming the end keeps the first character, unless nothing is left. -/
theorem trimEnd_head? {t : Text} {c : Char} (h : (trimEnd t).head? = some c) :
    t.head? = some c := by
  obtain ⟨tail, ht, -⟩ := trimEnd_eq t
  rw [ht, List.head?_append, h]
  rfl

theorem trim_head? {t : Text} {c : Char} (h : (trim t).head? = some c) : isBlank c = false := by
  have hstart : (t.dropWhile isBlank).head? = some c := trimEnd_head? h
  have := List.head?_dropWhile_not isBlank t
  rw [hstart] at this
  simpa using this

/-! ### Texts that are trimmed already -/

theorem trimStart_eq_self {t : Text} (h : ∀ c, t.head? = some c → isBlank c = false) :
    trimStart t = t := by
  cases t with
  | nil => rfl
  | cons c t => rw [trimStart, List.dropWhile_cons_of_neg (by simp [h c rfl])]

theorem trimEnd_eq_self {t : Text} (h : ∀ c, t.getLast? = some c → isBlank c = false) :
    trimEnd t = t := by
  induction t with
  | nil => rfl
  | cons c t ih =>
    cases t with
    | nil => simp [trimEnd, h c rfl]
    | cons d t =>
      rw [trimEnd, ih (by simpa [List.getLast?_cons_cons] using h)]

/-- A text whose first and last characters are not blank is trimmed already. -/
theorem trim_eq_self {t : Text} (hhead : ∀ c, t.head? = some c → isBlank c = false)
    (hlast : ∀ c, t.getLast? = some c → isBlank c = false) : trim t = t := by
  rw [trim, trimStart_eq_self hhead, trimEnd_eq_self hlast]

theorem trim_trim (t : Text) : trim (trim t) = trim t :=
  trim_eq_self (fun _ h => trim_head? h) (fun _ h => trim_getLast? h)

/-! ### Blank characters around a text -/

theorem trimStart_append {front : Text} (h : front.AllBlank) (t : Text) :
    trimStart (front ++ t) = trimStart t :=
  List.dropWhile_append_of_pos h

theorem trimEnd_append {tail : Text} (h : tail.AllBlank) (t : Text) :
    trimEnd (t ++ tail) = trimEnd t := by
  induction t with
  | nil =>
    rw [List.nil_append]
    induction tail with
    | nil => rfl
    | cons c tail ih =>
      obtain ⟨hc, htail⟩ := List.forall_mem_cons.1 h
      have hnil : trimEnd tail = [] := ih htail
      simp [trimEnd, hnil, hc]
  | cons c t ih => rw [List.cons_append, trimEnd, ih, trimEnd]

/-- Blank characters in front of a text are trimmed off with it. -/
theorem trim_front_append {front : Text} (h : front.AllBlank) (t : Text) :
    trim (front ++ t) = trim t := by
  rw [trim, trimStart_append h, ← trim]

/-- Trimming the front of a text leaves what is behind it alone, unless nothing of the text is
left. -/
theorem trimStart_append_tail {tail : Text} (h : tail.AllBlank) (t : Text) :
    trimStart (t ++ tail) = if trimStart t = [] then [] else trimStart t ++ tail := by
  have htail : trimStart tail = [] := by
    have hnil := trimStart_append h []
    rwa [List.append_nil] at hnil
  unfold trimStart at htail ⊢
  rw [List.dropWhile_append, htail]
  simp only [List.isEmpty_iff]

/-- Blank characters behind a text are trimmed off with it. -/
theorem trim_append {tail : Text} (h : tail.AllBlank) (t : Text) :
    trim (t ++ tail) = trim t := by
  unfold trim
  rw [trimStart_append_tail h]
  split
  · rename_i hnil
    rw [hnil]
  · exact trimEnd_append h _

/-! ### A character in the middle -/

/-- Trimming stops at a character that is not blank. -/
theorem trimStart_append_cons {c : Char} (hc : isBlank c = false) (front t : Text) :
    trimStart (front ++ c :: t) = trimStart front ++ c :: t := by
  induction front with
  | nil => exact List.dropWhile_cons_of_neg (by simp [hc])
  | cons d front ih =>
    unfold trimStart at ih ⊢
    rw [List.cons_append, List.dropWhile_cons, List.dropWhile_cons, ih]
    split <;> rfl

theorem trimEnd_append_cons {c : Char} (hc : isBlank c = false) (front t : Text) :
    trimEnd (front ++ c :: t) = front ++ c :: trimEnd t := by
  induction front with
  | nil =>
    rw [List.nil_append, trimEnd]
    cases trimEnd t with
    | nil => simp [hc]
    | cons d kept => rfl
  | cons d front ih =>
    rw [List.cons_append, trimEnd, ih]
    cases front <;> rfl

theorem trim_append_cons {c : Char} (hc : isBlank c = false) (front t : Text) :
    trim (front ++ c :: t) = trimStart front ++ c :: trimEnd t := by
  rw [trim, trimStart_append_cons hc, trimEnd_append_cons hc]

theorem trim_trimStart (t : Text) : trim (trimStart t) = trim t := by
  obtain ⟨head, ht, hhead⟩ := trimStart_eq t
  rw [← trim_front_append hhead (trimStart t), ← ht]

theorem trim_trimEnd (t : Text) : trim (trimEnd t) = trim t := by
  obtain ⟨tail, ht, htail⟩ := trimEnd_eq t
  rw [← trim_append htail (trimEnd t), ← ht]

/-- Behind a character that is not blank, a text ends with a blank only if what follows does. -/
theorem isBlank_getLast_append_cons {front t : Text} {c d : Char} (hc : isBlank c = false)
    (ht : ∀ e, t.getLast? = some e → isBlank e = false)
    (h : (front ++ c :: t).getLast? = some d) : isBlank d = false := by
  rw [List.getLast?_append, List.getLast?_cons, Option.some_or] at h
  obtain rfl := Option.some.inj h
  cases hend : t.getLast? with
  | none => exact hc
  | some e => exact ht e hend

/-! ### Solid texts among blanks -/

/-- A text that is not empty and has no blank character at either end. -/
structure IsSolid (t : Text) : Prop where
  ne_nil : t ≠ []
  head : ∀ c, t.head? = some c → isBlank c = false
  last : ∀ c, t.getLast? = some c → isBlank c = false

theorem isSolid_trim {t : Text} (hne : trim t ≠ []) : (trim t).IsSolid where
  ne_nil := hne
  head _ h := trim_head? h
  last _ h := trim_getLast? h

/-- What starts with a solid text starts with no blank. -/
theorem IsSolid.head_append {t : Text} (h : t.IsSolid) (u : Text) {c : Char}
    (hc : (t ++ u).head? = some c) : isBlank c = false := by
  obtain ⟨d, rest, rfl⟩ := List.exists_cons_of_ne_nil h.ne_nil
  exact h.head c hc

/-- What ends with a solid text ends with no blank. -/
theorem IsSolid.last_append {u : Text} (h : u.IsSolid) (t : Text) {c : Char}
    (hc : (t ++ u).getLast? = some c) : isBlank c = false := by
  rw [List.getLast?_append] at hc
  cases hlast : u.getLast? with
  | none => exact absurd (List.getLast?_eq_none_iff.1 hlast) h.ne_nil
  | some d =>
    rw [hlast] at hc
    obtain rfl := Option.some.inj hc
    exact h.last d hlast

/-- Blanks in front of a solid text are trimmed off, and no more. -/
theorem IsSolid.trimStart_append {t front : Text} (h : t.IsSolid) (hfront : front.AllBlank)
    (rest : Text) : trimStart (front ++ (t ++ rest)) = t ++ rest := by
  rw [Text.trimStart_append hfront]
  exact trimStart_eq_self fun _ => h.head_append rest

/-- Trimming a solid text among blanks leaves that text. -/
theorem IsSolid.trim_append_append {t : Text} (h : t.IsSolid) {front behind : Text}
    (hfront : front.AllBlank) (hbehind : behind.AllBlank) : trim (front ++ t ++ behind) = t := by
  rw [List.append_assoc, trim, h.trimStart_append hfront, trimEnd_append hbehind,
    trimEnd_eq_self h.last]

/-- Of blanks, trimming leaves nothing. -/
theorem AllBlank.trim_eq_nil {t : Text} (h : t.AllBlank) : trim t = [] := by
  have hnil := trim_append h []
  rwa [List.nil_append] at hnil

theorem AllBlank.trimEnd_eq_nil {t : Text} (h : t.AllBlank) : trimEnd t = [] := by
  have hnil := trimEnd_append h []
  rwa [List.nil_append] at hnil

/-- Where two ways to write a text end with blanks behind `t` and with anything behind `u`, and `u`
does not end with a blank, those blanks are behind `u` as well. -/
theorem exists_of_append_eq_append {t tail u behind : Text} (h : t ++ tail = u ++ behind)
    (htail : tail.AllBlank) (hlast : ∀ c, u.getLast? = some c → isBlank c = false) :
    ∃ rest, t = u ++ rest ∧ behind = rest ++ tail := by
  rcases List.append_eq_append_iff.1 h with ⟨more, rfl, rfl⟩ | ⟨rest, rfl, rfl⟩
  · -- The last character of `more` would be a blank and the last one of `u`.
    cases hend : more.getLast? with
    | none =>
      rw [List.getLast?_eq_none_iff.1 hend]
      exact ⟨[], by simp, rfl⟩
    | some c =>
      have hblank : isBlank c = true := htail c (List.mem_append_left _ (List.mem_of_getLast? hend))
      have hsolid : isBlank c = false := hlast c (by rw [List.getLast?_append, hend]; rfl)
      rw [hblank] at hsolid
      contradiction
  · exact ⟨rest, rfl, rfl⟩

end Text
end PullPlan
