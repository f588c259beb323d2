import PullPlan.Text.Basic

/-!
# Lines of joined texts

`Text.lines` takes a text apart at its line feeds. `lines_append_lineFeed` says what the first line
of a text is, `lines_flatMap` what the lines of a text are that was put together line by line, and
`lines_append` that a text which is empty or ends with a line feed can be split off: the lines of
the rest do not depend on it.
-/

namespace PullPlan
namespace Text

/-- A line without the carriage return that belongs to its end. -/
def dropReturn (line : Text) : Text :=
  if line.getLast? = some '\r' then line.dropLast else line

theorem dropReturn_of_ne {line : Text} (h : line.getLast? ≠ some '\r') : dropReturn line = line :=
  if_neg h

theorem dropReturn_cons {c d : Char} {line : Text} :
    dropReturn (c :: d :: line) = c :: dropReturn (d :: line) := by
  rw [dropReturn, dropReturn, List.getLast?_cons_cons]
  split <;> rfl

/-- Nothing but a carriage return goes. -/
theorem exists_eq_dropReturn_append (line : Text) : ∃ tail, line = dropReturn line ++ tail := by
  unfold dropReturn
  split
  · obtain ⟨tail, htail⟩ := List.dropLast_prefix line
    exact ⟨tail, htail.symm⟩
  · exact ⟨[], (List.append_nil line).symm⟩

/-! ### The first line -/

/-- A character that is not part of a line end belongs to the first line. -/
theorem lines_cons {c : Char} {t : Text} (hfeed : c ≠ '\n')
    (hreturn : c = '\r' → t.head? ≠ some '\n') :
    lines (c :: t) =
      match lines t with
      | [] => [[c]]
      | line :: more => (c :: line) :: more := by
  rw [lines.eq_def]
  split
  · contradiction
  · simp_all
  · simp_all
  · rename_i heq
    obtain ⟨rfl, rfl⟩ := List.cons.inj heq
    rfl

/-- What stands before the first line feed is the first line, and what stands behind it has the
other lines. -/
theorem lines_append_lineFeed {line : Text} (h : '\n' ∉ line) (t : Text) :
    lines (line ++ '\n' :: t) = dropReturn line :: lines t := by
  induction line with
  | nil => rw [List.nil_append, lines]; rfl
  | cons c line ih =>
    have hc : c ≠ '\n' := fun e => h (by simp [e])
    have hline : '\n' ∉ line := fun hmem => h (List.mem_cons_of_mem _ hmem)
    cases line with
    | nil =>
      by_cases hreturn : c = '\r'
      · subst hreturn
        rw [List.cons_append, List.nil_append, lines]
        rfl
      · have hlast : ([c] : Text).getLast? ≠ some '\r' := by simpa using hreturn
        rw [List.cons_append, lines_cons hc (fun e => absurd e hreturn), ih hline,
          dropReturn_of_ne hlast]
        rfl
    | cons d line =>
      have hd : d ≠ '\n' := fun e => hline (by simp [e])
      rw [List.cons_append, lines_cons hc (fun _ => by simpa using hd), ih hline, dropReturn_cons]

/-- The lines of a text to which texts without line feeds were written, each on a line of its
own. -/
theorem lines_flatMap {texts : List Text} (h : ∀ t ∈ texts, '\n' ∉ t) :
    lines (texts.flatMap fun t => t ++ ['\n']) = texts.map dropReturn := by
  induction texts with
  | nil => rfl
  | cons t texts ih =>
    obtain ⟨ht, htexts⟩ := List.forall_mem_cons.1 h
    rw [List.flatMap_cons, List.append_assoc, List.singleton_append, lines_append_lineFeed ht,
      ih htexts, List.map_cons]

/-! ### Splitting a text between two lines -/

/-- The lines of a text that is empty or ends with a line feed come before the lines of the text
behind it. -/
theorem lines_append {t : Text} (h : t = [] ∨ t.getLast? = some '\n') (u : Text) :
    lines (t ++ u) = lines t ++ lines u := by
  -- Induction on the number of characters, one whole line at a time.
  induction hn : t.length using Nat.strongRecOn generalizing t with
  | ind n ih =>
    rcases h with rfl | hlast
    · rfl
    · obtain ⟨line, rest, rfl, hline⟩ := List.eq_append_cons_of_mem (List.mem_of_getLast? hlast)
      have hrest : rest = [] ∨ rest.getLast? = some '\n' := by
        cases rest with
        | nil => exact .inl rfl
        | cons c rest => exact .inr (by simpa [List.getLast?_append] using hlast)
      have hlt : rest.length < n := by
        rw [← hn, List.length_append, List.length_cons]
        omega
      rw [List.append_assoc, List.cons_append, lines_append_lineFeed hline,
        lines_append_lineFeed hline, ih rest.length hlt hrest rfl, List.cons_append]

/-- No line has a line feed in it. -/
theorem lineFeed_not_mem_of_mem_lines {t line : Text} (h : line ∈ lines t) : '\n' ∉ line := by
  fun_induction lines t generalizing line with
  | case1 => simp at h
  | case2 t ih =>
    rcases List.mem_cons.1 h with rfl | h
    · simp
    · exact ih h
  | case3 t ih =>
    rcases List.mem_cons.1 h with rfl | h
    · simp
    · exact ih h
  | case4 c t hfeed hreturn hnil ih =>
    have hc : '\n' ≠ c := fun e => hfeed e.symm
    simpa [List.mem_singleton.1 h] using hc
  | case5 c t hfeed hreturn first more hlines ih =>
    have hc : '\n' ≠ c := fun e => hfeed e.symm
    rw [hlines] at ih
    rcases List.mem_cons.1 h with rfl | h
    · simpa [hc] using ih List.mem_cons_self
    · exact ih (List.mem_cons_of_mem _ h)

end Text
end PullPlan
