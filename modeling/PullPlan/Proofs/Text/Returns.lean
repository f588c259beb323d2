import Mathlib.Data.List.DropRight
import Mathlib.Data.List.Forall2
import PullPlan.Proofs.Text.Lines
import PullPlan.Proofs.Text.Trim

/-!
# Carriage returns at the ends of lines

A line feed may have carriage returns directly before it. `AddsReturns` is the relation of a text to
one with more of them, and `crlf` is the text in which each line feed has got one.

`Text.lines` takes off one carriage return, so the lines of such texts are not the same. Their stems
are (`map_stem_lines`): the lines without any carriage returns at their ends. A function that does
not see a carriage return behind a line sees the stem alone (`apply_stem`).
-/

namespace PullPlan
namespace Text

/-! ### Texts with more carriage returns -/

/-- The second text is the first one with any number of carriage returns inserted directly before
any of its line feeds. -/
inductive AddsReturns : Text → Text → Prop
  | nil : AddsReturns [] []
  | char (c : Char) {t u : Text} (h : AddsReturns t u) : AddsReturns (c :: t) (c :: u)
  | lineFeed (n : Nat) {t u : Text} (h : AddsReturns t u) :
    AddsReturns ('\n' :: t) (List.replicate n '\r' ++ '\n' :: u)

/-- The text with a carriage return before each line feed. -/
def crlf (t : Text) : Text := t.flatMap fun c => if c = '\n' then ['\r', '\n'] else [c]

theorem addsReturns_crlf (t : Text) : AddsReturns t (crlf t) := by
  induction t with
  | nil => exact .nil
  | cons c t ih =>
    by_cases hc : c = '\n'
    · subst hc
      exact .lineFeed 1 ih
    · have hcons : crlf (c :: t) = c :: crlf t := by simp [crlf, hc]
      rw [hcons]
      exact .char c ih

/-- Without line feeds there is nowhere to insert. -/
theorem AddsReturns.eq_of_not_mem {t u : Text} (h : AddsReturns t u) (hfeed : '\n' ∉ t) :
    u = t := by
  induction h with
  | nil => rfl
  | char c h ih => rw [ih fun hmem => hfeed (List.mem_cons_of_mem c hmem)]
  | lineFeed n h ih => exact absurd List.mem_cons_self hfeed

/-- The first line keeps its characters, and the rest is as before behind its line feed. -/
theorem AddsReturns.split {t u : Text} (h : AddsReturns t u) {line rest : Text}
    (ht : t = line ++ '\n' :: rest) (hline : '\n' ∉ line) :
    ∃ n rest', u = line ++ List.replicate n '\r' ++ '\n' :: rest' ∧ AddsReturns rest rest' := by
  induction h generalizing line with
  | nil => simp at ht
  | @char c t u h ih =>
    cases line with
    | nil =>
      obtain ⟨rfl, rfl⟩ := List.cons.inj ht
      exact ⟨0, u, rfl, h⟩
    | cons d line =>
      obtain ⟨rfl, htail⟩ := List.cons.inj ht
      have hline' : '\n' ∉ line := fun hmem => hline (List.mem_cons_of_mem _ hmem)
      obtain ⟨n, rest', hu, hrest⟩ := ih htail hline'
      exact ⟨n, rest', by rw [hu]; rfl, hrest⟩
  | @lineFeed n t u h ih =>
    cases line with
    | nil =>
      obtain ⟨-, rfl⟩ := List.cons.inj ht
      exact ⟨n, u, rfl, h⟩
    | cons d line =>
      obtain ⟨rfl, -⟩ := List.cons.inj ht
      exact absurd List.mem_cons_self hline

/-! ### Stems -/

/-- A line without the carriage returns at its end. -/
def stem (line : Text) : Text := line.rdropWhile (· = '\r')

theorem stem_append_return (line : Text) : stem (line ++ ['\r']) = stem line :=
  List.rdropWhile_concat_pos _ _ _ (by decide)

theorem stem_append_returns (line : Text) (n : Nat) :
    stem (line ++ List.replicate n '\r') = stem line := by
  induction n with
  | zero => rw [List.replicate_zero, List.append_nil]
  | succ n ih => rw [List.replicate_succ', ← List.append_assoc, stem_append_return, ih]

theorem stem_dropReturn (line : Text) : stem (dropReturn line) = stem line := by
  unfold dropReturn
  split
  · rename_i hlast
    have hline : line.dropLast ++ ['\r'] = line := List.dropLast_append_getLast? _ hlast
    rw [← stem_append_return line.dropLast, hline]
  · rfl

/-- What does not change when a carriage return is put behind a line does not change either when
all of them are taken off. -/
theorem apply_stem {α : Type} {f : Text → α} (hf : ∀ line, f (line ++ ['\r']) = f line)
    (line : Text) : f (stem line) = f line := by
  induction line using List.reverseRecOn with
  | nil => rfl
  | append_singleton line c ih =>
    by_cases hc : c = '\r'
    · subst hc
      rw [stem_append_return, ih, hf]
    · have hstem : stem (line ++ [c]) = line ++ [c] :=
        List.rdropWhile_concat_neg _ _ _ (by simpa using hc)
      rw [hstem]

/-- **More carriage returns do not change the stems of the lines.** -/
theorem map_stem_lines {t u : Text} (h : AddsReturns t u) :
    (lines u).map stem = (lines t).map stem := by
  -- Induction on the number of characters, one whole line at a time.
  induction hn : t.length using Nat.strongRecOn generalizing t u with
  | ind n ih =>
    by_cases hfeed : '\n' ∈ t
    · obtain ⟨line, rest, rfl, hline⟩ := List.eq_append_cons_of_mem hfeed
      obtain ⟨k, rest', rfl, hrest⟩ := h.split rfl hline
      have hreturns : '\n' ∉ line ++ List.replicate k '\r' := by simp [hline]
      have hlt : rest.length < n := by
        rw [← hn, List.length_append, List.length_cons]
        omega
      rw [lines_append_lineFeed hline, lines_append_lineFeed hreturns, List.map_cons, List.map_cons,
        stem_dropReturn, stem_dropReturn, stem_append_returns, ih rest.length hlt hrest rfl]
    · rw [h.eq_of_not_mem hfeed]

/-! ### Mentions before a carriage return -/

theorem isBlank_return : AllBlank ['\r'] := by decide

/-- A character that is not in the needle does not help to find it. -/
theorem mentions_append_singleton {needle : Text} {c : Char} (hc : c ∉ needle) (t : Text) :
    mentions needle (t ++ [c]) = mentions needle t := by
  rw [Bool.eq_iff_iff, mentions_iff, mentions_iff]
  constructor
  · rintro ⟨before, behind, h⟩
    rcases List.eq_nil_or_concat' behind with rfl | ⟨behind, d, rfl⟩
    · -- The needle would end with the character, unless it is empty.
      rcases List.eq_nil_or_concat' needle with rfl | ⟨needle, d, rfl⟩
      · exact ⟨[], t, rfl⟩
      · rw [List.append_nil, ← List.append_assoc] at h
        obtain ⟨-, rfl⟩ := List.append_singleton_inj.1 h
        simp at hc
    · rw [← List.append_assoc] at h
      obtain ⟨rfl, -⟩ := List.append_singleton_inj.1 h
      exact ⟨before, behind, rfl⟩
  · rintro ⟨before, behind, rfl⟩
    exact ⟨before, behind ++ [c], by simp⟩

end Text
end PullPlan
