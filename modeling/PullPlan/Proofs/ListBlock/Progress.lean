import Mathlib.Data.List.TakeWhile
import PullPlan.ListBlock
import PullPlan.Proofs.Text.Lines
import PullPlan.Proofs.Text.Trim

/-!
# Reading a list block line by line

`ListBlock.collect` remembers two things while it goes through the lines: whether the list has begun
and whether it has an item. `Progress` is that memory and `Progress.next?` the step that one line
takes, with `none` once the block has ended. `collect_cons` is the step of `collect` in these terms,
and `collect_append` follows from it: the items of two runs of lines one after the other are those
of the first and then, if the block is still open, those of the second read on from there.

`items_append` and the two theorems behind it carry this over to two texts, the first of which ends
a line. What the second text adds depends on the marker and on `progressAtEnd?`, how far the block
of the first text has been read.
-/

namespace PullPlan
namespace ListBlock

/-- How far a block has been read. -/
structure Progress where
  /-- Whether a list line was seen. -/
  begun : Bool
  /-- Whether an item was seen. -/
  hasItem : Bool
  deriving DecidableEq

namespace Progress

/-- Nothing has been read. -/
def start : Progress := ⟨false, false⟩

/-- The progress after one more line; `none` if that line ends the block. -/
def next? (progress : Progress) : Line → Option Progress
  | .dash => some ⟨true, progress.hasItem⟩
  | .bullet [] => some ⟨true, progress.hasItem⟩
  | .bullet (_ :: _) => some ⟨true, true⟩
  | .blank => if progress.begun then none else some progress
  | .other => if progress.hasItem then none else some progress

/-- The progress after some lines; `none` if one of them ends the block. -/
def after? (progress : Progress) (lines : List Text) : Option Progress :=
  lines.foldlM (fun progress line => progress.next? (classify line)) progress

end Progress

/-- The item that a line adds to an open block. -/
def Line.item? : Line → Option Text
  | .bullet (c :: content) => some (c :: content)
  | _ => none

/-- The items of lines that are read on from some progress. -/
def itemsFrom (progress : Progress) (lines : List Text) : List Text :=
  collect progress.begun progress.hasItem lines

/-- The items of lines that are read on if the block is still open. -/
def itemsFrom? (progress? : Option Progress) (lines : List Text) : List Text :=
  match progress? with
  | some progress => itemsFrom progress lines
  | none => []

/-- An item that a line adds is there before those of the further lines. -/
theorem collect_cons (progress : Progress) (line : Text) (rest : List Text) :
    itemsFrom progress (line :: rest)
      = (classify line).item?.toList ++ itemsFrom? (progress.next? (classify line)) rest := by
  obtain ⟨begun, hasItem⟩ := progress
  rw [itemsFrom, collect]
  cases classify line with
  | dash => rfl
  | bullet content => cases content <;> rfl
  | blank => cases begun <;> rfl
  | other => cases hasItem <;> rfl

theorem collect_append (progress : Progress) (front back : List Text) :
    itemsFrom progress (front ++ back)
      = itemsFrom progress front ++ itemsFrom? (progress.after? front) back := by
  induction front generalizing progress with
  | nil => rfl
  | cons line front ih =>
    rw [List.cons_append, collect_cons, collect_cons, Progress.after?, List.foldlM_cons,
      List.append_assoc]
    congr 1
    cases progress.next? (classify line) with
    | none => rfl
    | some progress => exact ih progress

/-- What a block makes of its lines depends on what they are, and on nothing else of them. -/
theorem itemsFrom_map {f : Text → Text} (h : ∀ line, classify (f line) = classify line)
    (progress : Progress) (lines : List Text) :
    itemsFrom progress (lines.map f) = itemsFrom progress lines := by
  induction lines generalizing progress with
  | nil => rfl
  | cons line lines ih =>
    rw [List.map_cons, collect_cons, collect_cons, h]
    congr 1
    cases progress.next? (classify line) with
    | none => rfl
    | some progress => exact ih progress

/-! ### What the progress says about the items -/

/-- One line brings the first item exactly if it has one and none was there. -/
theorem Progress.next?_hasItem {progress progress' : Progress} {line : Line}
    (h : progress.next? line = some progress') :
    progress'.hasItem = (progress.hasItem || line.item?.isSome) := by
  obtain ⟨begun, hasItem⟩ := progress
  cases line with
  | dash =>
    obtain rfl := Option.some.inj h
    exact (Bool.or_false _).symm
  | bullet content =>
    cases content with
    | nil =>
      obtain rfl := Option.some.inj h
      exact (Bool.or_false _).symm
    | cons c content =>
      obtain rfl := Option.some.inj h
      exact (Bool.or_true _).symm
  | blank =>
    cases begun with
    | true => contradiction
    | false =>
      obtain rfl := Option.some.inj h
      exact (Bool.or_false _).symm
  | other =>
    cases hasItem with
    | true => contradiction
    | false =>
      obtain rfl := Option.some.inj h
      rfl

/-- A block that is still open remembers whether it has items. -/
theorem Progress.after?_hasItem {progress progress' : Progress} {lines : List Text}
    (h : progress.after? lines = some progress') :
    progress'.hasItem = (progress.hasItem || !(itemsFrom progress lines).isEmpty) := by
  induction lines generalizing progress with
  | nil =>
    obtain rfl := Option.some.inj h
    exact (Bool.or_false _).symm
  | cons line lines ih =>
    rw [Progress.after?, List.foldlM_cons] at h
    cases hnext : progress.next? (classify line) with
    | none => simp [hnext] at h
    | some middle =>
      rw [hnext] at h
      rw [ih h, Progress.next?_hasItem hnext, collect_cons, hnext, itemsFrom?]
      cases (classify line).item? <;> simp

/-! ### The lines of a block -/

/-- The lines behind the first line that mentions a marker. -/
def linesBehind (marker text : Text) : List Text :=
  ((Text.lines text).dropWhile fun line => !Text.mentions marker line).drop 1

theorem items_eq (marker text : Text) :
    items marker text = itemsFrom .start (linesBehind marker text) := rfl

/-- Lines in front of the marker are passed over. -/
theorem dropWhile_not_mentioned {marker : Text} {before : List Text}
    (hbefore : ∀ line ∈ before, Text.mentions marker line = false) (rest : List Text) :
    (before ++ rest).dropWhile (fun line => !Text.mentions marker line)
      = rest.dropWhile fun line => !Text.mentions marker line := by
  apply List.dropWhile_append_of_pos
  intro line hline
  rw [hbefore line hline]
  rfl

theorem linesBehind_of_not_mentioned {marker text : Text}
    (hmarker : ∀ line ∈ Text.lines text, Text.mentions marker line = false) :
    linesBehind marker text = [] := by
  rw [linesBehind, ← List.append_nil (Text.lines text), dropWhile_not_mentioned hmarker]
  rfl

/-- The first line that mentions the marker parts the lines. -/
theorem linesBehind_eq {marker text first : Text} {before behind : List Text}
    (hlines : Text.lines text = before ++ first :: behind)
    (hbefore : ∀ line ∈ before, Text.mentions marker line = false)
    (hfirst : Text.mentions marker first = true) : linesBehind marker text = behind := by
  rw [linesBehind, hlines, dropWhile_not_mentioned hbefore,
    List.dropWhile_cons_of_neg (by simp [hfirst])]
  rfl

/-- If a text mentions a marker and ends with a line feed, then what follows it belongs to the lines
behind the marker. -/
theorem linesBehind_append {marker a : Text}
    (hmarker : ∃ line ∈ Text.lines a, Text.mentions marker line = true)
    (hend : a = [] ∨ a.getLast? = some '\n') (b : Text) :
    linesBehind marker (a ++ b) = linesBehind marker a ++ Text.lines b := by
  obtain ⟨line, hline, hmentions⟩ := hmarker
  have hne : (Text.lines a).dropWhile (fun line => !Text.mentions marker line) ≠ [] := by
    intro hnil
    have hall := List.dropWhile_eq_nil_iff.1 hnil line hline
    simp [hmentions] at hall
  rw [linesBehind, linesBehind, Text.lines_append hend, List.dropWhile_append]
  rw [if_neg (by simpa using hne), List.drop_append_of_le_length]
  exact List.length_pos_iff.2 hne

/-- The lines behind a marker that the first of two texts does not mention are those of the second
text alone. -/
theorem linesBehind_append_of_not_mentioned {marker a : Text}
    (hmarker : ∀ line ∈ Text.lines a, Text.mentions marker line = false)
    (hend : a = [] ∨ a.getLast? = some '\n') (b : Text) :
    linesBehind marker (a ++ b) = linesBehind marker b := by
  unfold linesBehind
  rw [Text.lines_append hend, dropWhile_not_mentioned hmarker]

/-! ### A block and the text behind it -/

/-- How far the block behind a marker has been read at the end of a text; `none` if the block has
ended before. -/
def progressAtEnd? (marker text : Text) : Option Progress :=
  Progress.start.after? (linesBehind marker text)

theorem items_append {marker a : Text}
    (hmarker : ∃ line ∈ Text.lines a, Text.mentions marker line = true)
    (hend : a = [] ∨ a.getLast? = some '\n') (b : Text) :
    items marker (a ++ b)
      = items marker a ++ itemsFrom? (progressAtEnd? marker a) (Text.lines b) := by
  rw [items_eq, items_eq, linesBehind_append hmarker hend, collect_append, progressAtEnd?]

/-- A text without the marker adds nothing to a block that comes later. -/
theorem items_append_of_not_mentioned {marker a : Text}
    (hmarker : ∀ line ∈ Text.lines a, Text.mentions marker line = false)
    (hend : a = [] ∨ a.getLast? = some '\n') (b : Text) :
    items marker (a ++ b) = items marker b := by
  rw [items_eq, items_eq, linesBehind_append_of_not_mentioned hmarker hend]

/-- A block that has ended takes nothing from what follows. -/
theorem items_append_of_ended {marker a : Text} (hended : progressAtEnd? marker a = none)
    (hend : a = [] ∨ a.getLast? = some '\n') (b : Text) :
    items marker (a ++ b) = items marker a := by
  by_cases hmarker : ∃ line ∈ Text.lines a, Text.mentions marker line = true
  · rw [items_append hmarker hend, hended, itemsFrom?, List.append_nil]
  · -- Without the marker there are no lines to end the block.
    have hnone : ∀ line ∈ Text.lines a, Text.mentions marker line = false := by
      intro line hline
      have hnot : ¬ Text.mentions marker line = true := fun h => hmarker ⟨line, hline, h⟩
      simpa using hnot
    have hstart : progressAtEnd? marker a = some .start := by
      rw [progressAtEnd?, linesBehind_of_not_mentioned hnone]
      rfl
    rw [hstart] at hended
    contradiction

end ListBlock
end PullPlan
