import Mathlib.Data.Nat.Find
import Mathlib.Tactic.Conv
import PullPlan.Proofs.ListBlock.Progress

/-!
# The extent of a list block

A list block is a stretch of the lines behind its marker, and its items are read off that stretch
line by line. `Extent` says where the stretch starts and stops: it starts at the first list line,
and it stops in front of the first line that `Ends` it. `items_eq_contents` says that the items are
the contents of the bullets between the two, and that there is such a stretch, and only one,
wherever there is a list line.

The scan goes through the same lines with a `Progress`. Inside the stretch that is `progressAfter`
of the lines read so far (`next?_of_not_ends`), and a line that ends the stretch is one at which the
scan stops (`next?_of_ends`).
-/

namespace PullPlan
namespace ListBlock

/-! ### Trimmed lines -/

/-- Whether a trimmed line is a bullet. -/
def isBullet (line : Text) : Bool := Text.opensWith "- ".toList line

/-- Whether a trimmed line belongs to a list: a bullet, or a lone dash. -/
def isListLine (line : Text) : Bool := isBullet line || line = ['-']

/-- What a bullet says: the text behind the dash and the blank, without backticks, and trimmed. -/
def content (line : Text) : Text := Text.trim ((line.drop 2).filter (· ≠ '\x60'))

/-- Whether a trimmed line is a bullet that says something. -/
def isItem (line : Text) : Bool := isBullet line && content line ≠ []

/-- What the bullets among some lines say, where they say something. -/
def contents (lines : List Text) : List Text := (lines.filter isItem).map content

/-- Whether a line ends a list of which some lines have been read: a blank line always does, and
other text does once a bullet has said something. -/
def Ends (front : List Text) (line : Text) : Prop :=
  line = [] ∨ line ≠ [] ∧ isListLine line = false ∧ ∃ bullet ∈ front, isItem bullet = true

instance (front : List Text) (line : Text) : Decidable (Ends front line) :=
  inferInstanceAs (Decidable (_ ∨ _))

/-- Where the list of some trimmed lines starts and stops. -/
structure Extent (lines : List Text) (start stop : Nat) : Prop where
  before : ∀ line ∈ lines.take start, isListLine line = false
  begins : ∃ line ∈ lines[start]?, isListLine line = true
  start_lt : start < stop
  goesOn : ∀ i < stop, start < i → ∀ line ∈ lines[i]?, ¬ Ends (lines.extract start i) line
  stop_le : stop ≤ lines.length
  ends : ∀ line ∈ lines[stop]?, Ends (lines.extract start stop) line

/-! ### What the scan makes of a trimmed line -/

theorem bullet?_eq (line : Text) :
    bullet? line = if isBullet line then some (content line) else none := by
  unfold bullet? isBullet Text.opensWith
  cases hafter : Text.after? "- ".toList line with
  | none => rfl
  | some rest =>
    obtain rfl := Text.after?_eq_some_iff.1 hafter
    rfl

theorem classify_eq {line : Text} (htrim : Text.trim line = line) :
    classify line =
      if isBullet line then .bullet (content line)
      else if line = ['-'] then .dash
      else if line = [] then .blank
      else .other := by
  rw [classify, htrim, bullet?_eq]
  by_cases hbullet : isBullet line = true
  · have hdash : line ≠ ['-'] := by
      intro h
      rw [h] at hbullet
      contradiction
    simp only [hdash, hbullet, if_true, if_false]
  · simp only [hbullet, if_false, List.isEmpty_iff, Bool.false_eq_true]

theorem isItem_of_not_isListLine {line : Text} (hline : isListLine line = false) :
    isItem line = false := by
  have hbullet : isBullet line = false := (Bool.or_eq_false_iff.1 hline).1
  rw [isItem, hbullet, Bool.false_and]

/-- Text that is neither blank nor part of a list. -/
theorem classify_other {line : Text} (htrim : Text.trim line = line) (hne : line ≠ [])
    (hline : isListLine line = false) : classify line = .other := by
  obtain ⟨hbullet, hdash⟩ : isBullet line = false ∧ line ≠ ['-'] := by
    simpa [isListLine] using hline
  rw [classify_eq htrim, hbullet, if_neg Bool.false_ne_true, if_neg hdash, if_neg hne]

/-- A line adds to a block what it says. -/
theorem toList_item? {line : Text} (htrim : Text.trim line = line) :
    (classify line).item?.toList = contents [line] := by
  rw [classify_eq htrim, contents]
  by_cases hbullet : isBullet line = true
  · rw [if_pos hbullet]
    cases hcontent : content line with
    | nil => simp [Line.item?, isItem, hcontent]
    | cons c rest => simp [Line.item?, isItem, hbullet, hcontent]
  · have hitem : isItem line = false := by simp [isItem, hbullet]
    rw [if_neg hbullet, List.filter_cons_of_neg (by simp [hitem])]
    split
    · rfl
    · split <;> rfl

theorem contents_cons (line : Text) (lines : List Text) :
    contents (line :: lines) = contents [line] ++ contents lines := by
  rw [contents, contents, contents, ← List.map_append, ← List.filter_append, List.singleton_append]

theorem contents_eq_nil {lines : List Text} (h : ∀ line ∈ lines, isListLine line = false) :
    contents lines = [] := by
  have hnone : lines.filter isItem = [] := by
    rw [List.filter_eq_nil_iff]
    intro line hline
    rw [isItem_of_not_isListLine (h line hline)]
    exact Bool.false_ne_true
  rw [contents, hnone, List.map_nil]

/-! ### What the scan remembers -/

/-- How far a list has been read after some of its lines. -/
def progressAfter (front : List Text) : Progress := ⟨true, front.any isItem⟩

/-- In front of the list nothing is remembered. -/
theorem next?_start {line : Text} (htrim : Text.trim line = line)
    (hline : isListLine line = false) :
    Progress.start.next? (classify line) = some .start := by
  by_cases hne : line = []
  · rw [hne]
    rfl
  · rw [classify_other htrim hne hline]
    rfl

/-- A list line is read into any progress. -/
theorem next?_of_isListLine {line : Text} (htrim : Text.trim line = line)
    (hline : isListLine line = true) (progress : Progress) :
    progress.next? (classify line) = some ⟨true, progress.hasItem || isItem line⟩ := by
  rw [classify_eq htrim]
  by_cases hbullet : isBullet line = true
  · rw [if_pos hbullet]
    cases hcontent : content line with
    | nil => simp [Progress.next?, isItem, hcontent]
    | cons c rest => simp [Progress.next?, isItem, hbullet, hcontent]
  · have hdash : line = ['-'] := by
      simpa [isListLine, hbullet] using hline
    have hitem : isItem line = false := by simp [isItem, hbullet]
    rw [if_neg hbullet, if_pos hdash, hitem, Bool.or_false]
    rfl

theorem Ends.not_isListLine {front : List Text} {line : Text} (h : Ends front line) :
    isListLine line = false := by
  rcases h with rfl | ⟨-, hline, -⟩
  · rfl
  · exact hline

theorem next?_of_ends {front : List Text} {line : Text} (htrim : Text.trim line = line)
    (hends : Ends front line) : (progressAfter front).next? (classify line) = none := by
  rcases hends with rfl | ⟨hne, hline, hitem⟩
  · rfl
  · have hhas : (progressAfter front).hasItem = true := List.any_eq_true.2 hitem
    rw [classify_other htrim hne hline, Progress.next?, if_pos hhas]

theorem next?_of_not_ends {front : List Text} {line : Text} (htrim : Text.trim line = line)
    (hends : ¬ Ends front line) :
    (progressAfter front).next? (classify line) = some (progressAfter (front ++ [line])) := by
  have hafter : progressAfter (front ++ [line])
      = ⟨true, (progressAfter front).hasItem || isItem line⟩ := by
    simp [progressAfter]
  rw [hafter]
  by_cases hline : isListLine line = true
  · exact next?_of_isListLine htrim hline _
  · -- The line is other text, and no bullet in front of it has said anything.
    have hline : isListLine line = false := by simpa using hline
    have hne : line ≠ [] := fun h => hends (.inl h)
    have hnone : (progressAfter front).hasItem = false := by
      apply List.any_eq_false.2
      intro bullet hbullet hitem
      exact hends (.inr ⟨hne, hline, bullet, hbullet, hitem⟩)
    rw [classify_other htrim hne hline, isItem_of_not_isListLine hline, Progress.next?, hnone]
    show some (progressAfter front) = some ⟨true, false⟩
    rw [← hnone]
    rfl

/-! ### Runs of lines -/

/-- Lines in front of the list bring no items. -/
theorem itemsFrom_start_append {before : List Text} (htrim : ∀ line ∈ before, Text.trim line = line)
    (hbefore : ∀ line ∈ before, isListLine line = false) (rest : List Text) :
    itemsFrom .start (before ++ rest) = itemsFrom .start rest := by
  induction before with
  | nil => rfl
  | cons line before ih =>
    rw [List.forall_mem_cons] at htrim hbefore
    have hnothing : contents [line] = [] :=
      contents_eq_nil fun l hl => List.mem_singleton.1 hl ▸ hbefore.1
    rw [List.cons_append, collect_cons, toList_item? htrim.1, hnothing,
      next?_start htrim.1 hbefore.1]
    exact ih htrim.2 hbefore.2

/-- A list that has been read so far goes on to the line that ends it. -/
theorem itemsFrom_progressAfter {front block behind : List Text}
    (htrim : ∀ line ∈ block ++ behind, Text.trim line = line)
    (hgoesOn : ∀ i, ∀ line ∈ block[i]?, ¬ Ends (front ++ block.take i) line)
    (hends : ∀ line ∈ behind.head?, Ends (front ++ block) line) :
    itemsFrom (progressAfter front) (block ++ behind) = contents block := by
  induction block generalizing front with
  | nil =>
    rw [List.append_nil] at hends
    cases behind with
    | nil => rfl
    | cons line behind =>
      have hline : Ends front line := hends line rfl
      have hnothing : contents [line] = [] :=
        contents_eq_nil fun l hl => List.mem_singleton.1 hl ▸ hline.not_isListLine
      have htrim : Text.trim line = line := htrim line List.mem_cons_self
      rw [List.nil_append, collect_cons, toList_item? htrim, next?_of_ends htrim hline, hnothing]
      rfl
  | cons line block ih =>
    have hline : ¬ Ends front line := by
      simpa using hgoesOn 0 line rfl
    rw [List.cons_append, List.forall_mem_cons] at htrim
    rw [List.cons_append, collect_cons, toList_item? htrim.1, next?_of_not_ends htrim.1 hline,
      contents_cons line block]
    congr 1
    apply ih htrim.2
    · intro i l hl
      simpa using hgoesOn (i + 1) l hl
    · intro l hl
      simpa using hends l hl

theorem itemsFrom_start_eq_contents {lines : List Text}
    (htrim : ∀ line ∈ lines, Text.trim line = line) {start stop : Nat}
    (h : Extent lines start stop) :
    itemsFrom .start lines = contents (lines.extract start stop) := by
  obtain ⟨first, hfirst, hline⟩ := h.begins
  obtain ⟨hlt, hget⟩ := List.getElem?_eq_some_iff.1 hfirst
  obtain ⟨k, rfl⟩ : ∃ k, stop = start + (1 + k) := by
    have hstop := h.start_lt
    exact ⟨stop - start - 1, by omega⟩
  have hdrop : lines.drop start = first :: lines.drop (start + 1) := by
    rw [List.drop_eq_getElem_cons hlt, hget]
  have hextract : ∀ j, lines.extract start (start + (1 + j))
      = [first] ++ (lines.drop (start + 1)).take j := by
    intro j
    rw [List.extract_eq_take_drop, Nat.add_sub_cancel_left, hdrop, Nat.add_comm,
      List.take_succ_cons]
    rfl
  have hat : ∀ j, (lines.drop (start + 1))[j]? = lines[start + (1 + j)]? := by
    intro j
    rw [List.getElem?_drop, Nat.add_assoc]
  -- Behind the first list line, the memory of the scan is that of the lines from there on.
  have hrest : itemsFrom (progressAfter [first]) (lines.drop (start + 1))
      = contents ((lines.drop (start + 1)).take k) := by
    conv_lhs => rw [← List.take_append_drop k (lines.drop (start + 1))]
    apply itemsFrom_progressAfter
    · intro line hmem
      rw [List.take_append_drop] at hmem
      exact htrim line (List.mem_of_mem_drop hmem)
    · intro i line hmem
      rw [Option.mem_def, List.getElem?_take] at hmem
      split at hmem
      · rename_i hi
        rw [hat] at hmem
        rw [List.take_take, Nat.min_eq_left (Nat.le_of_lt hi), ← hextract]
        exact h.goesOn (start + (1 + i)) (by omega) (by omega) line hmem
      · contradiction
    · intro line hmem
      rw [List.head?_drop, hat] at hmem
      rw [← hextract]
      exact h.ends line hmem
  have hfirst : Text.trim first = first := htrim first (List.mem_of_getElem? hfirst)
  have hbefore : ∀ line ∈ lines.take start, Text.trim line = line :=
    fun line hmem => htrim line (List.mem_of_mem_take hmem)
  calc itemsFrom .start lines
      = itemsFrom .start (lines.take start ++ lines.drop start) := by
        rw [List.take_append_drop]
    _ = contents [first] ++ itemsFrom (progressAfter [first]) (lines.drop (start + 1)) := by
        rw [itemsFrom_start_append hbefore h.before, hdrop, collect_cons, toList_item? hfirst,
          next?_of_isListLine hfirst hline]
        simp [itemsFrom?, progressAfter, Progress.start]
    _ = contents (lines.extract start (start + (1 + k))) := by
        rw [hrest, hextract, List.singleton_append, ← contents_cons]

/-! ### There is one extent -/

theorem Extent.exists_of_isListLine {lines : List Text}
    (h : ∃ line ∈ lines, isListLine line = true) : ∃ start stop, Extent lines start stop := by
  have hstart : lines.findIdx isListLine < lines.length := List.findIdx_lt_length_of_exists h
  -- The end of the lines is a place to stop, so there is a first one.
  have hstop : ∃ i, lines.findIdx isListLine < i ∧
      ∀ line ∈ lines[i]?, Ends (lines.extract (lines.findIdx isListLine) i) line := by
    refine ⟨lines.length, hstart, ?_⟩
    intro line hline
    simp at hline
  refine ⟨lines.findIdx isListLine, Nat.find hstop, ?_⟩
  constructor
  · intro line hline
    obtain ⟨i, hi, rfl⟩ := List.mem_take_iff_getElem.1 hline
    exact List.not_of_lt_findIdx (by omega)
  · exact ⟨_, List.getElem?_eq_getElem hstart, List.findIdx_getElem⟩
  · exact (Nat.find_spec hstop).1
  · intro i hi hlt line hline hends
    apply Nat.find_min hstop hi
    refine ⟨hlt, fun other hother => ?_⟩
    obtain rfl := Option.mem_unique hline hother
    exact hends
  · apply Nat.find_min' hstop
    refine ⟨hstart, fun line hline => ?_⟩
    simp at hline
  · exact (Nat.find_spec hstop).2

/-- A list does not start in front of its start. -/
theorem Extent.start_le {lines : List Text} {start stop start' stop' : Nat}
    (h : Extent lines start stop) (h' : Extent lines start' stop') : start ≤ start' := by
  by_contra hlt
  obtain ⟨line, hget, hline⟩ := h'.begins
  have hmem : line ∈ lines.take start := by
    apply List.mem_of_getElem? (i := start')
    rw [List.getElem?_take_of_lt (by omega)]
    exact hget
  rw [h.before line hmem] at hline
  contradiction

/-- It does not stop in front of its stop. -/
theorem Extent.stop_le_stop {lines : List Text} {start stop stop' : Nat}
    (h : Extent lines start stop) (h' : Extent lines start stop') : stop ≤ stop' := by
  by_contra hlt
  have hin : stop' < lines.length := by
    have hle := h.stop_le
    omega
  have hget := List.getElem?_eq_getElem hin
  exact h.goesOn stop' (by omega) h'.start_lt _ hget (h'.ends _ hget)

theorem Extent.unique {lines : List Text} {start stop start' stop' : Nat}
    (h : Extent lines start stop) (h' : Extent lines start' stop') :
    start = start' ∧ stop = stop' := by
  obtain rfl : start = start' := Nat.le_antisymm (h.start_le h') (h'.start_le h)
  exact ⟨rfl, Nat.le_antisymm (h.stop_le_stop h') (h'.stop_le_stop h)⟩

/-! ### The items of a block -/

theorem classify_trim (line : Text) : classify (Text.trim line) = classify line := by
  rw [classify, Text.trim_trim, classify]

/-- **The items of a list block.** Without a line that mentions the marker there are none. Otherwise
let `lines` be the lines behind the first one that does, trimmed: without a list line among them
there are no items, and if there is one, the list has one extent, and the items are what the bullets
in it say, where they say something. -/
theorem items_eq_contents (marker text : Text) :
    ((∀ line ∈ Text.lines text, Text.mentions marker line = false) → items marker text = []) ∧
    ∀ before first behind, Text.lines text = before ++ first :: behind →
      (∀ line ∈ before, Text.mentions marker line = false) → Text.mentions marker first = true →
      let lines := behind.map Text.trim
      ((∀ line ∈ lines, isListLine line = false) → items marker text = []) ∧
      ((∃ line ∈ lines, isListLine line = true) →
        ∃! extent : Nat × Nat, Extent lines extent.1 extent.2) ∧
      ∀ start stop, Extent lines start stop →
        items marker text = contents (lines.extract start stop) := by
  constructor
  · intro hnone
    rw [items_eq, linesBehind_of_not_mentioned hnone]
    rfl
  · intro before first behind hlines hbefore hfirst lines
    have htrim : ∀ line ∈ lines, Text.trim line = line := by
      intro line hline
      obtain ⟨line, -, rfl⟩ := List.mem_map.1 hline
      exact Text.trim_trim line
    have hitems : items marker text = itemsFrom .start lines := by
      rw [items_eq, linesBehind_eq hlines hbefore hfirst, itemsFrom_map classify_trim]
    refine ⟨fun hnone => ?_, fun hlist => ?_, fun start stop hextent => ?_⟩
    · rw [hitems, ← List.append_nil lines, itemsFrom_start_append htrim hnone]
      rfl
    · obtain ⟨start, stop, hextent⟩ := Extent.exists_of_isListLine hlist
      refine ⟨(start, stop), hextent, ?_⟩
      rintro ⟨start', stop'⟩ hextent'
      obtain ⟨rfl, rfl⟩ := hextent.unique hextent'
      rfl
    · rw [hitems, itemsFrom_start_eq_contents htrim hextent]

/-- A list with text between a lone dash and its first item, and with a bullet behind its end. -/
def looseList : Text :=
  ("Run these Cypress specs too:\n\nand soon\n-\nmore of them\n- \x60\x60\n- \x60a.cy.js\x60\n-\n"
    ++ "- b.cy.js\n# Notes\n- c.cy.js\n").toList

theorem items_eq_contents_looseList :
    Extent (((Text.lines looseList).drop 1).map Text.trim) 2 8 ∧
      items specsMarker looseList = ["a.cy.js".toList, "b.cy.js".toList] := by
  have hextent : Extent (((Text.lines looseList).drop 1).map Text.trim) 2 8 :=
    ⟨by decide, by decide, by decide, by decide, by decide, by decide⟩
  have hlines : Text.lines looseList
      = [] ++ "Run these Cypress specs too:".toList :: (Text.lines looseList).drop 1 := by
    decide
  have hitems := ((items_eq_contents specsMarker looseList).2 _ _ _ hlines (by decide)
    (by decide)).2.2 2 8 hextent
  refine ⟨hextent, hitems.trans ?_⟩
  decide

end ListBlock
end PullPlan
