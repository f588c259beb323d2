import PullPlan.Proofs.ListBlock.Progress

/-!
# Two list blocks in one text

A pull request may hold a block of spec files and a block of pages. A text that starts a block is
continued by a text that starts the other one, and the question is whether the first block notices.
It need not: a marker line is text like any other to the other block, and such text is passed over
until the block has an item. So a block without items takes the bullets of the next block
(`specs_take_pages`), and a marker that is written as a bullet is itself an item.

`items_append_eq_iff` says exactly when the blocks are independent.
-/

namespace PullPlan
namespace ListBlock

/-- The two lists that a text may hold. -/
inductive Kind where
  /-- The additional specs. -/
  | specs
  /-- The pages to visit. -/
  | pages
  deriving DecidableEq

namespace Kind

/-- The marker of a list. -/
def marker : Kind → Text
  | .specs => specsMarker
  | .pages => pagesMarker

/-- The other list. -/
def other : Kind → Kind
  | .specs => .pages
  | .pages => .specs

/-- The list of a text. -/
def items (kind : Kind) (text : Text) : List Text := ListBlock.items kind.marker text

example (text : Text) : specs.items text = ListBlock.specs text := rfl

example (text : Text) : pages.items text = ListBlock.pages text := rfl

/-- Both markers start with the same letter. -/
theorem letter_mem_marker (kind : Kind) : 'R' ∈ kind.marker := by
  cases kind <;> decide

end Kind

/-! ### Marker lines -/

theorem mem_of_mentions {needle line : Text} {c : Char} (h : Text.mentions needle line = true)
    (hc : c ∈ needle) : c ∈ line := by
  obtain ⟨before, behind, rfl⟩ := Text.mentions_iff.1 h
  exact List.mem_append_left _ (List.mem_append_right _ hc)

/-- A line with a letter is neither blank nor a lone dash, so it is a bullet or other text. -/
theorem classify_of_letter_mem {line : Text} (h : 'R' ∈ line) :
    classify line =
      match bullet? (Text.trim line) with
      | some content => .bullet content
      | none => .other := by
  have htrim : 'R' ∈ Text.trim line := Text.mem_trim h (by decide)
  have hdash : Text.trim line ≠ ['-'] := fun e => by simp [e] at htrim
  have hempty : (Text.trim line).isEmpty = false := by
    cases ht : Text.trim line with
    | nil => simp [ht] at htrim
    | cons c t => rfl
  rw [classify, if_neg hdash, hempty]
  cases bullet? (Text.trim line) with
  | none => rfl
  | some content => rfl

/-- A letter of a bullet line belongs to the content. -/
theorem letter_mem_content {line content : Text} (h : 'R' ∈ line)
    (hbullet : bullet? (Text.trim line) = some content) : 'R' ∈ content := by
  have htrim : 'R' ∈ Text.trim line := Text.mem_trim h (by decide)
  obtain ⟨rest, hrest, rfl⟩ := Option.map_eq_some_iff.1 hbullet
  have hmem : 'R' ∈ rest := by
    rw [Text.after?_eq_some_iff.1 hrest] at htrim
    simpa using htrim
  exact Text.mem_trim (List.mem_filter.2 ⟨hmem, by decide⟩) (by decide)

/-- Reading on at a line with a letter yields no item exactly if that line is no bullet and either
ends the block or is followed by no item. -/
theorem itemsFrom_letter_eq_nil_iff {progress : Progress} {line : Text} (h : 'R' ∈ line)
    (rest : List Text) :
    itemsFrom progress (line :: rest) = [] ↔
      bullet? (Text.trim line) = none ∧
        (progress.hasItem = true ∨ itemsFrom progress rest = []) := by
  rw [collect_cons, classify_of_letter_mem h]
  cases hbullet : bullet? (Text.trim line) with
  | none =>
    dsimp only
    rw [Progress.next?]
    cases progress.hasItem <;> simp [itemsFrom?, Line.item?]
  | some content =>
    obtain ⟨c, content, rfl⟩ :=
      List.exists_cons_of_ne_nil (List.ne_nil_of_mem (letter_mem_content h hbullet))
    simp [Line.item?]

/-! ### Independence -/

/-- A block that is open at the end of a text remembers whether it has items. -/
theorem hasItem_progressAtEnd? {marker text : Text} {progress : Progress}
    (h : progressAtEnd? marker text = some progress) :
    progress.hasItem = true ↔ items marker text ≠ [] := by
  rw [Progress.after?_hasItem h, items_eq]
  simp [Progress.start]

/-- **When two blocks are independent.** Let a text hold the block of one marker and end with a
line feed, and let the first line of the text behind it mention the other marker. The second text
changes nothing about the list of the first exactly if the first block has ended before, or if the
second marker is not written as a bullet and the first list has an item or the lines behind the
second marker bring none. -/
theorem items_append_eq_iff (kind : Kind) {a b first : Text} {rest : List Text}
    (hmarker : ∃ line ∈ Text.lines a, Text.mentions kind.marker line = true)
    (hend : a = [] ∨ a.getLast? = some '\n')
    (hb : Text.lines b = first :: rest)
    (hfirst : Text.mentions kind.other.marker first = true) :
    kind.items (a ++ b) = kind.items a ↔
      ∀ progress, progressAtEnd? kind.marker a = some progress →
        bullet? (Text.trim first) = none ∧
          (kind.items a ≠ [] ∨ itemsFrom progress rest = []) := by
  have hletter : 'R' ∈ first := mem_of_mentions hfirst kind.other.letter_mem_marker
  rw [Kind.items, Kind.items, items_append hmarker hend, hb, List.append_right_eq_self]
  cases hprogress : progressAtEnd? kind.marker a with
  | none => simp [itemsFrom?]
  | some progress =>
    rw [itemsFrom?, itemsFrom_letter_eq_nil_iff hletter, hasItem_progressAtEnd? hprogress]
    constructor
    · rintro h progress' heq
      obtain rfl := Option.some.inj heq
      exact h
    · intro h
      exact h progress rfl

/-- A list of specs that is still open when the pages start is independent of them: it has an item,
and the marker of the pages is no bullet. -/
theorem items_append_eq_of_open_list :
    Kind.specs.items ("Run these Cypress specs too:\n- a.cy.js\n".toList
        ++ "Run these pages too:\n- /about\n".toList)
      = Kind.specs.items "Run these Cypress specs too:\n- a.cy.js\n".toList := by
  have hlines : Text.lines "Run these pages too:\n- /about\n".toList
      = "Run these pages too:".toList :: ["- /about".toList] := by decide
  rw [items_append_eq_iff .specs (by decide) (by decide) hlines (by decide)]
  intro progress _
  exact ⟨by decide, .inl (by decide)⟩

/-- Where no spec is listed, the page listed next is taken for one. Each of the two texts mentions
its own marker alone. -/
theorem specs_take_pages :
    (∃ line ∈ Text.lines "Run these Cypress specs too:\n".toList,
      Text.mentions specsMarker line = true) ∧
    (∀ line ∈ Text.lines "Run these Cypress specs too:\n".toList,
      Text.mentions pagesMarker line = false) ∧
    Text.lines "Run these pages too:\n- /about\n".toList
      = ["Run these pages too:".toList, "- /about".toList] ∧
    (∀ line ∈ Text.lines "Run these pages too:\n- /about\n".toList,
      Text.mentions specsMarker line = false) ∧
    specs "Run these Cypress specs too:\n".toList = [] ∧
    specs ("Run these Cypress specs too:\n".toList ++ "Run these pages too:\n- /about\n".toList)
      = ["/about".toList] := by
  decide

end ListBlock
end PullPlan
