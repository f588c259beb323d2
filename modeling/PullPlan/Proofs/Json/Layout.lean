import PullPlan.Proofs.Json.Reader
import PullPlan.Proofs.Json.Tree

/-!
# Printing and reading back

`Json.compact` and `Json.pretty` differ in the gaps between tokens alone. A `Layout` says what these
gaps are, and `Layout.write` prints a value with them; `compact_eq_write` and `pretty_eq_write` say
that the two printers are instances of it.

The reader finds the tree of a value in its text, whatever the value and the layout
(`Layout.ofText?_write`), so different values have different texts (`pretty_injective`). The proof
follows the value: `Layout.run_write` reads a value up to the state that holds its tree, on any
stack of open arrays and objects.

What the reader makes of that tree is the value again if the value is one that it could have
yielded: nested no deeper than it reads, its objects sorted, each of its numbers read back.
-/

namespace PullPlan
namespace Json

/-- The gaps of a printed value. -/
structure Layout where
  /-- What stands before an item or an entry, and before the end, at a level. -/
  breakAt : Nat → Text
  /-- What stands between a colon and the value behind it. -/
  afterColon : Text
  isGap_breakAt : ∀ level, ∀ c ∈ breakAt level, State.isGap c = true
  isGap_afterColon : ∀ c ∈ afterColon, State.isGap c = true

namespace Layout

/-- A key with its colon and the gap behind it. -/
def label (L : Layout) (key : Text) : Text := quote key ++ ':' :: L.afterColon

mutual

/-- The text of a value that stands at the given level. There is a gap only where there is an item
or an entry. -/
def write (L : Layout) : Json → Nat → Text
  | .array (item :: items), level =>
    '[' :: L.breakAt (level + 1) ++ write L item (level + 1) ++ writeItems L items level
  | .object ((key, value) :: entries), level =>
    '\x7b' :: L.breakAt (level + 1) ++ L.label key ++ write L value (level + 1)
      ++ writeEntries L entries level
  | v, _ => v.compact

/-- The further items of an array that stands at the given level, and its end. -/
def writeItems (L : Layout) : List Json → Nat → Text
  | [], level => L.breakAt level ++ [']']
  | item :: items, level =>
    ',' :: L.breakAt (level + 1) ++ write L item (level + 1) ++ writeItems L items level

/-- The further entries of an object that stands at the given level, and its end. -/
def writeEntries (L : Layout) : List (Text × Json) → Nat → Text
  | [], level => L.breakAt level ++ ['\x7d']
  | (key, value) :: entries, level =>
    ',' :: L.breakAt (level + 1) ++ L.label key ++ write L value (level + 1)
      ++ writeEntries L entries level

end

/-! ### The two printers -/

/-- No gaps. -/
def tight : Layout := ⟨fun _ => [], [], by simp, by simp⟩

/-- A line for each item and entry, indented by its level, and a space after each colon. -/
def indented : Layout where
  breakAt := newLine
  afterColon := [' ']
  isGap_breakAt level c hc := by
    rcases List.mem_cons.1 hc with rfl | hc
    · decide
    · rw [List.eq_of_mem_replicate hc]
      decide
  isGap_afterColon c hc := by
    rw [List.mem_singleton.1 hc]
    decide

mutual

theorem compact_eq_write : ∀ (v : Json) (level : Nat), v.compact = tight.write v level
  | .null, level => rfl
  | .bool true, level => rfl
  | .bool false, level => rfl
  | .integer i, level => rfl
  | .float x, level => rfl
  | .string t, level => rfl
  | .array [], level => rfl
  | .array (item :: items), level => by
    show '[' :: item.compact ++ compactItems items = _
    rw [compact_eq_write item (level + 1), compactItems_eq_writeItems items level]
    rfl
  | .object [], level => rfl
  | .object ((key, value) :: entries), level => by
    show '\x7b' :: quote key ++ ':' :: value.compact ++ compactEntries entries
      = '\x7b' :: [] ++ (quote key ++ [':']) ++ tight.write value (level + 1)
        ++ tight.writeEntries entries level
    rw [compact_eq_write value (level + 1), compactEntries_eq_writeEntries entries level]
    simp only [List.append_assoc, List.cons_append, List.nil_append]

theorem compactItems_eq_writeItems : ∀ (items : List Json) (level : Nat),
    compactItems items = tight.writeItems items level
  | [], level => rfl
  | item :: items, level => by
    rw [compactItems, writeItems, compact_eq_write item (level + 1),
      compactItems_eq_writeItems items level]
    rfl

theorem compactEntries_eq_writeEntries : ∀ (entries : List (Text × Json)) (level : Nat),
    compactEntries entries = tight.writeEntries entries level
  | [], level => rfl
  | (key, value) :: entries, level => by
    show ',' :: quote key ++ ':' :: value.compact ++ compactEntries entries
      = ',' :: [] ++ (quote key ++ [':']) ++ tight.write value (level + 1)
        ++ tight.writeEntries entries level
    rw [compact_eq_write value (level + 1), compactEntries_eq_writeEntries entries level]
    simp only [List.append_assoc, List.cons_append, List.nil_append]

end

mutual

theorem prettyAt_eq_write : ∀ (v : Json) (level : Nat), v.prettyAt level = indented.write v level
  | .null, level => rfl
  | .bool true, level => rfl
  | .bool false, level => rfl
  | .integer i, level => rfl
  | .float x, level => rfl
  | .string t, level => rfl
  | .array [], level => rfl
  | .array (item :: items), level => by
    show '[' :: newLine (level + 1) ++ item.prettyAt (level + 1) ++ prettyItems items level = _
    rw [prettyAt_eq_write item (level + 1), prettyItems_eq_writeItems items level]
    rfl
  | .object [], level => rfl
  | .object ((key, value) :: entries), level => by
    show '\x7b' :: newLine (level + 1) ++ quote key ++ ": ".toList ++ value.prettyAt (level + 1)
      ++ prettyEntries entries level = _
    rw [prettyAt_eq_write value (level + 1), prettyEntries_eq_writeEntries entries level,
      List.append_assoc _ (quote key)]
    rfl

theorem prettyItems_eq_writeItems : ∀ (items : List Json) (level : Nat),
    prettyItems items level = indented.writeItems items level
  | [], level => rfl
  | item :: items, level => by
    rw [prettyItems, writeItems, prettyAt_eq_write item (level + 1),
      prettyItems_eq_writeItems items level]
    rfl

theorem prettyEntries_eq_writeEntries : ∀ (entries : List (Text × Json)) (level : Nat),
    prettyEntries entries level = indented.writeEntries entries level
  | [], level => rfl
  | (key, value) :: entries, level => by
    rw [prettyEntries, writeEntries, prettyAt_eq_write value (level + 1),
      prettyEntries_eq_writeEntries entries level, List.append_assoc _ (quote key)]
    rfl

end

/-! ### Reading back -/

open State (run Holds)

/-- A printed value starts with a printed character that closes no array. -/
theorem write_head (L : Layout) (v : Json) (level : Nat) :
    ∃ c rest, L.write v level = c :: rest ∧ isPrinted c = true ∧ c ≠ ']' := by
  have hnumeral : ∀ {t : Text} {n : Numeral}, Numeral.ofText? t = some n →
      ∃ c rest, t = c :: rest ∧ isPrinted c = true ∧ c ≠ ']' := by
    intro t n h
    obtain ⟨c, rest, hcons, hc⟩ := Numeral.head_of_ofText? h
    refine ⟨c, rest, hcons, ?_⟩
    rcases hc with rfl | hc
    · exact ⟨by decide, by decide⟩
    · exact ⟨isPrinted_of_isAsciiDigit hc, ne_of_isAsciiDigit hc (by decide)⟩
  match v with
  | .null => exact ⟨'n', "ull".toList, rfl, by decide, by decide⟩
  | .bool true => exact ⟨'t', "rue".toList, rfl, by decide, by decide⟩
  | .bool false => exact ⟨'f', "alse".toList, rfl, by decide, by decide⟩
  | .integer i => exact hnumeral (Numeral.ofText?_integerText i)
  | .float x => exact hnumeral (Numeral.ofText?_floatText x)
  | .string t => exact ⟨'"', _, rfl, by decide, by decide⟩
  | .array [] => exact ⟨'[', _, rfl, by decide, by decide⟩
  | .array (item :: items) => exact ⟨'[', _, rfl, by decide, by decide⟩
  | .object [] => exact ⟨'\x7b', _, rfl, by decide, by decide⟩
  | .object ((key, value) :: entries) => exact ⟨'\x7b', _, rfl, by decide, by decide⟩

theorem isGap_of_isPrinted {c : Char} (h : isPrinted c = true) : State.isGap c = false := by
  have hgaps : (" \t\n\r".toList.all fun d => !isPrinted d) = true := by decide
  have hne : ∀ d ∈ " \t\n\r".toList, c ≠ d := by
    rintro d hd rfl
    have hnot := List.all_eq_true.1 hgaps c hd
    rw [h] at hnot
    contradiction
  simp only [State.isGap, hne ' ' (by decide), hne '\t' (by decide), hne '\n' (by decide),
    hne '\r' (by decide), decide_false, Bool.or_false]

/-- A printed value behind the bracket of an array and a gap is read like any other. -/
theorem run_item_write (L : Layout) (v : Json) (level : Nat) (stack : List Frame) (rest : Text) :
    run ⟨stack, .item⟩ (L.breakAt level ++ L.write v level ++ rest)
      = run ⟨stack, .value⟩ (L.write v level ++ rest) := by
  obtain ⟨c, tail, hcons, hprinted, hend⟩ := L.write_head v level
  rw [List.append_assoc, State.run_append, State.run_gap rfl (L.isGap_breakAt level),
    Option.bind_some, hcons, List.cons_append, State.run_item (isGap_of_isPrinted hprinted) hend]

mutual

/-- Reading a printed value leads to a state that holds its tree. -/
theorem run_write (L : Layout) : ∀ (v : Json) (level : Nat) (stack : List Frame),
    ∃ s, run ⟨stack, .value⟩ (L.write v level) = some s ∧ Holds stack v.tree s
  | .null, level, stack => ⟨_, rfl, .inl rfl⟩
  | .bool true, level, stack => ⟨_, rfl, .inl rfl⟩
  | .bool false, level, stack => ⟨_, rfl, .inl rfl⟩
  | .integer i, level, stack => State.run_numeral (Numeral.ofText?_integerText i)
  | .float x, level, stack => State.run_numeral (Numeral.ofText?_floatText x)
  | .string t, level, stack => ⟨_, State.run_quote t, .inl rfl⟩
  | .array [], level, stack => ⟨_, rfl, .inl rfl⟩
  | .array (item :: items), level, stack => by
    -- The first item is read inside the new frame, the further ones from where it is held.
    have hopen : State.step ⟨stack, .value⟩ (some '[') = some ⟨.array [] :: stack, .item⟩ := rfl
    obtain ⟨s, hs, hholds⟩ := run_write L item (level + 1) (.array [] :: stack)
    refine ⟨_, ?_, .inl rfl⟩
    rw [write, List.cons_append, List.cons_append, State.run_cons, hopen, Option.bind_some,
      run_item_write, State.run_append, hs, Option.bind_some, run_writeItems L items level hholds]
    rfl
  | .object [], level, stack => ⟨_, rfl, .inl rfl⟩
  | .object ((key, value) :: entries), level, stack => by
    have hopen : State.step ⟨stack, .value⟩ (some '\x7b') = some ⟨stack, .member⟩ := rfl
    obtain ⟨s, hs, hholds⟩ :=
      run_write L value (level + 1) (.object [] (key.map .char) :: stack)
    refine ⟨_, ?_, .inl rfl⟩
    rw [write, List.append_assoc, List.append_assoc, List.cons_append, State.run_cons, hopen,
      Option.bind_some, State.run_append, State.run_gap rfl (L.isGap_breakAt (level + 1)),
      Option.bind_some, State.run_append, label,
      State.run_key (.inr ⟨rfl, rfl⟩) key L.isGap_afterColon, Option.bind_some, State.run_append,
      hs, Option.bind_some, run_writeEntries L entries level hholds]
    rfl

theorem run_writeItems (L : Layout) : ∀ (items : List Json) (level : Nat) {stack : List Frame}
    {front : List Tree} {tree : Tree} {s : State}, Holds (.array front :: stack) tree s →
    s.run (L.writeItems items level)
      = some ⟨stack, .done (.array (front.reverse ++ tree :: itemTrees items))⟩
  | [], level, stack, front, tree, s, hs => State.run_end_array hs (L.isGap_breakAt level)
  | item :: items, level, stack, front, tree, s, hs => by
    obtain ⟨s', hs', hholds⟩ := run_write L item (level + 1) (.array (tree :: front) :: stack)
    rw [writeItems, List.append_assoc, State.run_append,
      State.run_comma_item hs (L.isGap_breakAt (level + 1)), Option.bind_some, State.run_append,
      hs', Option.bind_some, run_writeItems L items level hholds, List.reverse_cons,
      List.append_assoc]
    rfl

theorem run_writeEntries (L : Layout) : ∀ (entries : List (Text × Json)) (level : Nat)
    {stack : List Frame} {front : List (List Piece × Tree)} {key : List Piece} {tree : Tree}
    {s : State}, Holds (.object front key :: stack) tree s →
    s.run (L.writeEntries entries level)
      = some ⟨stack, .done (.object (front.reverse ++ (key, tree) :: memberTrees entries))⟩
  | [], level, stack, front, key, tree, s, hs => State.run_end_object hs (L.isGap_breakAt level)
  | (name, value) :: entries, level, stack, front, key, tree, s, hs => by
    obtain ⟨s', hs', hholds⟩ :=
      run_write L value (level + 1) (.object ((key, tree) :: front) (name.map .char) :: stack)
    rw [writeEntries, List.append_assoc, List.append_assoc, State.run_append,
      State.run_comma_entry hs (L.isGap_breakAt (level + 1)), Option.bind_some, State.run_append,
      label, State.run_key (.inl rfl) name L.isGap_afterColon, Option.bind_some, State.run_append,
      hs', Option.bind_some, run_writeEntries L entries level hholds, List.reverse_cons,
      List.append_assoc]
    rfl

end

/-- **The tree of a printed value is the value's**, in every layout, and also with a gap behind. -/
theorem ofText?_write_append (L : Layout) (v : Json) (level : Nat) {gap : Text}
    (hgap : ∀ c ∈ gap, State.isGap c = true) :
    Tree.ofText? (L.write v level ++ gap) = some v.tree := by
  obtain ⟨s, hs, hholds⟩ := L.run_write v level []
  have hfront : ∀ c ∈ ([] : Text), State.isGap c = true := nofun
  exact State.ofText?_of_holds hs hholds hfront hgap

theorem ofText?_write (L : Layout) (v : Json) (level : Nat) :
    Tree.ofText? (L.write v level) = some v.tree := by
  rw [← List.append_nil (L.write v level)]
  exact ofText?_write_append L v level nofun

end Layout

theorem treeOfText?_compact (v : Json) : Tree.ofText? v.compact = some v.tree := by
  rw [Layout.compact_eq_write v 0, Layout.ofText?_write]

theorem treeOfText?_pretty (v : Json) : Tree.ofText? v.pretty = some v.tree := by
  rw [pretty, Layout.prettyAt_eq_write v 0, Layout.ofText?_write]

/-- The line break that ends a printed text is a gap. -/
theorem treeOfText?_pretty_line (v : Json) : Tree.ofText? (v.pretty ++ ['\n']) = some v.tree := by
  have hbreak : ∀ c ∈ ['\n'], State.isGap c = true := List.forall_mem_singleton.2 rfl
  rw [pretty, Layout.prettyAt_eq_write v 0]
  exact Layout.ofText?_write_append _ v 0 hbreak

/-- Different values have different texts. -/
theorem pretty_injective {v w : Json} (h : v.pretty = w.pretty) : v = w := by
  have htree := treeOfText?_pretty v
  rw [h, treeOfText?_pretty] at htree
  exact (tree_injective (Option.some.inj htree)).symm

theorem ofText?_compact {v : Json} (hnormal : IsNormal v depthLimit)
    (hback : ∀ n ∈ v.numbers, n.IsReadBack) : ofText? v.compact = some v := by
  rw [ofText?, treeOfText?_compact]
  exact (value?_tree_iff hnormal).2 hback

end Json
end PullPlan
