import PullPlan.Git.Content

/-!
# Packed references

A repository may keep many references in one file: a line for each one with its id and its name,
and perhaps a second line with what the reference leads to, marked by `^`. Lines that start with `#`
may stand before them. Names are compared by their bytes, so the file and the names are taken as
texts of octets.

* `Packed.find?` looks a name up in the content of the file.
* If the first line says that the records are sorted, `Packed.Sorted.find?` halves the file until it
  meets the name, and reads no record but the one that it meets. It ends because a record does not
  start behind a position in it (`Sorted.start_le`) and does not end before it (`Sorted.lt_finish`).
  Otherwise every record is read, and has to be well formed.
-/

namespace PullPlan
namespace Git

/-- A packed reference. -/
structure Packed where
  /-- Its name. -/
  name : Text
  /-- Its id. -/
  id : Text
  /-- The id of what it leads to, if the file has it. -/
  peeled : Option Text
  deriving DecidableEq

namespace Packed

/-- What the first line starts with. -/
def traitsLead : Text := "# pack-refs with:".toList

/-- Whether the first line says that the records are sorted. -/
def isSorted (content : Text) : Bool :=
  match (Text.after? traitsLead content).bind (Text.cutAt? '\n') with
  | some (traits, _) => Text.mentions " sorted ".toList traits
  | none => false

/-- Takes the lines that start with `#` off the front. The first argument splits a line off, and the
second one bounds their number. -/
def skipComments? (line? : Text → Option (Text × Text)) : Nat → Text → Option Text
  | 0, t => some t
  | count + 1, t =>
    if t.head? = some '#' then (line? t).bind fun parts => skipComments? line? count parts.2
    else some t

/-! ### Reading all records -/

/-- Reads up to a line feed. There may be no U+0000 before it. -/
def line? (t : Text) : Option (Text × Text) :=
  (Text.cutAt? '\n' t).filter fun parts => !parts.1.contains '\x00'

/-- Reads the line about what a record leads to, if there is one. What stands behind the id does
not count. -/
def peeled? (t : Text) : Option (Option Text × Text) :=
  match t with
  | '^' :: rest => do
    let (id, rest) ← id? rest
    if rest.isEmpty then return (some id, [])
    else
      let (_, rest) ← line? rest
      return (some id, rest)
  | _ => some (none, t)

/-- Reads a record. A carriage return before the line feed is no part of the name. -/
def record? (t : Text) : Option (Packed × Text) := do
  let (id, t) ← id? t
  let t ← Text.after? [' '] t
  let (name, t) ← line? t
  let (peeled, t) ← peeled? t
  return (⟨if name.getLast? = some '\r' then name.dropLast else name, id, peeled⟩, t)

/-- Reads records to the end of the file. The first argument bounds their number. -/
def records? : Nat → Text → Option (List Packed)
  | 0, _ => some []
  | count + 1, t =>
    if t.isEmpty then some []
    else do
      let (record, t) ← record? t
      let more ← records? count t
      return record :: more

/-- The record of a name, put together from all of that name: the last id, and the last of what
they lead to. -/
def named? (records : List Packed) (name : Text) : Option Packed :=
  let found := records.filter fun record => record.name = name
  found.getLast?.map fun last => { last with peeled := (found.filterMap Packed.peeled).getLast? }

/-! ### Searching sorted records -/

namespace Sorted

/-- The start of the record around a position, but not before `left`: behind the last line feed
that no mark `^` follows. Only the positions before the given one are looked at. -/
def start (content : Array Char) (left : Nat) : Nat → Nat
  | 0 => left
  | 1 => if left = 0 && content[0]? = some '\n' then 1 else left
  | position + 2 =>
    if position + 1 < left then left
    else if content[position + 1]? = some '\n' then
      if content[position + 2]? = some '^' && left < position + 1 then start content left position
      else position + 2
    else start content left (position + 1)

/-- A record does not start behind the position that it is around. -/
theorem start_le (content : Array Char) {left position : Nat} (h : left ≤ position) :
    start content left position ≤ position := by
  fun_induction start content left position with
  | case1 => exact h
  | case2 => simp
  | case3 => exact h
  | case4 => exact h
  | case5 position _ _ hc ih =>
    simp only [Bool.and_eq_true, decide_eq_true_eq] at hc
    have := ih (by omega)
    omega
  | case6 => exact Nat.le_refl _
  | case7 position _ _ ih =>
    have := ih (by omega)
    omega

/-- The end of the record around a position, but not behind `right`: behind the first line feed
that no mark `^` follows. -/
def finish (content : Array Char) (right position : Nat) : Nat :=
  if position < right then
    if content[position]? = some '\n' then
      if position + 1 < right && content[position + 1]? = some '^' then
        finish content right (position + 2)
      else position + 1
    else finish content right (position + 1)
  else right
  termination_by right - position

/-- A record ends behind each position in it. -/
theorem lt_finish (content : Array Char) {right position : Nat} (h : position < right) :
    position < finish content right position := by
  fun_induction finish content right position with
  | case1 position _ _ hc ih =>
    simp only [Bool.and_eq_true, decide_eq_true_eq] at hc
    by_cases hp : position + 2 < right
    · have := ih hp
      omega
    · rw [finish, if_neg hp]
      omega
  | case2 => exact Nat.lt_succ_self _
  | case3 position _ _ ih =>
    by_cases hp : position + 1 < right
    · have := ih hp
      omega
    · rw [finish, if_neg hp]
      omega
  | case4 => contradiction

/-- The content from a position on. -/
def behind (content : Array Char) (position : Nat) : Text := content.toList.drop position

/-- Where the name of a record starts, behind the id and a space. -/
def nameOffset : Nat := idLength + 1

/-- Compares the name in the record at a position with a name. A record that breaks off is less
than any name. -/
def compare (content : Array Char) (name : Text) (position : Nat) : Ordering :=
  let record := behind content position
  if record.length < nameOffset + 2 then .lt
  else
    let found := (record.drop nameOffset).takeWhile (· ≠ '\n')
    if found < name then .lt else if found = name then .eq else .gt

/-- The position of the record of a name between two positions. A record neither starts behind the
middle nor ends before it, so each step leaves less between the two. -/
def position? (content : Array Char) (name : Text) (left right : Nat) : Option Nat :=
  if _ : left < right then
    let middle := left + (right - left) / 2
    let record := start content left middle
    match compare content name record with
    | .lt => position? content name (finish content right middle) right
    | .eq => some record
    | .gt => position? content name left record
  else none
  termination_by right - left
  decreasing_by
    · have hmiddle : left + (right - left) / 2 < right := by omega
      have hfinish := lt_finish content hmiddle
      omega
    · have hmiddle : left ≤ left + (right - left) / 2 := by omega
      have hstart := start_le content hmiddle
      omega

/-- The record of a name in a sorted file. -/
def find? (content name : Text) : Option Packed := do
  let records ← skipComments? (Text.cutAt? '\n') content.length content
  let content := content.toArray
  let position ← position? content name (content.size - records.length) content.size
  let (id, _) ← id? (behind content position)
  let (_, rest) ← Text.cutAt? '\n' (behind content (position + nameOffset))
  match rest with
  | '^' :: rest => do
    let (peeled, _) ← id? rest
    return ⟨name, id, some peeled⟩
  | _ => return ⟨name, id, none⟩

end Sorted

/-! ### Looking a name up -/

/-- The record of a name in the content of the file; both are texts of octets. -/
def find? (content name : Text) : Option Packed :=
  if isSorted content then Sorted.find? content name
  else do
    let t ← skipComments? line? content.length content
    named? (← records? content.length t) name

end Packed
end Git
end PullPlan
