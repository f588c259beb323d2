import PullPlan.Text.Blank

/-!
# Tags

Which tags a text checks. A line is checked when it holds `[x]`; a checked line counts each tag
that it mentions, in the order in which the tags are asked for, and a tag that several lines check
is counted once for each of them.
-/

namespace PullPlan

/-- The tags that a text selects. -/
structure TagSelection where
  /-- Whether all tests are selected. -/
  runAll : Bool
  /-- The tags found, line by line. -/
  tags : List Text
  deriving DecidableEq

namespace Tags

/-- The mark of a checked box. -/
def checkedMark : Text := "[x]".toList

/-- The phrase that selects all tests on a checked line. -/
def allTestsPhrase : Text := "all tests".toList

/-- Whether a line has a checked box. -/
def isChecked (line : Text) : Bool := Text.mentions checkedMark line

/-- The checked lines of a text. -/
def checkedLines (text : Text) : List Text := (Text.lines text).filter isChecked

/-- The selection that a text makes among some tags. Where there are no tags to choose from, all
tests are selected. -/
def scan (text : Text) (tags : List Text) : TagSelection :=
  if tags.isEmpty then ⟨true, []⟩
  else
    { runAll := (checkedLines text).any (Text.mentions allTestsPhrase)
      tags := (checkedLines text).flatMap fun line =>
        tags.filter fun tag => Text.mentions tag line }

/-- Whether a character separates the tags of a list. -/
def isSeparator (c : Char) : Bool := c = ',' || isBlank c

/-- Splits a text at each separator; between two of them stands an empty text. -/
def pieces : Text → List Text
  | [] => [[]]
  | c :: t =>
    if isSeparator c then [] :: pieces t
    else
      match pieces t with
      | [] => [[c]]
      | piece :: more => (c :: piece) :: more

/-- The tags of a list such as `@sanity, @quick`. -/
def split (raw : Text) : List Text := (pieces raw).filter fun tag => !tag.isEmpty

/-- Joins tags the way a grep filter expects them; no tags are no filter. -/
def join? (tags : List Text) : Option Text :=
  if tags.isEmpty then none else some ([','].intercalate tags)

end Tags
end PullPlan
