import PullPlan.Text.Blank

/-!
# List blocks

A marker line opens a block of bullets:

    Run these Cypress specs too:

    - cypress/e2e/login.cy.js
    - cypress/e2e/cart.cy.js

Text between the marker and the first bullet is passed over. Once the list has begun a blank line
ends it, and once it has an item any other text ends it too. A lone `-` keeps the list open without
adding an item.
-/

namespace PullPlan
namespace ListBlock

/-- The marker of the additional specs. -/
def specsMarker : Text := "Run these Cypress specs too".toList

/-- The marker of the pages to visit. -/
def pagesMarker : Text := "Run these pages too".toList

/-- The content of a bullet line, without backticks and without blanks around it. -/
def bullet? (line : Text) : Option Text :=
  (Text.after? "- ".toList line).map fun content => Text.trim (content.filter (· ≠ '\x60'))

/-- What a trimmed line is to a list block. -/
inductive Line where
  /-- A line without characters. -/
  | blank
  /-- A lone `-`. -/
  | dash
  /-- A bullet with its content. -/
  | bullet (content : Text)
  /-- Any other text. -/
  | other

/-- Classifies a line, trimmed first. -/
def classify (line : Text) : Line :=
  let line := Text.trim line
  if line = ['-'] then .dash
  else
    match bullet? line with
    | some content => .bullet content
    | none => if line.isEmpty then .blank else .other

/-- The items of the lines after the marker. `begun` says whether a list line was seen and
`hasItem` whether an item was. -/
def collect (begun hasItem : Bool) : List Text → List Text
  | [] => []
  | line :: rest =>
    match classify line with
    | .dash => collect true hasItem rest
    | .bullet [] => collect true hasItem rest
    | .bullet content => content :: collect true true rest
    | .blank => if begun then [] else collect begun hasItem rest
    | .other => if hasItem then [] else collect begun hasItem rest

/-- The items of the block after the first line that mentions the marker. -/
def items (marker text : Text) : List Text :=
  collect false false (((Text.lines text).dropWhile fun line => !Text.mentions marker line).drop 1)

/-- The spec files to run in addition. -/
def specs (text : Text) : List Text := items specsMarker text

/-- The pages to visit in addition. -/
def pages (text : Text) : List Text := items pagesMarker text

end ListBlock
end PullPlan
