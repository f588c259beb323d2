import PullPlan.EnvValue.Cast

/-!
# Directives

A directive stands on a line of its own, and each function here looks at one line.

* `baseUrl?` reads `baseUrl URL` and `Test URL: URL`, indented or not.
* `assignment?` reads `CYPRESS_NAME=value`, which may not be indented.
* `runSuite?` reads the checkbox that asks for the suite.
-/

namespace PullPlan
namespace Directive

/-- The word before a base URL; a blank has to follow it. -/
def baseUrlKeyword : Text := "baseUrl".toList

/-- The label before a base URL. -/
def testUrlLabel : Text := "Test URL:".toList

/-- The start of a line that assigns an environment variable. -/
def variableLead : Text := "CYPRESS_".toList

/-- What follows the keyword or the label of a base URL. -/
def afterBaseUrlLead? (line : Text) : Option Text :=
  let start := Text.trimStart line
  match Text.after? baseUrlKeyword start with
  | some rest => if rest.head?.any isBlank then some rest else none
  | none => Text.after? testUrlLabel start

/-- The base URL that a line declares. -/
def baseUrl? (line : Text) : Option Text := do
  let rest ← afterBaseUrlLead? line
  let url := Text.trim rest
  if url.isEmpty then none else some url

/-- The variable that a line declares, and its value. The text after the lead is trimmed as a
whole, so blanks directly after the first `=` belong to the value. -/
def assignment? (line : Text) : Option (Text × EnvValue) := do
  let rest ← Text.after? variableLead line
  let rest := Text.trim rest
  let (key, value) := match Text.cutAt? '=' rest with
    | some (before, behind) => (Text.trim before, EnvValue.ofText behind)
    | none => (rest, .absent)
  if key.isEmpty then none else some (key, value)

/-- The texts of a checked box that asks for the suite, in small letters. -/
def checkedPhrases : List Text :=
  ["[x] run cypress tests".toList, "[x] run e2e tests".toList]

/-- The texts of an unchecked box that asks for the suite, in small letters. -/
def uncheckedPhrases : List Text :=
  ["[ ] run cypress tests".toList, "[ ] run e2e tests".toList]

/-- Whether the line has the box that asks for the suite, and if so whether it is checked. Case is
ignored. Setting ASCII letters small is enough for that: the only other characters with a small form
that holds an ASCII letter are U+0130 and U+212A, and the phrases have neither `i` nor `k`. -/
def runSuite? (line : Text) : Option Bool :=
  let lower := Text.toLowerAscii line
  if checkedPhrases.any fun phrase => Text.mentions phrase lower then some true
  else if uncheckedPhrases.any fun phrase => Text.mentions phrase lower then some false
  else none

end Directive
end PullPlan
