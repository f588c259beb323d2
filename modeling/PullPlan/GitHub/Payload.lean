import PullPlan.Json.Decoding

/-!
# Answers of the GitHub API

What is read from the JSON texts that the API answers with. All other fields are skipped.
-/

namespace PullPlan
namespace GitHub

/-- An open pull request and the commit at its head. -/
structure OpenPull where
  /-- The number of the pull request. -/
  number : Nat
  /-- The commit at its head. -/
  head : Text
  deriving DecidableEq

namespace Payload

/-- The body of a pull request; it may be missing or `null`. -/
def details? (tree : Json.Tree) : Option (Option Text) := do
  let fields ← tree.fields? ["body".toList]
  match fields with
  | [some body] => body.nullable? Json.Tree.text?
  | _ => some none

/-- The bodies of a list of comments; a missing body is empty. -/
def comments? (tree : Json.Tree) : Option (List Text) :=
  tree.list? fun comment => (details? comment).map (·.getD [])

/-- The head of a pull request. -/
def head? (tree : Json.Tree) : Option Text := do
  let fields ← tree.fields? ["sha".toList]
  match fields with
  | [some sha] => sha.text?
  | _ => none

/-- An entry of the list of open pull requests. -/
def openPull? (tree : Json.Tree) : Option OpenPull := do
  let fields ← tree.fields? ["number".toList, "head".toList]
  match fields with
  | [some number, some head] => return ⟨← number.natural?, ← head? head⟩
  | _ => none

/-- The list of open pull requests. -/
def openPulls? (tree : Json.Tree) : Option (List OpenPull) := tree.list? openPull?

end Payload
end GitHub
end PullPlan
