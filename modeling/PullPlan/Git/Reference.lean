import PullPlan.Git.Packed
import PullPlan.Git.Repository

/-!
# References

A reference has a name and says an id, or it names another reference. It has a file of its own or
is one of the packed references.

* `reference?` looks a reference up, and `resolve?` follows symbolic ones.
* `headId?` is the id that `HEAD` leads to. The name in `HEAD` has to be well formed, as
  `normalName?` says; the names behind it need not be.
-/

namespace PullPlan
namespace Git

/-- What a reference says. -/
inductive Reference where
  /-- It says an id; `peeled` is what an annotated tag leads to. -/
  | direct (id : Text) (peeled : Option Text)
  /-- It names another reference. -/
  | symbolic (name : Text)
  deriving DecidableEq

/-! ### Names -/

/-- Whether a character may stand in the name of a reference. -/
def isReferenceChar (c : Char) : Bool := ' ' < c && !"~^:\\?[*".toList.contains c

/-- Whether a component of a name is well formed. -/
def isReferencePart (part : Text) : Bool :=
  part.all isReferenceChar && part.head? ≠ some '.' && !Text.mentions "..".toList part
    && !Text.mentions "@\x7b".toList part && !Text.opensWith ".lock".toList.reverse part.reverse

/-- Whether a text is in capital letters; there may be low lines between them. -/
def isCapital (t : Text) : Bool :=
  !t.isEmpty && (t.all fun c => c.isUpper || c = '_') && t.head? ≠ some '_'
    && t.getLast? ≠ some '_'

/-- A name has fewer bytes than this. -/
def maxReferenceName : Nat := 1024

/-- The components of a name with slashes between them. -/
def joined (parts : List Text) : Text := ['/'].intercalate parts

/-- A name in its normal form, without empty components, if it is well formed: the name is one word
in capital letters or `@`, or it has several components of which the first is no such word. -/
def normalName? (name : Text) : Option Text :=
  let parts := (FileTree.components name).filter fun part => !part.isEmpty
  let isWellFormed := match parts with
    | [] => false
    | [word] => isCapital word || word = ['@']
    | first :: _ => !isCapital first
  if isWellFormed && parts.all isReferencePart && name.head? ≠ some '/'
      && name.getLast? ≠ some '/' && name.getLast? ≠ some '.'
      && (Utf8.encode (joined parts)).length < maxReferenceName then
    some (joined parts)
  else none

/-! ### Looking references up -/

/-- What the names start with that each working tree has for itself below `refs`. -/
def ownLeads : List Text :=
  ["refs/bisect/".toList, "refs/worktree/".toList, "refs/rewritten/".toList]

/-- The directory that has the file of a reference. -/
def Repository.baseOf (repository : Repository) (name : Text) : Path :=
  if Text.opensWith "refs/".toList name && ownLeads.all fun lead => !Text.opensWith lead name then
    repository.common
  else repository.own

/-- Reads the content of a reference's own file. -/
def loose? (content : Text) : Option Reference :=
  if Text.opensWith "ref: ".toList content then
    match Text.after? "ref: ".toList (trimBack content) with
    | some (c :: rest) => some (.symbolic (beforeNul (c :: rest)))
    | _ => none
  else
    match id? content with
    | some (id, []) => some (.direct id none)
    | some (id, c :: _) => if c = '\x00' || isAsciiBlank c then some (.direct id none) else none
    | none => none

/-- Looks a name up among the packed references. -/
def packed? (files : FileTree) (repository : Repository) (name : Text) : Option Reference := do
  let content ← files.content? (repository.common ++ ["packed-refs".toList])
  let packed ← Packed.find? (ofBytes content) (octets name)
  return .direct packed.id packed.peeled

/-- The reference of a name. A name that is too long for a file is not looked up any further. -/
def reference? (files : FileTree) (repository : Repository) (name : Text) : Option Reference :=
  match files.walk (repository.baseOf name) (FileTree.components name) with
  | .ok path =>
    match textAt? files path with
    | some content => loose? content
    | none => packed? files repository name
  | .error .nameTooLong => none
  | .error _ => packed? files repository name

/-! ### Following references -/

/-- How many symbolic references may follow each other behind the one that `HEAD` names. -/
def maxHops : Nat := 5

/-- Whether an id is the one that stands for no object. -/
def isZero (id : Text) : Bool := id.all (· = '0')

/-- Follows symbolic references to the id of an object, which is what an annotated tag leads to,
if that is known. -/
def resolve? (files : FileTree) (repository : Repository) (hops : Nat) (name : Text) :
    Option Text :=
  match reference? files repository name with
  | some (.direct id peeled) => some ((peeled.filter fun peeled => !isZero peeled).getD id)
  | some (.symbolic next) =>
    match hops with
    | 0 => none
    | hops + 1 => resolve? files repository hops next
  | none => none

/-- The id that `HEAD` leads to. -/
def headId? (files : FileTree) (repository : Repository) : Option Text := do
  match ← reference? files repository "HEAD".toList with
  | .direct id _ => return id
  | .symbolic name => resolve? files repository maxHops (← normalName? name)

end Git
end PullPlan
