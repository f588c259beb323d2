import PullPlan.FileTree
import PullPlan.Text.Digit

/-!
# What the files of a repository hold

Many files of a repository hold one name or one id and perhaps a line end. This module has the
rules that they share.

* `Git.heldName` is the name in a file: blanks at the end do not count, and U+0000 ends it.
* `Git.id?` reads an id off the front of a text.
* `Git.follow?` goes where a name leads, to something that is there.

The files of a repository are taken to be readable: that reading one is refused is not looked at.
-/

namespace PullPlan
namespace Git

/-! ### Texts -/

/-- Whether a character is one of the six ASCII blanks. -/
def isAsciiBlank (c : Char) : Bool := c = ' ' || ('\t' ≤ c && c ≤ '\r')

/-- A text without ASCII blanks at its start. -/
def trimFront (t : Text) : Text := t.dropWhile isAsciiBlank

/-- A text without ASCII blanks at its end. -/
def trimBack (t : Text) : Text := (t.reverse.dropWhile isAsciiBlank).reverse

/-- The part of a text before its first U+0000. -/
def beforeNul (t : Text) : Text := t.takeWhile (· ≠ '\x00')

/-- The name that the content of a file is. -/
def heldName (content : Text) : Text := beforeNul (trimBack content)

/-- Bytes as a text: each is the character with its number. -/
def ofBytes (bytes : Bytes) : Text := bytes.map fun b => Char.ofNat b.toNat

/-- The bytes that encode a text, as a text: where lengths and positions count in bytes, texts are
compared in this form. -/
def octets (t : Text) : Text := ofBytes (Utf8.encode t)

/-- The lines of a text, each with its line feed. -/
def fullLines : Text → List Text
  | [] => []
  | c :: t =>
    if c = '\n' then [c] :: fullLines t
    else
      match fullLines t with
      | [] => [[c]]
      | line :: more => (c :: line) :: more

/-- Nothing of a text is lost between its lines. -/
theorem flatten_fullLines (t : Text) : (fullLines t).flatten = t := by
  induction t with
  | nil => rfl
  | cons c t ih =>
    by_cases h : c = '\n'
    · simp [fullLines, h, ih]
    · rw [fullLines, if_neg h]
      split
      · rename_i he
        rw [he] at ih
        simp [← ih]
      · rename_i he
        rw [he] at ih
        simp [← ih]

/-! ### Ids -/

/-- The number of hexadecimal digits of an id. -/
def idLength : Nat := 40

/-- Reads an id off the front of a text, and sets it in small letters. -/
def id? (t : Text) : Option (Text × Text) :=
  let digits := t.take idLength
  if digits.length = idLength && digits.all fun c => (digitValue? 16 c).isSome then
    some (Text.toLowerAscii digits, t.drop idLength)
  else none

/-! ### Files -/

/-- The text of the file at a path. -/
def textAt? (files : FileTree) (path : Path) : Option Text :=
  (files.content? path).map Utf8.decodeLossy

/-- Where a name leads, seen from a directory, if something is there. The empty name leads to the
directory itself. -/
def follow? (files : FileTree) (directory : Path) (name : Text) : Option Path :=
  match files.walk (FileTree.origin directory name) (FileTree.components name) with
  | .ok path => if (files.get? path).isSome then some path else none
  | .error _ => none

end Git
end PullPlan
