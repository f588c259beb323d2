import PullPlan.Toml.Scalar
import PullPlan.Toml.Table

/-!
# Reading TOML

A document is a sequence of statements: headers `[a.b]` and `[[a.b]]`, and assignments `a.b = v`,
each on a line of its own. Inside the brackets of an array there may be line ends and comments, in
the braces of a table there may not. `Value.ofText?` gives the table of a document, or nothing if
the text breaks a rule.
-/

namespace PullPlan
namespace Toml

/-! ### Blanks, comments and line ends -/

/-- Whether a character is a blank inside a line. -/
def isGap (c : Char) : Bool := c = ' ' || c = '\t'

/-- A text without the blanks at its front. -/
def afterGap (t : Text) : Text := t.dropWhile isGap

/-- A text without the blanks, comments and line ends at its front. -/
def afterGaps? (inComment : Bool) : Text → Option Text
  | [] => some []
  | '\n' :: t => afterGaps? false t
  | '\r' :: '\n' :: t => afterGaps? false t
  | c :: t =>
    if inComment then if isPlain c then afterGaps? true t else none
    else if c = '#' then afterGaps? true t
    else if isGap c then afterGaps? false t
    else some (c :: t)

/-- What follows the end of the line, if nothing but blanks and a comment comes before it. -/
def afterLine? (inComment : Bool) : Text → Option Text
  | [] => some []
  | '\n' :: t => some t
  | '\r' :: '\n' :: t => some t
  | c :: t =>
    if inComment then if isPlain c then afterLine? true t else none
    else if c = '#' then afterLine? true t
    else if isGap c then afterLine? false t
    else none

/-! ### Keys -/

/-- Whether a character may stand in a key without quotes. -/
def isKeyChar (c : Char) : Bool := c.isAlphanum || c = '_' || c = '-'

/-- Reads a key off the front of a text. -/
def key? : Text → Option (Text × Text)
  | '"' :: t => basicString t
  | '\'' :: t => literalString t
  | t =>
    let (key, rest) := t.span isKeyChar
    if key.isEmpty then none else some (key, rest)

/-- Reads keys with points between them, and the blanks around each. -/
def keys? : (fuel : Nat) → Text → Option (List Text × Text)
  | 0, _ => none
  | fuel + 1, t => do
    let (key, t) ← key? (afterGap t)
    match afterGap t with
    | '.' :: t =>
      let (more, t) ← keys? fuel t
      some (key :: more, t)
    | t => some ([key], t)

/-- A path has fewer keys than this. -/
def pathLimit : Nat := 80

/-- Reads a path of keys off the front of a text. -/
def path? (t : Text) : Option (List Text × Text) :=
  (keys? t.length t).filter fun read => read.1.length < pathLimit

/-! ### Values -/

/-- Reads the values of an array, after its opening bracket or a comma. -/
def items? (read? : Text → Option (Value × Text)) : (fuel : Nat) → Text →
    Option (List Value × Text)
  | 0, _ => none
  | fuel + 1, t => do
    match ← afterGaps? false t with
    | ']' :: t => some ([], t)
    | t =>
      let (value, t) ← read? t
      match ← afterGaps? false t with
      | ',' :: t =>
        let (more, t) ← items? read? fuel t
        some (value :: more, t)
      | ']' :: t => some ([value], t)
      | _ => none

/-- Reads an assignment up to the end of its value. -/
def assignment? (read? : Text → Option (Value × Text)) (t : Text) :
    Option (List Text × Value × Text) := do
  let (path, t) ← path? t
  let t ← Text.after? ['='] t
  let (value, t) ← read? (afterGap t)
  some (path, value, t)

/-- Reads the assignments of a table in braces. -/
def members? (read? : Text → Option (Value × Text)) : (fuel : Nat) → Entries → Text →
    Option (Entries × Text)
  | 0, _, _ => none
  | fuel + 1, entries, t => do
    let (path, value, t) ← assignment? read? t
    let entries ← assign path value entries
    match afterGap t with
    | ',' :: t => members? read? fuel entries t
    | '\x7d' :: t => some (entries, t)
    | _ => none

/-- Reads a value off the front of a text. At most `depth` arrays and tables may be nested. -/
def value? : (depth : Nat) → Text → Option (Value × Text)
  | depth + 1, '[' :: t =>
    (items? (value? depth) (t.length + 1) t).map fun read => (.array read.1, read.2)
  | depth + 1, '\x7b' :: t =>
    match afterGap t with
    | '\x7d' :: t => some (.table [], t)
    | t =>
      (members? (value? depth) (t.length + 1) [] t).map fun read =>
        (.table (tableEntries read.1), read.2)
  | _, t => scalar? t

/-- The most arrays and tables that may be nested in a value. -/
def depthLimit : Nat := 79

/-! ### Statements -/

/-- Reads statements into a table; `header` is the path of the table that was opened last. -/
def statements? : (fuel : Nat) → (header : List Text) → Entries → Text → Option Entries
  | 0, _, _, _ => none
  | fuel + 1, header, root, t => do
    match ← afterGaps? false t with
    | [] => some root
    | '[' :: '[' :: t =>
      let (path, t) ← path? t
      let t ← Text.after? "]]".toList t
      statements? fuel path (← openElement path root) (← afterLine? false t)
    | '[' :: t =>
      let (path, t) ← path? t
      let t ← Text.after? [']'] t
      statements? fuel path (← openTable path root) (← afterLine? false t)
    | t =>
      let (path, value, t) ← assignment? (value? depthLimit) t
      statements? fuel header (← assignIn header path value root) (← afterLine? false t)

/-- The table of a document. A byte order mark at its front is no part of it. -/
def Value.ofText? (t : Text) : Option Value :=
  let t := match t with
    | '\ufeff' :: t => t
    | t => t
  (statements? (t.length + 1) [] [] t).map fun root => .table (tableEntries root)

end Toml
end PullPlan
