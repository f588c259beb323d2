import PullPlan.Text.Digit

/-!
# Patterns for paths

A pattern is a list of pieces, and a path matches when its characters can be handed out to the
pieces in order. A star stands for characters of one component; two stars that make up a whole
component stand for any number of components, also for none.

* `Glob.ofText` reads a pattern.
* `Glob.accepts` matches a path against it. `Glob.matchesPieces_star` and
  `Glob.matchesPieces_deepStar` say what the two stars match alone.
-/

namespace PullPlan
namespace Glob

/-- What a set of characters in brackets lists. -/
inductive Member where
  /-- This character. -/
  | char (c : Char)
  /-- The characters between two, both included. -/
  | range (first last : Char)
  /-- The characters of a named class. -/
  | named (holds : Char → Bool)

/-- A piece of a pattern. -/
inductive Piece where
  /-- This character. -/
  | char (c : Char)
  /-- One character that is no slash. -/
  | one
  /-- One character that is no slash and is listed, or is not listed. -/
  | set (negated : Bool) (members : List Member)
  /-- Any number of characters without a slash. -/
  | star
  /-- Any number of characters. If `skips` holds, the piece may also stand for nothing together
  with the slash behind it. -/
  | deepStar (skips : Bool)
  /-- What no text matches, since the rest of the pattern is malformed. -/
  | never

/-! ### Reading a pattern -/

/-- Whether a character is printed and is no blank. -/
def isGraphic (c : Char) : Bool := '!' ≤ c && c ≤ '~'

/-- The classes that have names. With `folded`, small letters count as capital ones too. -/
def classNamed? (folded : Bool) (name : Text) : Option (Char → Bool) :=
  let classes : List (String × (Char → Bool)) :=
    [("alnum", Char.isAlphanum), ("alpha", Char.isAlpha),
      ("blank", fun c => c = ' ' || c = '\t'), ("cntrl", fun c => c < ' ' || c = '\x7f'),
      ("digit", Char.isDigit), ("graph", isGraphic), ("lower", Char.isLower),
      ("print", fun c => c = ' ' || isGraphic c),
      ("punct", fun c => isGraphic c && !c.isAlphanum),
      ("space", fun c => c = ' ' || ('\t' ≤ c && c ≤ '\r')),
      ("upper", fun c => c.isUpper || (folded && c.isLower)),
      ("xdigit", fun c => (digitValue? 16 c).isSome)]
  (classes.find? fun entry => entry.1.toList = name).map (·.2)

/-- Reads what a set lists, up to its closing bracket, which at the start is a member. `previous` is
the character that may start a range. -/
def members? (folded : Bool) :
    Nat → (isFirst : Bool) → (previous : Option Char) → Text → Option (List Member × Text)
  | 0, _, _, _ => none
  | _, _, _, [] => none
  | count + 1, isFirst, previous, c :: t =>
    let go (member : Member) (previous : Option Char) (t : Text) :=
      (members? folded count false previous t).map fun found => (member :: found.1, found.2)
    if c = ']' && !isFirst then some ([], t)
    else
      match c, previous, t with
      | '\\', _, d :: t => go (.char d) (some d) t
      | '\\', _, [] => none
      | '-', some _, ['\\'] => none
      | '-', some first, '\\' :: d :: t => go (.range first d) none t
      | '-', some first, d :: t =>
        if d = ']' then go (.char c) (some c) (d :: t) else go (.range first d) none t
      | '[', _, ':' :: t =>
        match Text.cutAt? ']' t with
        | none => none
        | some (name, behind) =>
          if name.getLast? = some ':' then
            match classNamed? folded name.dropLast with
            | some holds => go (.named holds) none behind
            | none => none
          else go (.char c) (some c) (':' :: t)
      | _, _, t => go (.char c) (some c) t

/-- Reads a pattern. `opens` says that a component starts here. With `folded`, capital letters
count as small ones. -/
def pieces (folded : Bool) : Nat → (opens : Bool) → Text → List Piece
  | 0, _, _ => []
  | _, _, [] => []
  | count + 1, opens, c :: t =>
    match c, t with
    | '\\', d :: t => .char d :: pieces folded count (d = '/') t
    | '\\', [] => [.never]
    | '?', t => .one :: pieces folded count false t
    | '*', '*' :: t =>
      let t := t.dropWhile (· = '*')
      let closes := t.isEmpty || Text.opensWith ['/'] t || Text.opensWith ['\\', '/'] t
      let piece := if opens && closes then .deepStar (Text.opensWith ['/'] t) else .star
      piece :: pieces folded count false t
    | '*', t => .star :: pieces folded count false t
    | '[', t =>
      let (negated, t) := match t with
        | '!' :: t => (true, t)
        | '^' :: t => (true, t)
        | t => (false, t)
      match members? folded (t.length + 1) true none t with
      | some (members, t) => .set negated members :: pieces folded count false t
      | none => [.never]
    | c, t => .char (if folded then c.toLower else c) :: pieces folded count (c = '/') t

/-- The pieces of a pattern. -/
def ofText (folded : Bool) (pattern : Text) : List Piece :=
  pieces folded pattern.length true pattern

/-! ### Matching -/

/-- Whether a character is listed. With `folded`, a small letter is also looked up as the capital
one where a range is listed. -/
def Member.has (folded : Bool) (member : Member) (c : Char) : Bool :=
  match member with
  | .char d => c = d
  | .range first last =>
    (first ≤ c && c ≤ last) || (folded && first ≤ c.toUpper && c.toUpper ≤ last)
  | .named holds => holds c

/-- Whether a text matches pieces. -/
def matchesPieces (folded : Bool) : List Piece → Text → Bool
  | [], t => t.isEmpty
  | .star :: pieces, [] => matchesPieces folded pieces []
  | .star :: pieces, c :: t =>
    matchesPieces folded pieces (c :: t)
      || (c ≠ '/' && matchesPieces folded (.star :: pieces) t)
  | .deepStar skips :: pieces, t =>
    (skips && matchesPieces folded (pieces.drop 1) t) || matchesPieces folded pieces t
      || match t with
        | [] => false
        | _ :: t => matchesPieces folded (.deepStar false :: pieces) t
  | _ :: _, [] => false
  | piece :: pieces, c :: t =>
    let fits := match piece with
      | .char d => c = d
      | .one => c ≠ '/'
      | .set negated members =>
        c ≠ '/' && (members.any fun member => member.has folded c) ≠ negated
      | _ => false
    fits && matchesPieces folded pieces t
  termination_by pieces t => pieces.length + t.length

/-- A star alone matches the texts of one component. -/
theorem matchesPieces_star {folded : Bool} {t : Text} :
    matchesPieces folded [.star] t = true ↔ '/' ∉ t := by
  induction t with
  | nil => simp [matchesPieces]
  | cons c t ih =>
    have hc : c ≠ '/' ↔ '/' ≠ c := ne_comm
    simp [matchesPieces, ih, hc]

/-- Two stars alone match every text. -/
theorem matchesPieces_deepStar {folded : Bool} (t : Text) :
    matchesPieces folded [.deepStar false] t = true := by
  induction t with
  | nil => simp [matchesPieces]
  | cons c t ih => simp [matchesPieces, ih]

/-- Whether a path matches a pattern. With `folded`, capital letters count as small ones. -/
def accepts (folded : Bool) (pattern path : Text) : Bool :=
  matchesPieces folded (ofText folded pattern) (if folded then Text.toLowerAscii path else path)

end Glob
end PullPlan
