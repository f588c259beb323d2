import PullPlan.Json.Tree
import PullPlan.Text.Utf8

/-!
# Reading JSON

The reader takes one character at a time. Its state is a stack of the arrays and objects that are
open, and a focus: what is being read, or what may come next. Reading a text is a fold of
`State.step`, so that reading `s ++ t` is reading `s` and then `t`.

The input holds `none` for a malformed stretch of bytes, which is accepted inside strings alone.

* `Tree.ofUnits?` reads such an input, `Tree.ofText?` a text.
* `Json.ofText?` reads the value of a text.
-/

namespace PullPlan
namespace Json

/-- An array or object that is open. -/
inductive Frame where
  /-- An array with the items before the current one, the latest first. -/
  | array (items : List Tree)
  /-- An object with the members before the current one, the latest first, and the current key. -/
  | object (members : List (List Piece × Tree)) (key : List Piece)

/-- What a string is read for. -/
inductive Role where
  /-- It is a value. -/
  | value
  /-- It is the key that follows the given members, the latest first. -/
  | key (members : List (List Piece × Tree))

/-- What is being read, or may come next. -/
inductive Focus where
  /-- A value has to come. -/
  | value
  /-- The first item of an array, or its end. -/
  | item
  /-- The first key of an object, or its end. -/
  | member
  /-- A further key. -/
  | key (members : List (List Piece × Tree))
  /-- The colon after a key. -/
  | colon (members : List (List Piece × Tree)) (key : List Piece)
  /-- The rest of a word, which stands for the given tree. -/
  | word (rest : Text) (tree : Tree)
  /-- Inside a number; the characters so far, the latest first. -/
  | number (characters : Text)
  /-- Inside a string; the pieces so far, the latest first. -/
  | string (role : Role) (pieces : List Piece)
  /-- After a backslash in a string. -/
  | escape (role : Role) (pieces : List Piece)
  /-- Inside a four-digit escape: the digits still to come and the code so far. -/
  | code (role : Role) (pieces : List Piece) (left : Nat) (code : Nat)
  /-- A value is complete. -/
  | done (tree : Tree)

/-- The state of the reader. -/
structure State where
  /-- The open arrays and objects, the innermost first. -/
  stack : List Frame
  /-- What is being read. -/
  focus : Focus

namespace State

/-- The state before the first character. -/
def start : State := ⟨[], .value⟩

/-- Whether a character is a blank between tokens. -/
def isGap (c : Char) : Bool := c = ' ' || c = '\t' || c = '\n' || c = '\r'

/-- Whether a character can be part of a number. -/
def isNumberChar (c : Char) : Bool :=
  isAsciiDigit c || c = '-' || c = '+' || c = '.' || c = 'e' || c = 'E'

/-- The first character of a value. -/
def openValue (stack : List Frame) (c : Char) : Option State :=
  if c = '"' then some ⟨stack, .string .value []⟩
  else if c = '[' then some ⟨.array [] :: stack, .item⟩
  else if c = '\x7b' then some ⟨stack, .member⟩
  else if c = 't' then some ⟨stack, .word "rue".toList (.bool true)⟩
  else if c = 'f' then some ⟨stack, .word "alse".toList (.bool false)⟩
  else if c = 'n' then some ⟨stack, .word "ull".toList .null⟩
  else if c = '-' || isAsciiDigit c then some ⟨stack, .number [c]⟩
  else none

/-- The character after a complete value. -/
def afterValue (stack : List Frame) (tree : Tree) (c : Char) : Option State :=
  if isGap c then some ⟨stack, .done tree⟩
  else
    match stack with
    | [] => none
    | .array items :: stack =>
      if c = ',' then some ⟨.array (tree :: items) :: stack, .value⟩
      else if c = ']' then some ⟨stack, .done (.array (tree :: items).reverse)⟩
      else none
    | .object members key :: stack =>
      if c = ',' then some ⟨stack, .key ((key, tree) :: members)⟩
      else if c = '\x7d' then some ⟨stack, .done (.object ((key, tree) :: members).reverse)⟩
      else none

/-- The state after the closing quote of a string. -/
def closeString (stack : List Frame) (pieces : List Piece) : Role → State
  | .value => ⟨stack, .done (.string pieces.reverse)⟩
  | .key members => ⟨stack, .colon members pieces.reverse⟩

/-- The character that a one-letter escape stands for. -/
def escaped? (c : Char) : Option Char :=
  if c = '"' || c = '\\' || c = '/' then some c
  else if c = 'b' then some '\x08'
  else if c = 'f' then some '\x0c'
  else if c = 'n' then some '\n'
  else if c = 'r' then some '\r'
  else if c = 't' then some '\t'
  else none

/-- The piece that a four-digit escape stands for. -/
def codePiece (code : Nat) : Piece :=
  if isHighHalf code || isLowHalf code then .half code else .char (Char.ofNat code)

/-- A character inside a string, or a malformed stretch. -/
def inString (stack : List Frame) (role : Role) (pieces : List Piece) :
    Option Char → Option State
  | none => some ⟨stack, .string role (.malformed :: pieces)⟩
  | some c =>
    if c = '"' then some (closeString stack pieces role)
    else if c = '\\' then some ⟨stack, .escape role pieces⟩
    else if c.toNat < 0x20 then none
    else some ⟨stack, .string role (.char c :: pieces)⟩

/-- A character anywhere but inside a string. -/
def outsideString (stack : List Frame) (focus : Focus) (c : Char) : Option State :=
  match focus with
  | .value => if isGap c then some ⟨stack, .value⟩ else openValue stack c
  | .item =>
    if isGap c then some ⟨stack, .item⟩
    else if c = ']' then
      match stack with
      | .array _ :: stack => some ⟨stack, .done (.array [])⟩
      | _ => none
    else openValue stack c
  | .member =>
    if isGap c then some ⟨stack, .member⟩
    else if c = '\x7d' then some ⟨stack, .done (.object [])⟩
    else if c = '"' then some ⟨stack, .string (.key []) []⟩
    else none
  | .key members =>
    if isGap c then some ⟨stack, .key members⟩
    else if c = '"' then some ⟨stack, .string (.key members) []⟩
    else none
  | .colon members key =>
    if isGap c then some ⟨stack, .colon members key⟩
    else if c = ':' then some ⟨.object members key :: stack, .value⟩
    else none
  | .word [] _ => none
  | .word [last] tree => if c = last then some ⟨stack, .done tree⟩ else none
  | .word (next :: rest) tree => if c = next then some ⟨stack, .word rest tree⟩ else none
  | .number characters =>
    if isNumberChar c then some ⟨stack, .number (c :: characters)⟩
    else do
      let numeral ← Numeral.ofText? characters.reverse
      afterValue stack (.number numeral) c
  | .escape role pieces =>
    if c = 'u' then some ⟨stack, .code role pieces 4 0⟩
    else (escaped? c).map fun e => ⟨stack, .string role (.char e :: pieces)⟩
  | .code role pieces left code => do
    let digit ← digitValue? 16 c
    let code := 16 * code + digit
    if left ≤ 1 then some ⟨stack, .string role (codePiece code :: pieces)⟩
    else some ⟨stack, .code role pieces (left - 1) code⟩
  | .done tree => afterValue stack tree c
  | .string _ _ => none

/-- The state after one more character or malformed stretch, unless it cannot come here. -/
def step (s : State) (unit : Option Char) : Option State :=
  match s.focus with
  | .string role pieces => inString s.stack role pieces unit
  | focus => unit.bind (outsideString s.stack focus)

/-- The tree that is complete when the input ends. -/
def finish? (s : State) : Option Tree :=
  match s.stack, s.focus with
  | [], .done tree => some tree
  | [], .number characters => (Numeral.ofText? characters.reverse).map .number
  | _, _ => none

end State

/-- The tree of an input of characters and malformed stretches. -/
def Tree.ofUnits? (units : List (Option Char)) : Option Tree := do
  let final ← units.foldlM State.step State.start
  final.finish?

/-- The tree of a text. -/
def Tree.ofText? (t : Text) : Option Tree := Tree.ofUnits? (t.map some)

/-- The tree of a list of bytes. -/
def Tree.ofBytes? (bytes : Bytes) : Option Tree := Tree.ofUnits? (Utf8.units bytes)

/-- The value of a text. -/
def ofText? (t : Text) : Option Json := do
  let tree ← Tree.ofText? t
  tree.value? depthLimit

end Json
end PullPlan
