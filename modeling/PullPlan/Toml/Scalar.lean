import PullPlan.Number.Magnitude
import PullPlan.Text.Digit
import PullPlan.Toml.Value

/-!
# TOML scalars

Strings, numbers, truth values and dates.

A string is read off the front of a text by a function that gives its content and what follows its
end. The other scalars are words; `word?` reads one of them. Integers
have 64 bits and a float must not be larger than the largest double.
-/

namespace PullPlan
namespace Toml

/-! ### Strings -/

/-- Whether a character may stand in comments and strings: all but the control characters, of which
the tab is allowed. -/
def isPlain (c : Char) : Bool := c = '\t' || (0x20 ≤ c.toNat && c.toNat ≠ 0x7F)

/-- The character of a one-letter escape. -/
def escaped? (c : Char) : Option Char :=
  if c = 'b' then some '\x08'
  else if c = 't' then some '\t'
  else if c = 'n' then some '\n'
  else if c = 'f' then some '\x0c'
  else if c = 'r' then some '\r'
  else if c = '"' || c = '\\' then some c
  else none

/-- The character that hexadecimal digits name. -/
def coded? (digits : Text) : Option Char := do
  let values ← digits.mapM (digitValue? 16)
  let code := values.foldl (fun n digit => 16 * n + digit) 0
  if code < 0xD800 || (0xDFFF < code && code < 0x110000) then some (Char.ofNat code) else none

/-- Puts a character in front of what was read. -/
def prepend (c : Char) (read : Text × Text) : Text × Text := (c :: read.1, read.2)

/-- Reads a string in double quotes, after the opening quote. -/
def basicString : Text → Option (Text × Text)
  | [] => none
  | '"' :: t => some ([], t)
  | '\\' :: 'u' :: a :: b :: c :: d :: t => do
    let code ← coded? [a, b, c, d]
    return prepend code (← basicString t)
  | '\\' :: 'U' :: a :: b :: c :: d :: e :: f :: g :: h :: t => do
    let code ← coded? [a, b, c, d, e, f, g, h]
    return prepend code (← basicString t)
  | '\\' :: c :: t => do
    let escaped ← escaped? c
    return prepend escaped (← basicString t)
  | c :: t => if isPlain c && c ≠ '\\' then (basicString t).map (prepend c) else none

/-- Reads a string in single quotes, after the opening quote. -/
def literalString : Text → Option (Text × Text)
  | [] => none
  | '\'' :: t => some ([], t)
  | c :: t => if isPlain c then (literalString t).map (prepend c) else none

/-- Where the reader of a text over several lines stands. -/
inductive LineState where
  /-- Inside a line. -/
  | inside
  /-- After a backslash at the end of a line, before the line end. -/
  | beforeEnd
  /-- After that line end, where blanks and further line ends are passed over. -/
  | passing
  deriving DecidableEq

/-- Reads a string in triple double quotes, after the opening quotes. Up to two quotes may stand
directly before the closing ones. -/
def multilineBasic : LineState → Text → Option (Text × Text)
  | _, [] => none
  | .beforeEnd, '\r' :: '\n' :: t => multilineBasic .passing t
  | .beforeEnd, '\n' :: t => multilineBasic .passing t
  | .beforeEnd, c :: t => if c = ' ' || c = '\t' then multilineBasic .beforeEnd t else none
  | .passing, '\r' :: '\n' :: t => multilineBasic .passing t
  | .passing, '\n' :: t => multilineBasic .passing t
  | .passing, ' ' :: t => multilineBasic .passing t
  | .passing, '\t' :: t => multilineBasic .passing t
  | _, '"' :: '"' :: '"' :: '"' :: '"' :: t => some (['"', '"'], t)
  | _, '"' :: '"' :: '"' :: '"' :: t => some (['"'], t)
  | _, '"' :: '"' :: '"' :: t => some ([], t)
  | _, '\r' :: '\n' :: t => (multilineBasic .inside t).map (prepend '\n')
  | _, '\n' :: t => (multilineBasic .inside t).map (prepend '\n')
  | _, '\\' :: 'u' :: a :: b :: c :: d :: t => do
    let code ← coded? [a, b, c, d]
    return prepend code (← multilineBasic .inside t)
  | _, '\\' :: 'U' :: a :: b :: c :: d :: e :: f :: g :: h :: t => do
    let code ← coded? [a, b, c, d, e, f, g, h]
    return prepend code (← multilineBasic .inside t)
  | _, '\\' :: '\r' :: '\n' :: t => multilineBasic .passing t
  | _, '\\' :: '\n' :: t => multilineBasic .passing t
  | _, '\\' :: ' ' :: t => multilineBasic .beforeEnd t
  | _, '\\' :: '\t' :: t => multilineBasic .beforeEnd t
  | _, '\\' :: c :: t => do
    let escaped ← escaped? c
    return prepend escaped (← multilineBasic .inside t)
  | _, c :: t =>
    if isPlain c && c ≠ '\\' then (multilineBasic .inside t).map (prepend c) else none

/-- Reads a string in triple single quotes, after the opening quotes. -/
def multilineLiteral : Text → Option (Text × Text)
  | [] => none
  | '\'' :: '\'' :: '\'' :: '\'' :: '\'' :: t => some (['\'', '\''], t)
  | '\'' :: '\'' :: '\'' :: '\'' :: t => some (['\''], t)
  | '\'' :: '\'' :: '\'' :: t => some ([], t)
  | '\r' :: '\n' :: t => (multilineLiteral t).map (prepend '\n')
  | '\n' :: t => (multilineLiteral t).map (prepend '\n')
  | c :: t => if isPlain c then (multilineLiteral t).map (prepend c) else none

/-- A text without a line end at its front. -/
def afterLineEnd : Text → Text
  | '\n' :: t => t
  | '\r' :: '\n' :: t => t
  | t => t

/-- Reads a string of any form off the front of a text. -/
def string? : Text → Option (Text × Text)
  | '"' :: '"' :: '"' :: t => multilineBasic .inside (afterLineEnd t)
  | '"' :: t => basicString t
  | '\'' :: '\'' :: '\'' :: t => multilineLiteral (afterLineEnd t)
  | '\'' :: t => literalString t
  | _ => none

/-! ### Numbers -/

/-- The digits of a text in which single underscores may stand between two digits. -/
def joined? (isDigit : Char → Bool) (afterDigit : Bool) : Text → Option Text
  | [] => if afterDigit then some [] else none
  | c :: t =>
    if isDigit c then (joined? isDigit true t).map (c :: ·)
    else if c = '_' && afterDigit then joined? isDigit false t
    else none

/-- The digits of a number in base ten, which opens with a zero only if that is all of it. -/
def decimalDigits? (t : Text) : Option Text :=
  (joined? isAsciiDigit false t).filter fun digits => digits.length = 1 || digits.head? ≠ some '0'

/-- Whether a text has a sign, and what follows it. -/
def signed : Text → Bool × Text
  | '-' :: t => (true, t)
  | '+' :: t => (false, t)
  | t => (false, t)

/-- The digits of a number in another base. -/
def based? (base : Nat) (t : Text) : Option Int := do
  let digits ← joined? (fun c => (digitValue? base c).isSome) false t
  let values ← digits.mapM (digitValue? base)
  some (values.foldl (fun n digit => base * n + digit) 0 : Nat)

/-- Reads an integer of 64 bits. Only a number in base ten has a sign. -/
def integer? (t : Text) : Option Int :=
  let value? : Option Int := match t with
    | '0' :: 'x' :: t => based? 16 t
    | '0' :: 'o' :: t => based? 8 t
    | '0' :: 'b' :: t => based? 2 t
    | t => do
      let (negative, t) := signed t
      let n : Int := Text.toNat (← decimalDigits? t)
      some (if negative then -n else n)
  value?.filter fun n => -(signedBound : Int) ≤ n && n < signedBound

/-- Splits a text before the first character of a kind. -/
def splitBefore (isStop : Char → Bool) (t : Text) : Text × Text :=
  t.span fun c => !isStop c

/-- Reads the exponent of a float, which may have a sign. -/
def exponent? : Text → Option Int
  | [] => some 0
  | _ :: t => do
    let (negative, t) := signed t
    let n : Int := Text.toNat (← joined? isAsciiDigit false t)
    some (if negative then -n else n)

/-- Reads the part of a float from its point on. -/
def fraction? : Text → Option Text
  | [] => some []
  | _ :: t => joined? isAsciiDigit false t

/-- Whether a text writes a float: digits, then a fraction, an exponent or both, or one of the words
for infinity and for no number. A number that rounds to positive infinity is refused. -/
def isFloat (t : Text) : Bool :=
  let (negative, t) := signed t
  if t = "inf".toList || t = "nan".toList then true
  else
    let (digits, exponent) := splitBefore (fun c => c = 'e' || c = 'E') t
    let (whole, fraction) := splitBefore (· = '.') digits
    match decimalDigits? whole, fraction? fraction, exponent? exponent with
    | some whole, some fraction, some exponent =>
      let value := Magnitude.ofDecimal (Text.toNat (whole ++ fraction)) (exponent - fraction.length)
      t.any (fun c => c = '.' || c = 'e' || c = 'E') && (negative || !value.isInfinite)
    | _, _, _ => false

/-! ### Dates -/

/-- Whether a text writes a number between two bounds in two digits. -/
def isBetween (least most : Nat) (digits : Text) : Bool :=
  digits.length = 2 && digits.all isAsciiDigit && least ≤ Text.toNat digits &&
    Text.toNat digits ≤ most

/-- The number of days of a month. -/
def daysIn (year month : Nat) : Nat :=
  if month = 2 then
    if year % 4 = 0 && (year % 100 ≠ 0 || year % 400 = 0) then 29 else 28
  else if [4, 6, 9, 11].contains month then 30
  else 31

/-- Whether a text writes a day as year, month and day. -/
def isDay : Text → Bool
  | [y₁, y₂, y₃, y₄, '-', m₁, m₂, '-', d₁, d₂] =>
    [y₁, y₂, y₃, y₄].all isAsciiDigit && isBetween 1 12 [m₁, m₂] &&
      isBetween 1 (daysIn (Text.toNat [y₁, y₂, y₃, y₄]) (Text.toNat [m₁, m₂])) [d₁, d₂]
  | _ => false

/-- Takes a time of day off a text, with its fraction of a second. -/
def afterTime? : Text → Option Text
  | h₁ :: h₂ :: ':' :: m₁ :: m₂ :: ':' :: s₁ :: s₂ :: t =>
    if isBetween 0 23 [h₁, h₂] && isBetween 0 59 [m₁, m₂] && isBetween 0 60 [s₁, s₂] then
      match t with
      | '.' :: d :: t => if isAsciiDigit d then some (t.dropWhile isAsciiDigit) else none
      | t => some t
    else none
  | _ => none

/-- Whether a text is the offset of a time zone, or nothing. -/
def isOffset : Text → Bool
  | [] => true
  | ['Z'] => true
  | ['z'] => true
  | [sign, h₁, h₂, ':', m₁, m₂] =>
    (sign = '+' || sign = '-') && isBetween 0 23 [h₁, h₂] && isBetween 0 59 [m₁, m₂]
  | _ => false

/-- Whether a character may stand between a day and a time. -/
def isTimeLead (c : Char) : Bool := c = 'T' || c = 't' || c = ' '

/-- Whether a text writes a day, a time, or a day with a time and possibly an offset. -/
def isDate (t : Text) : Bool :=
  afterTime? t = some [] ||
    (isDay (t.take 10) &&
      match t.drop 10 with
      | [] => true
      | c :: t => isTimeLead c && (afterTime? t).any isOffset)

/-! ### Words -/

/-- Reads a scalar that is not a string. -/
def word? (t : Text) : Option Value :=
  if t = "true".toList then some (.boolean true)
  else if t = "false".toList then some (.boolean false)
  else if isDate t then some .date
  else if isFloat t then some .float
  else (integer? t).map .integer

/-- Whether a character may stand in a scalar that is not a string. -/
def isWordChar (c : Char) : Bool := c.isAlphanum || "+-_.:".toList.contains c

/-- Takes a word off the front of a text. A day, a blank and a digit go on as a time. -/
def splitWord (t : Text) : Text × Text :=
  let (word, rest) := t.span isWordChar
  match rest with
  | ' ' :: c :: _ =>
    if isDay word && isAsciiDigit c then
      let (time, rest) := (rest.drop 1).span isWordChar
      (word ++ ' ' :: time, rest)
    else (word, rest)
  | _ => (word, rest)

/-- Reads a scalar off the front of a text. -/
def scalar? (t : Text) : Option (Value × Text) :=
  match t with
  | '"' :: _ => (string? t).map fun read => (.string read.1, read.2)
  | '\'' :: _ => (string? t).map fun read => (.string read.1, read.2)
  | _ => do
    let (word, rest) := splitWord t
    some (← word? word, rest)

end Toml
end PullPlan
