import PullPlan.Git.Config.Basic

/-!
# Reading a configuration

A header such as `[core]` opens a section, and a line such as `bare = true` is an entry of it. A
header may be followed by another header or an entry in the same line. A backslash at the end of a
value takes the next line into the value.

`Config.ofText?` reads the lines one after the other. What goes from one line to the next is the
open section and, after a backslash, the value that goes on.
-/

namespace PullPlan
namespace Git
namespace Config

/-! ### Headers -/

/-- Whether a character may stand in the name of a variable. -/
def isNameChar (c : Char) : Bool := c.isAlphanum || c = '-'

/-- Reads the name of a subsection behind its opening quotation mark, up to the closing bracket. A
backslash takes the next character as it is. -/
def subsection? : Text → Option (Text × Text)
  | [] => none
  | '"' :: ']' :: rest => some ([], rest)
  | '\\' :: c :: rest =>
    if c = '\x00' then none
    else (subsection? rest).map fun found => (c :: found.1, found.2)
  | c :: rest =>
    if c = '"' || c = '\x00' then none
    else (subsection? rest).map fun found => (c :: found.1, found.2)

/-- Reads a header behind its opening bracket. Capital letters count as small ones in the name of
a section, and as themselves in the name of a subsection. -/
def header? (t : Text) : Option (Text × Text) :=
  let name := t.takeWhile fun c => isNameChar c || c = '.'
  match t.drop name.length with
  | [] => none
  | c :: rest =>
    if c = ']' && !name.isEmpty then some (Text.toLowerAscii name, rest)
    else if isAsciiBlank c then
      match trimFront rest with
      | '"' :: quoted =>
        (subsection? quoted).map fun found => (Text.toLowerAscii name ++ '.' :: found.1, found.2)
      | _ => none
    else none

/-- Takes the headers off the front of a line. The answer is the section that is open behind them
and the rest of the line. The first argument bounds their number. -/
def headers? : Nat → Option Text → Text → Option (Option Text × Text)
  | 0, heading, line => some (heading, line)
  | count + 1, heading, line =>
    match trimFront line with
    | '[' :: rest => do
      let (name, rest) ← header? rest
      headers? count (some name) rest
    | _ => some (heading, line)

/-! ### Values -/

/-- A line up to its comment, and whether a quotation is open there. Neither in a quotation nor
behind an odd number of backslashes does a comment start. A quotation mark at the start of the
line or behind a backslash does not count. -/
def uncommented (quoted odd : Bool) (previous : Option Char) : Text → Text × Bool
  | [] => ([], quoted)
  | c :: t =>
    let quoted := if c = '"' && previous.any (· ≠ '\\') then !quoted else quoted
    if (c = ';' || c = '#') && !quoted && !odd then ([], quoted)
    else
      let (kept, quoted) := uncommented quoted (c = '\\' && !odd) (some c) t
      (c :: kept, quoted)

/-- A line without its comment and the blanks at its end, and whether a quotation is open there. -/
def stripped (quoted : Bool) (line : Text) : Text × Bool :=
  let (kept, quoted) := uncommented quoted false none line
  (trimBack kept, quoted)

/-- The character that an escape means. -/
def escape? (c : Char) : Option Char :=
  match c with
  | 'n' => some '\n'
  | 't' => some '\t'
  | 'b' => some '\x08'
  | '"' => some '"'
  | '\\' => some '\\'
  | _ => none

/-- A value without quotation marks and escapes, and whether it goes on in the next line. -/
def unescape? : Text → Option (Text × Bool)
  | [] => some ([], false)
  | ['\\'] => some ([], true)
  | '\\' :: c :: rest => do
    let c ← escape? c
    let (value, goesOn) ← unescape? rest
    return (c :: value, goesOn)
  | c :: rest => do
    let (value, goesOn) ← unescape? rest
    return (if c = '"' then value else c :: value, goesOn)

/-- Splits a line at its equals sign. -/
def assignment? (line : Text) : Option (Text × Option Text) :=
  let name := line.takeWhile isNameChar
  if name.isEmpty then none
  else
    match trimFront (line.drop name.length) with
    | [] => some (Text.toLowerAscii name, none)
    | '=' :: value => some (Text.toLowerAscii name, some (trimFront value))
    | _ => none

/-! ### Lines -/

/-- A value that goes on in the next line. -/
structure Pending where
  /-- The full name of the variable. -/
  name : Text
  /-- The value so far. -/
  value : Text
  /-- Whether a quotation is open. -/
  quoted : Bool

/-- The entry with the value so far. -/
def Pending.entry (pending : Pending) : Entry := ⟨pending.name, some pending.value⟩

/-- What a line adds to the entries before it. -/
structure Step where
  /-- The section that is open behind the line. -/
  heading : Option Text
  /-- The value that goes on behind the line. -/
  pending : Option Pending
  /-- The new entry. -/
  entry : Option Entry

/-- Reads a line that goes on with a value. A line of blanks and comments changes nothing, and one
that starts with U+0000 ends the value. -/
def Pending.step? (pending : Pending) (heading : Option Text) (line : Text) : Option Step :=
  let line := beforeNul line
  if line.isEmpty then some ⟨heading, none, some pending.entry⟩
  else
    let (kept, quoted) := stripped pending.quoted line
    if kept.isEmpty then some ⟨heading, some { pending with quoted := quoted }, none⟩
    else do
      let (value, goesOn) ← unescape? kept
      let pending : Pending := ⟨pending.name, pending.value ++ value, quoted⟩
      return if goesOn then ⟨heading, some pending, none⟩ else ⟨heading, none, some pending.entry⟩

/-- The full name of a variable in a section. -/
def fullName (heading : Option Text) (name : Text) : Text :=
  match heading with
  | some heading => heading ++ '.' :: name
  | none => name

/-- Reads a line with a variable. -/
def declaration? (heading : Option Text) (line : Text) : Option Step := do
  let (kept, quoted) := stripped false (beforeNul (trimFront line))
  let (name, value) ← assignment? kept
  let name := fullName heading name
  match value with
  | none => return ⟨heading, none, some ⟨name, none⟩⟩
  | some value => do
    let (value, goesOn) ← unescape? value
    return if goesOn then ⟨heading, some ⟨name, value, quoted⟩, none⟩
      else ⟨heading, none, some ⟨name, some value⟩⟩

/-- Whether there is nothing but blanks and a comment in a line. -/
def isSilent (line : Text) : Bool :=
  match trimFront line with
  | [] => true
  | c :: _ => c = ';' || c = '#'

/-- Whether a line has nothing but blanks and starts with a vertical tab or a form feed, which
start no line. -/
def isStray (line : Text) : Bool :=
  (trimFront line).isEmpty && (line.head? = some '\x0b' || line.head? = some '\x0c')

/-- Reads a line behind which no value goes on yet. -/
def step? (heading : Option Text) (line : Text) : Option Step :=
  if isStray line then none
  else do
    let (heading, line) ← headers? line.length heading line
    if isSilent line then return ⟨heading, none, none⟩ else declaration? heading line

/-- Reads lines one after the other. -/
def entries? (heading : Option Text) : Option Pending → List Text → Option (List Entry)
  | none, [] => some []
  | some pending, [] => some [pending.entry]
  | pending, line :: rest => do
    let step ← match pending with
      | some pending => pending.step? heading line
      | none => step? heading line
    let more ← entries? step.heading step.pending rest
    return step.entry.toList ++ more

/-- Reads the content of a file. A byte order mark at its start does not count, and nothing is read
behind a U+0000 at its start. -/
def ofText? (content : Text) : Option Config :=
  if content.head? = some '\x00' then some ⟨[]⟩
  else
    let content := if content.head? = some '\uFEFF' then content.drop 1 else content
    (entries? none none (fullLines content)).map Config.mk

end Config
end Git
end PullPlan
