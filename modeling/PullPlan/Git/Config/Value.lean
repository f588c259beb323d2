import PullPlan.Git.Config.Basic

/-!
# Values of a configuration

Values are texts; `Config.word?` reads one as a number and `Config.switch?` as a truth value.
-/

namespace PullPlan
namespace Git
namespace Config

/-- The base in which a number is written, and its digits: `0x` leads hexadecimal digits and any
other zero octal ones. -/
def baseOf (t : Text) : Nat × Text :=
  match t with
  | '0' :: x :: c :: rest => if x = 'x' || x = 'X' then (16, c :: rest) else (8, t)
  | '0' :: _ => (8, t)
  | _ => (10, t)

/-- The powers of 1024 that a letter behind a number stands for. -/
def scale? (suffix : Text) : Option Nat :=
  match suffix.map Char.toLower with
  | [] => some 0
  | ['k'] => some 1
  | ['m'] => some 2
  | ['g'] => some 3
  | _ => none

/-- Reads a number after a sign: its digits have to stay within 64 bits, and so does its product
with the letter behind it, of which only the low 64 bits count. -/
def scaled? (negative : Bool) (t : Text) : Option Int := do
  let (base, t) := baseOf t
  let digits := t.takeWhile fun c => (digitValue? base c).isSome
  if digits.isEmpty then none
  else
    let size := digits.foldl (fun n c => base * n + (digitValue? base c).getD 0) 0
    let n : Int := if negative then -size else size
    if n < -(signedBound : Int) || signedBound ≤ n then none
    else
      let power ← scale? (t.drop digits.length)
      return Int.bmod (n * Nat.pow 1024 power) wordBound

/-- Integers from minus this bound, 2^31, up to the bound exclusive, are signed words of 32 bits. -/
def shortBound : Nat := Nat.pow 2 31

/-- Reads a value as a number of 32 bits. -/
def word? (value : Text) : Option Int :=
  let n := match trimFront value with
    | '-' :: t => scaled? true t
    | '+' :: t => scaled? false t
    | t => scaled? false t
  n.filter fun n => -(shortBound : Int) ≤ n && n < shortBound

/-- Reads a value as a switch: a name without a value is on, and so is any number but zero. -/
def switch? (value : Option Text) : Option Bool :=
  match value with
  | none => some true
  | some value =>
    let lower := Text.toLowerAscii value
    if ["true".toList, "yes".toList, "on".toList].contains lower then some true
    else if ["false".toList, "no".toList, "off".toList, []].contains lower then some false
    else (word? value).map (· ≠ 0)

/-- The switch with a name; `missing` is its position where there is no entry. -/
def switchOf? (config : Config) (name : Text) (missing : Bool) : Option Bool :=
  match config.find? name with
  | none => some missing
  | some entry => switch? entry.value

end Config
end Git
end PullPlan
