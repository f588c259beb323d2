import PullPlan.Text.Basic

/-!
# Digits

Two classes of digits: the ten ASCII digits, which have a value here, and the Unicode general
category Nd, which holds the digits of all scripts. Numbers are read from ASCII digits alone; the
wider class only decides what looks like a number.
-/

namespace PullPlan

/-- Naturals below this bound, 2^64, are unsigned words of 64 bits. -/
def wordBound : Nat := Nat.pow 2 64

/-- Integers from minus this bound, 2^63, up to the bound exclusive, are signed words of 64 bits. -/
def signedBound : Nat := Nat.pow 2 63

/-- Whether a character is one of `0` to `9`. -/
def isAsciiDigit (c : Char) : Bool := '0' ≤ c && c ≤ '9'

/-- The first characters of the scripts' digit rows. A row holds the digits zero to nine. -/
def digitRows : List Nat :=
  [0x30, 0x660, 0x6F0, 0x7C0, 0x966, 0x9E6, 0xA66, 0xAE6, 0xB66, 0xBE6, 0xC66, 0xCE6, 0xD66,
   0xDE6, 0xE50, 0xED0, 0xF20, 0x1040, 0x1090, 0x17E0, 0x1810, 0x1946, 0x19D0, 0x1A80, 0x1A90,
   0x1B50, 0x1BB0, 0x1C40, 0x1C50, 0xA620, 0xA8D0, 0xA900, 0xA9D0, 0xA9F0, 0xAA50, 0xABF0, 0xFF10,
   0x104A0, 0x10D30, 0x10D40, 0x11066, 0x110F0, 0x11136, 0x111D0, 0x112F0, 0x11450, 0x114D0,
   0x11650, 0x116C0, 0x116D0, 0x116DA, 0x11730, 0x118E0, 0x11950, 0x11BF0, 0x11C50, 0x11D50,
   0x11DA0, 0x11F50, 0x16130, 0x16A60, 0x16AC0, 0x16B50, 0x16D70, 0x1CCF0, 0x1D7CE, 0x1D7D8,
   0x1D7E2, 0x1D7EC, 0x1D7F6, 0x1E140, 0x1E2F0, 0x1E4F0, 0x1E5F1, 0x1E950, 0x1FBF0]

-- The category has 760 digits in 76 rows.
example : digitRows.length = 76 := rfl

/-- Whether a character is a decimal digit of any script (general category Nd). -/
def isDecimalDigit (c : Char) : Bool :=
  digitRows.any fun row => row ≤ c.toNat && c.toNat ≤ row + 9

/-- The value of a digit in bases up to sixteen; letters count in either case. -/
def digitValue? (base : Nat) (c : Char) : Option Nat :=
  let value? : Option Nat :=
    if '0' ≤ c && c ≤ '9' then some (c.toNat - '0'.toNat)
    else if 'a' ≤ c && c ≤ 'f' then some (c.toNat - 'a'.toNat + 10)
    else if 'A' ≤ c && c ≤ 'F' then some (c.toNat - 'A'.toNat + 10)
    else none
  value?.filter (· < base)

namespace Text

/-- The number that a text of ASCII digits writes in base ten, most significant digit first. -/
def toNat (digits : Text) : Nat :=
  digits.foldl (fun n c => 10 * n + (c.toNat - '0'.toNat)) 0

/-- Reads a non-empty text of ASCII digits. -/
def natural? (t : Text) : Option Nat :=
  if !t.isEmpty && t.all isAsciiDigit then some (toNat t) else none

/-- Reads an unsigned word of 64 bits, after an optional plus sign. -/
def word64? (t : Text) : Option Nat :=
  let digits := match t with
    | '+' :: rest => rest
    | _ => t
  (natural? digits).filter (· < wordBound)

/-- Sets the capital ASCII letters small. -/
def toLowerAscii (t : Text) : Text := t.map Char.toLower

end Text
end PullPlan
