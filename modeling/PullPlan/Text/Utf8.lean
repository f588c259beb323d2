import PullPlan.Text.Basic

/-!
# UTF-8

Bytes as text. Not every list of bytes is the encoding of a text, so decoding is kept total by
marking what is no character: `Utf8.units` gives a character for each well-formed sequence and
`none` for each malformed stretch, which is the longest part of a sequence that breaks off.

* `Utf8.decode?` accepts well-formed bytes alone.
* `Utf8.decodeLossy` puts the replacement character for each malformed stretch.
* `Utf8.encode` writes a text as bytes.
-/

namespace PullPlan

/-- A list of bytes, the content of a file or a message. -/
abbrev Bytes := List UInt8

namespace Utf8

/-- Whether a byte continues a sequence. -/
def isTail (b : UInt8) : Bool := 0x80 ≤ b && b ≤ 0xBF

/-- The lowest and the highest second byte after the first byte of a longer sequence: shorter
forms, surrogates and code points above U+10FFFF are left out. -/
def secondRange (first : UInt8) : UInt8 × UInt8 :=
  if first = 0xE0 then (0xA0, 0xBF)
  else if first = 0xED then (0x80, 0x9F)
  else if first = 0xF0 then (0x90, 0xBF)
  else if first = 0xF4 then (0x80, 0x8F)
  else (0x80, 0xBF)

/-- Whether `second` may follow `first`. -/
def isSecond (first second : UInt8) : Bool :=
  (secondRange first).1 ≤ second && second ≤ (secondRange first).2

/-- How many bytes follow the first byte of a sequence; `none` for a byte that starts none. -/
def tailLength? (first : UInt8) : Option Nat :=
  if first ≤ 0x7F then some 0
  else if 0xC2 ≤ first && first ≤ 0xDF then some 1
  else if 0xE0 ≤ first && first ≤ 0xEF then some 2
  else if 0xF0 ≤ first && first ≤ 0xF4 then some 3
  else none

/-- The low six bits of a byte, which a continuation carries. -/
def payload (b : UInt8) : Nat := b.toNat % 64

/-- The characters that the bytes encode, with `none` for each malformed stretch. -/
def units : Bytes → List (Option Char)
  | [] => []
  | a :: rest =>
    match tailLength? a with
    | none => none :: units rest
    | some 0 => some (Char.ofNat a.toNat) :: units rest
    | some length =>
      match rest with
      | [] => [none]
      | b :: rest =>
        if !isSecond a b then none :: units (b :: rest)
        else if length = 1 then
          some (Char.ofNat (a.toNat % 32 * 64 + payload b)) :: units rest
        else
          match rest with
          | [] => [none]
          | c :: rest =>
            if !isTail c then none :: units (c :: rest)
            else if length = 2 then
              some (Char.ofNat (a.toNat % 16 * 4096 + payload b * 64 + payload c)) :: units rest
            else
              match rest with
              | [] => [none]
              | d :: rest =>
                if !isTail d then none :: units (d :: rest)
                else
                  some (Char.ofNat (a.toNat % 8 * 262144 + payload b * 4096 + payload c * 64
                    + payload d)) :: units rest

/-- The text that the bytes encode, if they are well formed. -/
def decode? (bytes : Bytes) : Option Text := (units bytes).mapM id

/-- The text with the replacement character U+FFFD for each malformed stretch. -/
def decodeLossy (bytes : Bytes) : Text := (units bytes).map fun unit => unit.getD '\uFFFD'

/-- The bytes of a text. -/
def encode (t : Text) : Bytes := t.flatMap String.utf8EncodeChar

end Utf8
end PullPlan
