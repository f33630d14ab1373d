/-!
# Bytes in YAML

Bytes are written with signs for six bits each, four signs for three bytes. Equals signs fill up
the last group. Characters that are no such signs are skipped.
-/

namespace Slick.Yaml.Bytes

/-- The six bits that a sign stands for. -/
def bits? (c : Char) : Option Nat :=
  if c.isUpper then some (c.toNat - 'A'.toNat)
  else if c.isLower then some (c.toNat - 'a'.toNat + 26)
  else if c.isDigit then some (c.toNat - '0'.toNat + 52)
  else if c = '+' then some 62
  else if c = '/' then some 63
  else none

/-- The bytes that signs stand for, where `filled` signs of a group of four and then `pads` equals
signs stand before them, and `left` are the bits of the last sign that have no byte yet. A group
that equals signs fill up is the last one. -/
def decodeFrom (filled pads left : Nat) : List Char → Option (List Nat)
  | [] => if filled = 0 then some [] else none
  | c :: rest =>
    if c = '=' then
      if filled < 2 then decodeFrom filled pads left rest
      else if 4 ≤ filled + pads + 1 then some []
      else decodeFrom filled (pads + 1) left rest
    else
      match bits? c with
      | none => decodeFrom filled pads left rest
      | some bits =>
        match filled with
        | 0 => decodeFrom 1 0 bits rest
        | 1 => (decodeFrom 2 0 (bits % 16) rest).map ((4 * left + bits / 16) :: ·)
        | 2 => (decodeFrom 3 0 (bits % 4) rest).map ((16 * left + bits / 4) :: ·)
        | _ => (decodeFrom 0 0 0 rest).map ((64 * left + bits) :: ·)

/-- The bytes that an ASCII text stands for. -/
def ofText? (text : List Char) : Option (List Nat) :=
  if text.all (·.toNat < 128) then decodeFrom 0 0 0 text else none

end Slick.Yaml.Bytes
