import Idax.Library.Hex
import Idax.Lines.Tags

/-!
This module contains the tags of `ida::lines` that refer to an item of the ctree. A tag is the index of
the item as a hexadecimal numeral, behind two control bytes.
-/

namespace Idax
namespace Lines

/--
A `std::string_view`. No object is longer than a pointer difference can say.
-/
structure StringView where
  text : Text
  length_lt : text.length < 2 ^ 63

namespace StringView

def size (v : StringView) : UInt64 :=
  .ofNat v.text.length

def read? (v : StringView) (pos : Nat) : Option UInt8 :=
  v.text[pos]?

end StringView

/--
`%0*llX` pads with zeros, and of its output 16 characters are taken.
-/
def makeAddrTag (itemIndex : Int32) : Text :=
  [kColorOn, kColorAddr] ++ (Hex.encode kColorAddrSize itemIndex.toUInt32.toNat).take kColorAddrSize

def hexDigit? (ch : UInt8) : Option UInt64 :=
  if 48 ≤ ch ∧ ch ≤ 57 then
    some (ch.toUInt64 - 48)
  else if 65 ≤ ch ∧ ch ≤ 70 then
    some (ch.toUInt64 - 65 + 10)
  else if 97 ≤ ch ∧ ch ≤ 102 then
    some (ch.toUInt64 - 97 + 10)
  else
    none

/--
The value of `n` digits from the position on, added to what was read before. The outer `none` is a read
outside of the view, the inner one a byte that is no digit.
-/
def hexValue (v : StringView) (pos : Nat) : (n : Nat) → (val : UInt64) → Option (Option UInt64)
  | 0, val => some (some val)
  | n + 1, val => do
    let ch ← v.read? pos
    match hexDigit? ch with
    | none => some none
    | some digit => hexValue v (pos + 1) n (val <<< 4 ||| digit)

def anchorIndex : UInt64 :=
  0x1FFFFFFF

def decodeAddrTag (taggedText : StringView) (pos : UInt64) : Option Int32 :=
  -- the sum is a `std::size_t`
  if taggedText.size < pos + 2 + .ofNat kColorAddrSize then
    some (-1)
  else do
    let first ← taggedText.read? pos.toNat
    if first ≠ kColorOn then
      some (-1)
    else do
      let second ← taggedText.read? (pos + 1).toNat
      if second ≠ kColorAddr then
        some (-1)
      else do
        match ← hexValue taggedText (pos.toNat + 2) kColorAddrSize 0 with
        | none => some (-1)
        | some val => some (val &&& anchorIndex).toUInt32.toInt32

end Lines
end Idax
