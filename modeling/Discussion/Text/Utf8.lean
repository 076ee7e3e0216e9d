/-!
# UTF-8

Bytes as characters.  A byte that belongs to no character is kept as `none`, so
that a reader can skip it where its text does not matter.
-/

namespace Discussion

namespace Utf8

/-- The bytes of a file. -/
abbrev Bytes := List UInt8

/-- The six low bits of a continuation byte. -/
def continuation? (b : UInt8) : Option Nat :=
  if 0x80 ≤ b ∧ b < 0xC0 then some (b.toNat - 0x80) else none

/-- The character of a number in a range, if both the range and Unicode have it. -/
def charIn? (low high n : Nat) : Option Char :=
  if low ≤ n ∧ n ≤ high ∧ n.isValidChar then some (Char.ofNat n) else none

/-- The character that starts with a byte, and the number of further bytes it takes.
Every character has one spelling, the shortest. -/
def char? (b : UInt8) (rest : Bytes) : Option (Char × Nat) :=
  if b < 0x80 then some (Char.ofNat b.toNat, 0)
  else if b < 0xC0 then none
  else if b < 0xE0 then
    match rest with
    | b1 :: _ => do
        let c1 ← continuation? b1
        let c ← charIn? 0x80 0x7FF ((b.toNat - 0xC0) * 64 + c1)
        some (c, 1)
    | _ => none
  else if b < 0xF0 then
    match rest with
    | b1 :: b2 :: _ => do
        let c1 ← continuation? b1
        let c2 ← continuation? b2
        let c ← charIn? 0x800 0xFFFF (((b.toNat - 0xE0) * 64 + c1) * 64 + c2)
        some (c, 2)
    | _ => none
  else if b < 0xF8 then
    match rest with
    | b1 :: b2 :: b3 :: _ => do
        let c1 ← continuation? b1
        let c2 ← continuation? b2
        let c3 ← continuation? b3
        let c ← charIn? 0x10000 0x10FFFF ((((b.toNat - 0xF0) * 64 + c1) * 64 + c2) * 64 + c3)
        some (c, 3)
    | _ => none
  else none

/-- The characters of some bytes, added in reverse to those found before. -/
def decodeOnto (bytes : Bytes) (found : List (Option Char)) : List (Option Char) :=
  match bytes with
  | [] => found
  | b :: rest =>
      match char? b rest with
      | some (c, n) => decodeOnto (rest.drop n) (some c :: found)
      | none => decodeOnto rest (none :: found)
termination_by bytes.length
decreasing_by all_goals simp only [List.length_drop, List.length_cons]; omega

/-- The characters of some bytes, with `none` for a byte of no character. -/
def decode (bytes : Bytes) : List (Option Char) :=
  (decodeOnto bytes []).reverse

/-- The text of some bytes, if all of them belong to characters. -/
def text? (bytes : Bytes) : Option (List Char) :=
  (decode bytes).mapM id

/-- The bytes of a text. -/
def encode (s : String) : Bytes :=
  s.toUTF8.toList

end Utf8

end Discussion
