import Discussion.Text.Ranges

/-!
# Ignorable characters

The Unicode property `Default_Ignorable_Code_Point`: characters that a display
leaves out unless it knows them.  Besides formats, joiners and variation selectors
these are the four Hangul fillers, which are letters without a shape.  The table is
that of Unicode 17.
-/

namespace Discussion

/-- The runs of characters with the property `Default_Ignorable_Code_Point`. -/
def ignorableRanges : List (Nat × Nat) :=
  [(0xAD, 0xAD), (0x34F, 0x34F), (0x61C, 0x61C), (0x115F, 0x1160), (0x17B4, 0x17B5),
   (0x180B, 0x180F), (0x200B, 0x200F), (0x202A, 0x202E), (0x2060, 0x206F), (0x3164, 0x3164),
   (0xFE00, 0xFE0F), (0xFEFF, 0xFEFF), (0xFFA0, 0xFFA0), (0xFFF0, 0xFFF8), (0x1BCA0, 0x1BCA3),
   (0x1D173, 0x1D17A), (0xE0000, 0xE0FFF)]

/-- Whether a character has the Unicode property `Default_Ignorable_Code_Point`. -/
def isIgnorable (c : Char) : Bool :=
  liesInRanges ignorableRanges c.toNat

/-- The ignorable characters begin with the soft hyphen. -/
theorem not_isIgnorable_of_lt (c : Char) (hc : c.toNat < 0xAD) : isIgnorable c = false :=
  not_liesInRanges_of_lt (by decide +kernel) hc

end Discussion
