import Discussion.Text.Combining
import Discussion.Text.Ignorable
import Discussion.Text.Printable

/-!
# Quoted texts

A text between quotation marks, in which every character can be told apart by
eye.  Quotation marks, backslashes and the ends of lines are escaped by a
backslash.  A character that does not show a place of its own is written by its
number: one that is not printable, that would be drawn together with the one
before it, or that a display leaves out.
-/

namespace Discussion

/-- A character written by its number to the base 16. -/
def numberedChar (c : Char) : List Char :=
  '\\' :: 'u' :: '\x7b' :: Nat.toDigits 16 c.toNat ++ ['\x7d']

/-- Whether a character can be seen as one of its own: it has a shape, is not drawn into the
character before it, and is not left out. -/
def isSeenAlone (c : Char) : Bool :=
  isPrintable c && !isCombining c && !isIgnorable c

/-- The form of a character in a quoted text. -/
def quotedChar (c : Char) : List Char :=
  if c = '\t' then ['\\', 't']
  else if c = '\n' then ['\\', 'n']
  else if c = '\r' then ['\\', 'r']
  else if c = '\x00' then ['\\', '0']
  else if c = '"' ∨ c = '\\' then ['\\', c]
  else if isSeenAlone c then [c]
  else numberedChar c

/-- A text between quotation marks. -/
def quoted (s : String) : String :=
  "\"" ++ String.ofList (s.toList.flatMap quotedChar) ++ "\""

/-- The characters from the space to the tilde can be seen. -/
theorem isSeenAlone_of_ascii (c : Char) (hlow : 0x20 ≤ c.toNat) (hhigh : c.toNat < 0x7F) :
    isSeenAlone c = true := by
  have hprint : isPrintable c = true := (isPrintable_iff_of_lt c hhigh).mpr hlow
  have hcombining : isCombining c = false := not_isCombining_of_lt c (by omega)
  have hignorable : isIgnorable c = false := not_isIgnorable_of_lt c (by omega)
  simp [isSeenAlone, hprint, hcombining, hignorable]

/-- The characters from the space to the tilde stand for themselves, except the quotation
mark and the backslash. -/
theorem quotedChar_eq_self (c : Char) (hlow : 0x20 ≤ c.toNat) (hhigh : c.toNat < 0x7F)
    (hquote : c ≠ '"') (hslash : c ≠ '\\') : quotedChar c = [c] := by
  have hseen : isSeenAlone c = true := isSeenAlone_of_ascii c hlow hhigh
  have hne : ∀ d : Char, d.toNat < 0x20 → c ≠ d := by
    rintro d hd rfl
    omega
  simp [quotedChar, hseen, hquote, hslash, hne '\t' (by decide),
    hne '\n' (by decide), hne '\r' (by decide), hne '\x00' (by decide)]

end Discussion
