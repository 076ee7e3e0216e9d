import Discussion.Json.Basic

/-!
# Reading JSON

An automaton that reads a JSON text character by character.  Its state holds the
arrays and objects that are still open, innermost first, and what may come next.
It accepts exactly the texts of one JSON value, with blanks around its tokens, to
any depth.  Inside a string it also accepts bytes of no character; such a string
becomes unknown, and so does one with half a surrogate pair.
-/

namespace Discussion

namespace Json

/-! ## Numerals -/

/-- The place that has been reached in a numeral. -/
inductive NumeralPlace
  | minus
  /-- After a leading zero. -/
  | zero
  | whole
  | point
  | fraction
  | exponentMark
  | exponentSign
  | exponent
deriving DecidableEq, Repr

/-- A numeral as far as it has been read. -/
structure PartialNumeral where
  place : NumeralPlace
  negative : Bool := false
  /-- The leading digits as a number, as many as fit a word. -/
  lead : Nat := 0
  /-- How many places the point stands to the right of these digits. -/
  shift : Int := 0
  /-- Whether a digit on this side of the point did not fit. -/
  full : Bool := false
  exponentNegative : Bool := false
  exponent : Nat := 0
deriving DecidableEq, Repr

namespace PartialNumeral

/-- The numeral that starts with a character. -/
def start? (c : Char) : Option PartialNumeral :=
  if c = '-' then some { place := .minus, negative := true }
  else
    match digitValue? c with
    | some 0 => some { place := .zero }
    | some d => some { place := .whole, lead := d }
    | none => none

/-- Whether one more digit fits.  The digits after one that does not fit are left out too. -/
def hasRoom (n : PartialNumeral) (d : Nat) : Bool :=
  !n.full && 10 * n.lead + d < UInt64.size

/-- A digit before the point. -/
def wholeDigit (n : PartialNumeral) (d : Nat) : PartialNumeral :=
  if n.hasRoom d then { n with place := .whole, lead := 10 * n.lead + d }
  else { n with place := .whole, full := true, shift := n.shift + 1 }

/-- A digit after the point. -/
def fractionDigit (n : PartialNumeral) (d : Nat) : PartialNumeral :=
  if n.hasRoom d then
    { n with place := .fraction, lead := 10 * n.lead + d, shift := n.shift - 1 }
  else { n with place := .fraction, full := true }

/-- A digit of the exponent. -/
def exponentDigit (n : PartialNumeral) (d : Nat) : PartialNumeral :=
  { n with place := .exponent, exponent := 10 * n.exponent + d }

/-- The numeral with one more character, `none` if it does not go on so. -/
def step? (n : PartialNumeral) (c : Char) : Option PartialNumeral :=
  match n.place, digitValue? c with
  | .minus, some 0 => some { n with place := .zero }
  | .minus, some d => some (n.wholeDigit d)
  | .whole, some d => some (n.wholeDigit d)
  | .point, some d => some (n.fractionDigit d)
  | .fraction, some d => some (n.fractionDigit d)
  | .exponentMark, some d => some (n.exponentDigit d)
  | .exponentSign, some d => some (n.exponentDigit d)
  | .exponent, some d => some (n.exponentDigit d)
  | .exponentMark, none =>
      if c = '+' then some { n with place := .exponentSign }
      else if c = '-' then some { n with place := .exponentSign, exponentNegative := true }
      else none
  | place, none =>
      if c = '.' ∧ (place = .zero ∨ place = .whole) then
        some { n with place := .point, full := false }
      else if (c = 'e' ∨ c = 'E') ∧ (place = .zero ∨ place = .whole ∨ place = .fraction) then
        some { n with place := .exponentMark }
      else none
  | .zero, some _ => none

/-- The exponent of ten that belongs to the leading digits. -/
def fullExponent (n : PartialNumeral) : Int :=
  (if n.exponentNegative then -(n.exponent : Int) else n.exponent) + n.shift

/-- The numeral as a decimal number. -/
def toDecimal (n : PartialNumeral) : Json :=
  .decimal n.negative n.lead n.fullExponent

/-- The numeral as an integer if it is one of a word, signed below zero. -/
def toInteger (n : PartialNumeral) : Json :=
  if n.full then n.toDecimal
  else if n.negative then
    if fitsSignedWord (-n.lead) then .integer (-n.lead) else n.toDecimal
  else .integer n.lead

/-- The number of a numeral that may end where it is. -/
def finish? (n : PartialNumeral) : Option Json :=
  match n.place with
  | .zero => some (if n.negative then .decimal true 0 0 else .integer 0)
  | .whole => some n.toInteger
  | .fraction => some n.toDecimal
  | .exponent => some n.toDecimal
  | _ => none

end PartialNumeral

/-! ## Strings -/

/-- The place that has been reached in a string. -/
inductive StringPlace
  | plain
  /-- After a backslash. -/
  | escape
  /-- Inside a numbered escape, with the number of digits to come and the number so far. -/
  | hex (left value : Nat)
deriving DecidableEq, Repr

/-- A string as far as it has been read. -/
structure PartialString where
  place : StringPlace := .plain
  /-- The characters so far in reverse. -/
  reversed : List Char := []
  /-- Whether all characters so far are known. -/
  sound : Bool := true
  /-- The first half of a surrogate pair whose second half must come next. -/
  half : Option Nat := none
deriving DecidableEq, Repr

namespace PartialString

/-- The string with one more character.  Half a pair before it is lost. -/
def push (s : PartialString) (c : Char) : PartialString :=
  { place := .plain
    reversed := c :: s.reversed
    sound := s.sound && s.half.isNone
    half := none }

/-- The string with something that is no character. -/
def spoil (s : PartialString) : PartialString :=
  { s with place := .plain, sound := false, half := none }

/-- Whether a number is the first half of a surrogate pair. -/
def isFirstHalf (n : Nat) : Bool :=
  0xD800 ≤ n && n < 0xDC00

/-- Whether a number is the second half of a surrogate pair. -/
def isSecondHalf (n : Nat) : Bool :=
  0xDC00 ≤ n && n < 0xE000

/-- The string with the character, or half character, of a numbered escape. -/
def pushCode (s : PartialString) (n : Nat) : PartialString :=
  match s.half with
  | some first =>
      if isSecondHalf n then
        { s with half := none }.push (Char.ofNat (0x10000 + (first - 0xD800) * 0x400 + (n - 0xDC00)))
      else s.spoil
  | none =>
      if isFirstHalf n then { s with place := .plain, half := some n }
      else if isSecondHalf n then s.spoil
      else s.push (Char.ofNat n)

/-- The character of a short escape. -/
def escaped? (c : Char) : Option Char :=
  if c = '"' ∨ c = '\\' ∨ c = '/' then some c
  else if c = 'b' then some '\x08'
  else if c = 'f' then some '\x0c'
  else if c = 'n' then some '\n'
  else if c = 'r' then some '\r'
  else if c = 't' then some '\t'
  else none

/-- The string with one more character of its text, the closing mark excepted. -/
def step? (s : PartialString) (c : Option Char) : Option PartialString :=
  match s.place, c with
  | .plain, none => some s.spoil
  | .plain, some c =>
      if c = '\\' then some { s with place := .escape }
      else if c.toNat < 0x20 then none
      else some (s.push c)
  | .escape, some c =>
      if c = 'u' then some { s with place := .hex 4 0 } else (escaped? c).map s.push
  | .hex left value, some c =>
      match hexValue? c with
      | none => none
      | some d =>
          let value := 16 * value + d
          if left ≤ 1 then some (s.pushCode value)
          else some { s with place := .hex (left - 1) value }
  | _, none => none

/-- The string, if all its characters are known. -/
def finish (s : PartialString) : Option String :=
  if s.sound && s.half.isNone then some (String.ofList s.reversed.reverse) else none

end PartialString

/-! ## Values -/

/-- An array or object that is still open. -/
inductive Frame
  /-- An array with its items so far in reverse. -/
  | array (reversed : List Json)
  /-- An object between its members, with its members so far in reverse. -/
  | object (reversed : List (Option String × Json))
  /-- An object inside the value of a key. -/
  | member (reversed : List (Option String × Json)) (key : Option String)

/-- What may come next. -/
inductive Mode
  /-- A value. -/
  | value
  /-- The first item of an array, or its end. -/
  | firstItem
  /-- The first key of an object, or its end. -/
  | firstKey
  /-- A further key of an object. -/
  | nextKey
  /-- The rest of a key. -/
  | key (text : PartialString)
  /-- The colon after a key. -/
  | colon (key : Option String)
  /-- The rest of a string. -/
  | string (text : PartialString)
  /-- The rest of a numeral, or what follows it. -/
  | number (numeral : PartialNumeral)
  /-- The rest of a word that stands for a value. -/
  | word (rest : List Char) (value : Json)
  /-- What follows a value. -/
  | after (value : Json)

/-- A state of the automaton. -/
structure ReaderState where
  /-- The open arrays and objects, innermost first. -/
  stack : List Frame
  mode : Mode

namespace ReaderState

/-- The state before the first character. -/
def start : ReaderState :=
  { stack := [], mode := .value }

/-- The state after the first character of a value. -/
def beginValue? (stack : List Frame) (c : Char) : Option ReaderState :=
  if c = '"' then some { stack := stack, mode := .string {} }
  else if c = '[' then some { stack := .array [] :: stack, mode := .firstItem }
  else if c = '\x7b' then some { stack := .object [] :: stack, mode := .firstKey }
  else if c = 'n' then some { stack := stack, mode := .word ['u', 'l', 'l'] .null }
  else if c = 't' then some { stack := stack, mode := .word ['r', 'u', 'e'] (.bool true) }
  else if c = 'f' then some { stack := stack, mode := .word ['a', 'l', 's', 'e'] (.bool false) }
  else (PartialNumeral.start? c).map fun n => { stack := stack, mode := .number n }

/-- The state after a character that follows a value. -/
def afterValue? (stack : List Frame) (value : Json) (c : Char) : Option ReaderState :=
  if isSpace c then some { stack := stack, mode := .after value }
  else
    match stack with
    | .array items :: rest =>
        if c = ',' then some { stack := .array (value :: items) :: rest, mode := .value }
        else if c = ']' then
          some { stack := rest, mode := .after (.array (value :: items).reverse) }
        else none
    | .member members key :: rest =>
        if c = ',' then
          some { stack := .object ((key, value) :: members) :: rest, mode := .nextKey }
        else if c = '\x7d' then
          some { stack := rest, mode := .after (.object ((key, value) :: members).reverse) }
        else none
    | _ => none

/-- The state after the end of an array or object without items. -/
def closeEmpty? (stack : List Frame) (value : Json) : Option ReaderState :=
  match stack with
  | _ :: rest => some { stack := rest, mode := .after value }
  | [] => none

/-- The state after the colon that follows a key. -/
def beginMember? (stack : List Frame) (key : Option String) : Option ReaderState :=
  match stack with
  | .object members :: rest => some { stack := .member members key :: rest, mode := .value }
  | _ => none

/-- The state after one more character that is outside all strings. -/
def stepOutside? (state : ReaderState) (c : Char) : Option ReaderState :=
  match state.mode with
  | .value => if isSpace c then some state else beginValue? state.stack c
  | .firstItem =>
      if isSpace c then some state
      else if c = ']' then closeEmpty? state.stack (.array [])
      else beginValue? state.stack c
  | .firstKey =>
      if isSpace c then some state
      else if c = '\x7d' then closeEmpty? state.stack (.object [])
      else if c = '"' then some { state with mode := .key {} }
      else none
  | .nextKey =>
      if isSpace c then some state
      else if c = '"' then some { state with mode := .key {} }
      else none
  | .colon key =>
      if isSpace c then some state
      else if c = ':' then beginMember? state.stack key
      else none
  | .number n =>
      match n.step? c with
      | some n => some { state with mode := .number n }
      | none =>
          match n.finish? with
          | some value => afterValue? state.stack value c
          | none => none
  | .word (next :: rest) value =>
      if c = next then
        some { state with mode := if rest.isEmpty then .after value else .word rest value }
      else none
  | .word [] _ => none
  | .after value => afterValue? state.stack value c
  | .key _ => none
  | .string _ => none

/-- The state after one more character, `none` standing for a byte of no character. -/
def step? (state : ReaderState) (c : Option Char) : Option ReaderState :=
  match state.mode with
  | .key text =>
      if text.place = .plain ∧ c = some '"' then some { state with mode := .colon text.finish }
      else (text.step? c).map fun text => { state with mode := .key text }
  | .string text =>
      if text.place = .plain ∧ c = some '"' then
        some { state with mode := .after (.string text.finish) }
      else (text.step? c).map fun text => { state with mode := .string text }
  | _ =>
      match c with
      | some c => state.stepOutside? c
      | none => none

/-- The value that has been read, if the text may end here. -/
def finish? (state : ReaderState) : Option Json :=
  match state.stack, state.mode with
  | [], .after value => some value
  | [], .number n => n.finish?
  | _, _ => none

end ReaderState

/-- The value whose text is given; `none` stands for a byte of no character. -/
def read? (cs : List (Option Char)) : Option Json :=
  (cs.foldlM ReaderState.step? ReaderState.start).bind ReaderState.finish?

/-- The value whose text is given as a string. -/
def ofText? (s : String) : Option Json :=
  read? (s.toList.map some)

end Json

end Discussion
