/-!
# Styles

How printed words are set off from others on a terminal that can show it.
-/

namespace Discussion

/-- How a printed word is set off. -/
inductive Style
  | bold
  /-- Bold and underlined. -/
  | heading
  | dimmed
  | red
  | green
  | yellow
  | magenta
  | cyan
deriving DecidableEq, Repr

/-- The number of a style in the control sequences of terminals. -/
def Style.code : Style → String
  | .bold => "1"
  | .heading => "1;4"
  | .dimmed => "2"
  | .red => "31"
  | .green => "32"
  | .yellow => "33"
  | .magenta => "35"
  | .cyan => "36"

/-- Whether styles are shown. -/
structure Palette where
  coloured : Bool
deriving DecidableEq, Repr

/-- Whether a variable of the environment says yes; `0` says no. -/
def saysYes (value : Option String) : Option Bool :=
  value.map (· != "0")

/-- Whether styles are shown, from three variables of the environment and whether output goes
to a terminal.  To force styles counts most, then to forbid them, then to ask for them. -/
def Palette.choose (force forbid ask : Option String) (terminal : Bool) : Palette :=
  { coloured :=
      if saysYes force = some true then true
      else if forbid.isSome then false
      else (saysYes ask).getD true && terminal }

/-! ## Painting -/

/-- The sequence that begins a style. -/
def Style.opening (style : Style) : List Char :=
  '\x1b' :: '[' :: style.code.toList ++ ['m']

/-- The sequence that ends all styles. -/
def closing : List Char :=
  ['\x1b', '[', '0', 'm']

/-- A text in which each sequence that ends all styles is followed by another sequence, so
that a style which that sequence begins lasts to the end of the text. -/
def reopened (opening : List Char) : List Char → List Char
  | '\x1b' :: '[' :: '0' :: 'm' :: rest => closing ++ (opening ++ reopened opening rest)
  | c :: rest => c :: reopened opening rest
  | [] => []

/-- A text without escape characters stays as it is. -/
theorem reopened_eq_self (opening cs : List Char) (h : '\x1b' ∉ cs) :
    reopened opening cs = cs := by
  induction cs with
  | nil => rfl
  | cons c rest ih =>
      have hc : c ≠ '\x1b' := fun heq => h (heq ▸ List.mem_cons_self)
      rw [reopened, ih fun hmem => h (List.mem_cons_of_mem c hmem)]
      rintro rest' rfl
      exact absurd rfl hc

/-- A text in a style. -/
def Palette.paint (palette : Palette) (style : Style) (text : String) : String :=
  if palette.coloured then
    String.ofList (style.opening ++ (reopened style.opening text.toList ++ closing))
  else text

end Discussion
