import Discussion.Json.Reader
import Discussion.Json.Writer
import Discussion.Proofs.Text.Numeral

/-!
# Written tokens read back

The automaton is run over the text of single tokens: blanks, numerals and strings.  What is
open around a token stays on the stack, so a token inside an array or object is read as one
that stands alone.
-/

namespace Discussion

namespace Json

/-- The state after some characters. -/
def readOn (state : ReaderState) (cs : List Char) : Option ReaderState :=
  cs.foldlM (fun state c => state.step? (some c)) state

@[simp]
theorem readOn_nil (state : ReaderState) : readOn state [] = some state := rfl

theorem readOn_cons {state next : ReaderState} {c : Char} (h : state.step? (some c) = some next)
    (rest : List Char) : readOn state (c :: rest) = readOn next rest := by
  rw [readOn, List.foldlM_cons, h]
  rfl

theorem readOn_append {state next : ReaderState} {cs : List Char}
    (h : readOn state cs = some next) (rest : List Char) :
    readOn state (cs ++ rest) = readOn next rest := by
  rw [readOn] at h
  rw [readOn, List.foldlM_append, h]
  rfl

theorem read?_eq (cs : List Char) :
    read? (cs.map some) = (readOn .start cs).bind ReaderState.finish? := by
  rw [read?, readOn, List.foldlM_map]

/-! ## Blanks -/

/-- A state that no blank changes. -/
def SkipsSpaces (state : ReaderState) : Prop :=
  ∀ c, isSpace c = true → state.step? (some c) = some state

theorem skipsSpaces_value (stack : List Frame) : SkipsSpaces ⟨stack, .value⟩ := by
  intro c hc
  simp [ReaderState.step?, ReaderState.stepOutside?, hc]

theorem skipsSpaces_firstItem (stack : List Frame) : SkipsSpaces ⟨stack, .firstItem⟩ := by
  intro c hc
  simp [ReaderState.step?, ReaderState.stepOutside?, hc]

theorem skipsSpaces_firstKey (stack : List Frame) : SkipsSpaces ⟨stack, .firstKey⟩ := by
  intro c hc
  simp [ReaderState.step?, ReaderState.stepOutside?, hc]

theorem skipsSpaces_nextKey (stack : List Frame) : SkipsSpaces ⟨stack, .nextKey⟩ := by
  intro c hc
  simp [ReaderState.step?, ReaderState.stepOutside?, hc]

theorem skipsSpaces_after (stack : List Frame) (value : Json) :
    SkipsSpaces ⟨stack, .after value⟩ := by
  intro c hc
  simp [ReaderState.step?, ReaderState.stepOutside?, ReaderState.afterValue?, hc]

theorem readOn_spaces {state : ReaderState} (h : SkipsSpaces state) {blanks : List Char}
    (hblanks : ∀ c ∈ blanks, isSpace c = true) (rest : List Char) :
    readOn state (blanks ++ rest) = readOn state rest := by
  induction blanks with
  | nil => rfl
  | cons c blanks ih =>
      rw [List.cons_append, readOn_cons (h c (hblanks c (by simp))),
        ih fun d hd => hblanks d (by simp [hd])]

/-! ## Numerals -/

/-- A numeral of whole digits as far as it has been read. -/
def wholeNumeral (negative : Bool) (n : Nat) : PartialNumeral :=
  { place := .whole, negative := negative, lead := n }

theorem step?_wholeNumeral (negative : Bool) {m d : Nat} (hd : d < 10)
    (hsize : 10 * m + d < UInt64.size) :
    (wholeNumeral negative m).step? (digitChar d) = some (wholeNumeral negative (10 * m + d)) := by
  have hroom : (wholeNumeral negative m).hasRoom d = true := decide_eq_true hsize
  have hstep : (wholeNumeral negative m).step? (digitChar d) =
      some ((wholeNumeral negative m).wholeDigit d) := by
    rw [PartialNumeral.step?, digitValue?_digitChar hd]
    rfl
  rw [hstep, PartialNumeral.wholeDigit, if_pos hroom]
  rfl

/-- A numeral goes on with a character that continues it. -/
theorem step?_number {n next : PartialNumeral} {c : Char} (h : n.step? c = some next)
    (stack : List Frame) :
    (⟨stack, .number n⟩ : ReaderState).step? (some c) = some ⟨stack, .number next⟩ := by
  simp only [ReaderState.step?, ReaderState.stepOutside?, h]

/-- A first digit that is not zero is followed by the others one after the other. -/
theorem readOn_numeral {start : ReaderState} {stack : List Frame} {negative : Bool}
    (hfirst : ∀ d, 1 ≤ d → d < 10 →
      start.step? (some (digitChar d)) = some ⟨stack, .number (wholeNumeral negative d)⟩)
    {n : Nat} (hpos : 1 ≤ n) (hsize : n < UInt64.size) :
    readOn start (numeral n) = some ⟨stack, .number (wholeNumeral negative n)⟩ := by
  induction n using Nat.strongRecOn with
  | ind n ih =>
      by_cases hsmall : n < 10
      · rw [numeral_of_lt hsmall, readOn_cons (hfirst n hpos hsmall), readOn_nil]
      · have hinit := ih (n / 10) (by omega) (by omega) (by omega)
        have hvalue : 10 * (n / 10) + n % 10 = n := by omega
        have hlast := step?_wholeNumeral negative (m := n / 10) (d := n % 10) (by omega)
          (by omega)
        rw [numeral_of_le (by omega), readOn_append hinit, readOn_cons (step?_number hlast stack),
          hvalue, readOn_nil]

/-- A value that begins like a numeral is one. -/
theorem step?_value_of_start? {c : Char} {n : PartialNumeral} (h : PartialNumeral.start? c = some n)
    (stack : List Frame) :
    (⟨stack, .value⟩ : ReaderState).step? (some c) = some ⟨stack, .number n⟩ := by
  have hother : ∀ x ∈ [' ', '\n', '\t', '\r', '"', '[', '\x7b', 'n', 't', 'f'], c ≠ x := by
    have hnone : ∀ x ∈ [' ', '\n', '\t', '\r', '"', '[', '\x7b', 'n', 't', 'f'],
        PartialNumeral.start? x = none := by
      simp only [List.forall_mem_cons, List.not_mem_nil, false_implies, implies_true, and_true]
      decide
    rintro x hx rfl
    rw [hnone c hx] at h
    cases h
  simp only [List.forall_mem_cons, List.not_mem_nil, false_implies, implies_true, and_true]
    at hother
  obtain ⟨hspace, hline, htab, hreturn, hquote, harray, hobject, hn, ht, hf⟩ := hother
  simp [ReaderState.step?, ReaderState.stepOutside?, ReaderState.beginValue?, isSpace, *]

/-- An integer that fits a word, signed below zero. -/
def IsWordSized (i : Int) : Prop :=
  -9223372036854775808 ≤ i ∧ i < 18446744073709551616

theorem finish?_wholeNumeral_of_nonneg {n : Nat} :
    (wholeNumeral false n).finish? = some (.integer n) := rfl

theorem finish?_wholeNumeral_of_neg {n : Nat} (h : n ≤ 9223372036854775808) :
    (wholeNumeral true n).finish? = some (.integer (-n)) := by
  have hfits : fitsSignedWord (-(n : Int)) = true := by
    simp only [fitsSignedWord, Bool.and_eq_true, decide_eq_true_eq]
    omega
  change some (if fitsSignedWord (-(n : Int)) then Json.integer (-n) else _) = _
  rw [if_pos hfits]

/-- The text of an integer leaves a numeral that may end where it is. -/
theorem readOn_integer {i : Int} (h : IsWordSized i) (stack : List Frame) :
    ∃ n : PartialNumeral, (n.place = .zero ∨ n.place = .whole) ∧ n.finish? = some (.integer i) ∧
      readOn ⟨stack, .value⟩ (signedDecimal i).toList = some ⟨stack, .number n⟩ := by
  obtain ⟨hlow, hhigh⟩ := h
  have hsize : UInt64.size = 18446744073709551616 := rfl
  rcases Int.lt_trichotomy i 0 with hneg | rfl | hpos
  · have htext : (signedDecimal i).toList = '-' :: numeral i.natAbs := by
      simp [signedDecimal, hneg, Discussion.decimal, String.toList_append]
    have hstart : PartialNumeral.start? '-' = some { place := .minus, negative := true } := rfl
    have hfirst : ∀ d < 10, 1 ≤ d →
        ({ place := .minus, negative := true } : PartialNumeral).step? (digitChar d) =
          some (wholeNumeral true d) := by decide
    have hvalue : -(i.natAbs : Int) = i := by omega
    refine ⟨wholeNumeral true i.natAbs, Or.inr rfl, ?_, ?_⟩
    · rw [finish?_wholeNumeral_of_neg (by omega), hvalue]
    · rw [htext, readOn_cons (step?_value_of_start? hstart stack)]
      refine readOn_numeral ?_ (by omega) (by omega)
      intro d hd hsmall
      exact step?_number (hfirst d hsmall hd) stack
  · have htext : (signedDecimal 0).toList = ['0'] := by
      simp [signedDecimal, Discussion.decimal, numeral_of_lt, digitChar]
    have hstart : PartialNumeral.start? '0' = some { place := .zero } := rfl
    refine ⟨{ place := .zero }, Or.inl rfl, rfl, ?_⟩
    rw [htext, readOn_cons (step?_value_of_start? hstart stack), readOn_nil]
  · have htext : (signedDecimal i).toList = numeral i.natAbs := by
      simp [signedDecimal, Int.not_lt.mpr (Int.le_of_lt hpos), Discussion.decimal]
    have hfirst : ∀ d < 10, 1 ≤ d →
        PartialNumeral.start? (digitChar d) = some (wholeNumeral false d) := by decide
    have hvalue : (i.natAbs : Int) = i := by omega
    refine ⟨wholeNumeral false i.natAbs, Or.inr rfl, ?_, ?_⟩
    · rw [finish?_wholeNumeral_of_nonneg, hvalue]
    · rw [htext]
      refine readOn_numeral ?_ (by omega) (by omega)
      intro d hd hsmall
      exact step?_value_of_start? (hfirst d hsmall hd) stack

/-- A character that may follow a value in a text that is written. -/
def FollowsValue (c : Char) : Prop :=
  c ∈ [',', ']', '\x7d'] ∨ isSpace c = true

/-- What may follow a numeral in a text that is written. -/
def EndsNumeral (rest : List Char) : Prop :=
  ∃ c others, rest = c :: others ∧ FollowsValue c

theorem FollowsValue.no_numeral {c : Char} (h : FollowsValue c) :
    digitValue? c = none ∧ c ≠ '.' ∧ c ≠ 'e' ∧ c ≠ 'E' := by
  have hall : ∀ x ∈ [',', ']', '\x7d', ' ', '\n', '\t', '\r'],
      digitValue? x = none ∧ x ≠ '.' ∧ x ≠ 'e' ∧ x ≠ 'E' := by
    simp only [List.forall_mem_cons, List.not_mem_nil, false_implies, implies_true, and_true]
    decide
  refine hall c ?_
  rcases h with hmark | hspace
  · exact List.mem_append_left [' ', '\n', '\t', '\r'] hmark
  · simp only [isSpace, Bool.or_eq_true, beq_iff_eq] at hspace
    rcases hspace with ((rfl | rfl) | rfl) | rfl <;> simp

/-- A numeral that may end is a value as soon as something else follows. -/
theorem readOn_number {n : PartialNumeral} {value : Json}
    (hplace : n.place = .zero ∨ n.place = .whole) (hvalue : n.finish? = some value)
    (stack : List Frame) {rest : List Char} (hrest : EndsNumeral rest) :
    readOn ⟨stack, .number n⟩ rest = readOn ⟨stack, .after value⟩ rest := by
  obtain ⟨c, others, rfl, hc⟩ := hrest
  have hstop : n.step? c = none := by
    obtain ⟨hdigit, hmark⟩ := hc.no_numeral
    rcases hplace with hzero | hwhole
    · simp [PartialNumeral.step?, hzero, hdigit, hmark]
    · simp [PartialNumeral.step?, hwhole, hdigit, hmark]
  have hstep : (⟨stack, .number n⟩ : ReaderState).step? (some c) =
      (⟨stack, .after value⟩ : ReaderState).step? (some c) := by
    simp only [ReaderState.step?, ReaderState.stepOutside?, hstop, hvalue]
  rw [readOn, readOn, List.foldlM_cons, List.foldlM_cons, hstep]

/-! ## Strings -/

/-- A string whose characters so far are known. -/
def knownString (reversed : List Char) : PartialString :=
  { reversed := reversed }

theorem finish_knownString (cs : List Char) :
    (knownString cs.reverse).finish = some (String.ofList cs) := by
  simp [PartialString.finish, knownString]

theorem hexValue?_hexDigit {n : Nat} (h : n < 16) : hexValue? (hexDigit n) = some n := by
  have hall : ∀ n < 16, hexValue? (hexDigit n) = some n := by decide
  exact hall n h

/-- A mode inside a string: every character but the closing mark belongs to the string. -/
def IsInside (mode : PartialString → Mode) : Prop :=
  ∀ stack text c, ¬ (text.place = .plain ∧ c = '"') →
    (⟨stack, mode text⟩ : ReaderState).step? (some c) =
      (text.step? (some c)).map fun text => ⟨stack, mode text⟩

theorem isInside_string : IsInside .string := by
  intro stack text c h
  simp only [ReaderState.step?, Option.some.injEq, if_neg h]

theorem isInside_key : IsInside .key := by
  intro stack text c h
  simp only [ReaderState.step?, Option.some.injEq, if_neg h]

theorem step?_inside {mode : PartialString → Mode} (hmode : IsInside mode) (stack : List Frame)
    {text next : PartialString} {c : Char} (h : ¬ (text.place = .plain ∧ c = '"'))
    (hstep : text.step? (some c) = some next) :
    (⟨stack, mode text⟩ : ReaderState).step? (some c) = some ⟨stack, mode next⟩ := by
  rw [hmode stack text c h, hstep]
  rfl

/-- A string of known characters in the middle of an escape. -/
def escapingString (found : List Char) (place : StringPlace) : PartialString :=
  { place := place, reversed := found }

theorem step?_backslash (found : List Char) :
    (knownString found).step? (some '\\') = some (escapingString found .escape) := rfl

theorem step?_digit (found : List Char) {left value d : Nat} (hleft : 1 < left) (hd : d < 16) :
    (escapingString found (.hex left value)).step? (some (hexDigit d)) =
      some (escapingString found (.hex (left - 1) (16 * value + d))) := by
  simp only [PartialString.step?, escapingString, hexValue?_hexDigit hd, Nat.not_le.mpr hleft,
    if_false]

/-- A numbered escape ends with the last digit of the number of its character. -/
theorem step?_lastDigit (found : List Char) {c : Char} (hc : c.toNat < 0x20) :
    (escapingString found (.hex 1 (c.toNat / 16))).step? (some (hexDigit (c.toNat % 16))) =
      some (knownString (c :: found)) := by
  have hvalue : 16 * (c.toNat / 16) + c.toNat % 16 = c.toNat := by omega
  have hfirst : PartialString.isFirstHalf c.toNat = false := by
    simp only [PartialString.isFirstHalf, Bool.and_eq_false_iff, decide_eq_false_iff_not]
    omega
  have hsecond : PartialString.isSecondHalf c.toNat = false := by
    simp only [PartialString.isSecondHalf, Bool.and_eq_false_iff, decide_eq_false_iff_not]
    omega
  simp only [PartialString.step?, escapingString, hexValue?_hexDigit (n := c.toNat % 16) (by omega),
    hvalue, Nat.le_refl, if_true, PartialString.pushCode, hfirst, hsecond, Bool.false_eq_true,
    if_false, Char.ofNat_toNat]
  rfl

theorem readOn_shortEscape {mode : PartialString → Mode} (hmode : IsInside mode)
    (stack : List Frame) (found : List Char) {mark c : Char} (hu : mark ≠ 'u')
    (hmark : PartialString.escaped? mark = some c) (rest : List Char) :
    readOn ⟨stack, mode (knownString found)⟩ ('\\' :: mark :: rest) =
      readOn ⟨stack, mode (knownString (c :: found))⟩ rest := by
  have hstep : (escapingString found .escape).step? (some mark) =
      some (knownString (c :: found)) := by
    simp only [PartialString.step?, escapingString, if_neg hu, hmark]
    rfl
  rw [readOn_cons (step?_inside hmode stack (by simp) (step?_backslash found)),
    readOn_cons (step?_inside hmode stack (by simp [escapingString]) hstep)]

theorem readOn_numberedEscape {mode : PartialString → Mode} (hmode : IsInside mode)
    (stack : List Frame) (found : List Char) {c : Char} (hc : c.toNat < 0x20) (rest : List Char) :
    readOn ⟨stack, mode (knownString found)⟩ ('\\' :: 'u' :: '0' :: '0' ::
      hexDigit (c.toNat / 16) :: hexDigit (c.toNat % 16) :: rest) =
      readOn ⟨stack, mode (knownString (c :: found))⟩ rest := by
  have hmark : (escapingString found .escape).step? (some 'u') =
      some (escapingString found (.hex 4 0)) := rfl
  have hzero : ∀ left, 1 < left → (escapingString found (.hex left 0)).step? (some '0') =
      some (escapingString found (.hex (left - 1) 0)) := by
    intro left hleft
    exact step?_digit found hleft (d := 0) (by decide)
  have htens : (escapingString found (.hex 2 0)).step? (some (hexDigit (c.toNat / 16))) =
      some (escapingString found (.hex 1 (c.toNat / 16))) := by
    rw [step?_digit found (by decide) (by omega)]
    simp
  rw [readOn_cons (step?_inside hmode stack (by simp) (step?_backslash found)),
    readOn_cons (step?_inside hmode stack (by simp [escapingString]) hmark),
    readOn_cons (step?_inside hmode stack (by simp [escapingString]) (hzero 4 (by decide))),
    readOn_cons (step?_inside hmode stack (by simp [escapingString]) (hzero 3 (by decide))),
    readOn_cons (step?_inside hmode stack (by simp [escapingString]) htens),
    readOn_cons (step?_inside hmode stack (by simp [escapingString]) (step?_lastDigit found hc))]

/-- A character as it is written is read as itself. -/
theorem readOn_writeChar {mode : PartialString → Mode} (hmode : IsInside mode)
    (stack : List Frame) (found : List Char) (c : Char) (rest : List Char) :
    readOn ⟨stack, mode (knownString found)⟩ (writeChar c rest) =
      readOn ⟨stack, mode (knownString (c :: found))⟩ rest := by
  have hshort : ∀ mark, mark ≠ 'u' → PartialString.escaped? mark = some c →
      readOn ⟨stack, mode (knownString found)⟩ ('\\' :: mark :: rest) =
        readOn ⟨stack, mode (knownString (c :: found))⟩ rest :=
    fun mark hu hmark => readOn_shortEscape hmode stack found hu hmark rest
  rw [writeChar]
  by_cases hquote : c = '"'
  · rw [if_pos hquote]
    exact hshort '"' (by decide) (by rw [hquote]; rfl)
  rw [if_neg hquote]
  by_cases hback : c = '\\'
  · rw [if_pos hback]
    exact hshort '\\' (by decide) (by rw [hback]; rfl)
  rw [if_neg hback]
  by_cases hbell : c = '\x08'
  · rw [if_pos hbell]
    exact hshort 'b' (by decide) (by rw [hbell]; rfl)
  rw [if_neg hbell]
  by_cases hfeed : c = '\x0c'
  · rw [if_pos hfeed]
    exact hshort 'f' (by decide) (by rw [hfeed]; rfl)
  rw [if_neg hfeed]
  by_cases hline : c = '\n'
  · rw [if_pos hline]
    exact hshort 'n' (by decide) (by rw [hline]; rfl)
  rw [if_neg hline]
  by_cases hreturn : c = '\r'
  · rw [if_pos hreturn]
    exact hshort 'r' (by decide) (by rw [hreturn]; rfl)
  rw [if_neg hreturn]
  by_cases htab : c = '\t'
  · rw [if_pos htab]
    exact hshort 't' (by decide) (by rw [htab]; rfl)
  rw [if_neg htab]
  by_cases hcontrol : c.toNat < 0x20
  · rw [if_pos hcontrol]
    exact readOn_numberedEscape hmode stack found hcontrol rest
  · rw [if_neg hcontrol]
    have hstep : (knownString found).step? (some c) = some (knownString (c :: found)) := by
      simp only [PartialString.step?, knownString, if_neg hback, if_neg hcontrol]
      rfl
    exact readOn_cons (step?_inside hmode stack (by simp [hquote]) hstep) rest

/-- The characters of a string as they are written are read as themselves. -/
theorem readOn_writeChars {mode : PartialString → Mode} (hmode : IsInside mode)
    (stack : List Frame) (found cs rest : List Char) :
    readOn ⟨stack, mode (knownString found)⟩ (cs.foldr writeChar rest) =
      readOn ⟨stack, mode (knownString (cs.reverse ++ found))⟩ rest := by
  induction cs generalizing found with
  | nil => rfl
  | cons c cs ih =>
      rw [List.foldr_cons, readOn_writeChar hmode, ih]
      simp

theorem readOn_string (stack : List Frame) (s : String) (rest : List Char) :
    readOn ⟨stack, .string (knownString [])⟩ (s.toList.foldr writeChar ('"' :: rest)) =
      readOn ⟨stack, .after (.ofString s)⟩ rest := by
  have hend : (⟨stack, .string (knownString s.toList.reverse)⟩ : ReaderState).step? (some '"') =
      some ⟨stack, .after (.ofString s)⟩ := by
    have hplace : (knownString s.toList.reverse).place = .plain := rfl
    simp [ReaderState.step?, hplace, finish_knownString, ofString]
  rw [readOn_writeChars isInside_string, List.append_nil, readOn_cons hend]

theorem readOn_key (stack : List Frame) (key : String) (rest : List Char) :
    readOn ⟨stack, .key (knownString [])⟩ (key.toList.foldr writeChar ('"' :: rest)) =
      readOn ⟨stack, .colon (some key)⟩ rest := by
  have hend : (⟨stack, .key (knownString key.toList.reverse)⟩ : ReaderState).step? (some '"') =
      some ⟨stack, .colon (some key)⟩ := by
    have hplace : (knownString key.toList.reverse).place = .plain := rfl
    simp [ReaderState.step?, hplace, finish_knownString]
  rw [readOn_writeChars isInside_key, List.append_nil, readOn_cons hend]

end Json

end Discussion
