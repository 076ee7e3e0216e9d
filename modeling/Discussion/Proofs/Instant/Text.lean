import Discussion.Instant.Text
import Discussion.Proofs.Instant.Calendar
import Discussion.Proofs.Text.Numeral

/-!
# Instants read back

The instants that some text spells are the regular ones: their day is kept, and a leap
second is the last of its minute.  Each of them is read back from its written form.
-/

namespace Discussion

/-! ## Digits at the start of a text -/

/-- A text that does not begin with a digit. -/
def StopsDigits (rest : List Char) : Prop :=
  ∀ c ∈ rest.head?, isDigit c = false

theorem isBlank_of_isDigit {c : Char} (h : isDigit c = true) : isBlank c = false := by
  have hrange : 48 ≤ c.toNat ∧ c.toNat ≤ 57 := by
    by_cases hdigit : '0' ≤ c ∧ c ≤ '9'
    · exact hdigit
    · simp [isDigit, digitValue?, hdigit] at h
  simp only [isBlank, Bool.or_eq_false_iff, Bool.and_eq_false_iff, decide_eq_false_iff_not,
    beq_eq_false_iff_ne]
  omega

theorem skipBlanks_cons {c : Char} (h : isBlank c = false) (rest : List Char) :
    skipBlanks (c :: rest) = c :: rest := by
  rw [skipBlanks, List.dropWhile_cons_of_neg (by simp [h])]

theorem skipBlanks_of_digits {digits : List Char} (hne : digits ≠ [])
    (h : ∀ c ∈ digits, isDigit c = true) (rest : List Char) :
    skipBlanks (digits ++ rest) = digits ++ rest := by
  obtain ⟨c, cs, rfl⟩ := List.exists_cons_of_ne_nil hne
  exact skipBlanks_cons (isBlank_of_isDigit (h c (by simp))) (cs ++ rest)

namespace Instant

theorem leadingDigits_append {width : Nat} {digits rest : List Char}
    (hdigits : ∀ c ∈ digits, isDigit c = true) (hlength : digits.length ≤ width)
    (hstop : digits.length = width ∨ StopsDigits rest) :
    leadingDigits width (digits ++ rest) = (digits, rest) := by
  induction digits generalizing width with
  | nil =>
      cases width with
      | zero => rfl
      | succ width =>
          cases rest with
          | nil => rfl
          | cons c rest =>
              have hc : isDigit c = false := by
                rcases hstop with hzero | hstop
                · simp at hzero
                · exact hstop c rfl
              simp [leadingDigits, hc]
  | cons c digits ih =>
      cases width with
      | zero => simp at hlength
      | succ width =>
          have hinner : leadingDigits width (digits ++ rest) = (digits, rest) := by
            refine ih (fun d hd => hdigits d (by simp [hd])) (by simpa using hlength) ?_
            rcases hstop with hfull | hstop
            · exact Or.inl (by simpa using hfull)
            · exact Or.inr hstop
          have hc : isDigit c = true := hdigits c (by simp)
          rw [List.cons_append, leadingDigits, if_pos hc, hinner]

theorem readDigits?_paddedDecimal {width limit n : Nat} {rest : List Char}
    (hlength : (paddedDecimal width n).toList.length ≤ limit)
    (hstop : (paddedDecimal width n).toList.length = limit ∨ StopsDigits rest) :
    readDigits? limit ((paddedDecimal width n).toList ++ rest) = some (n, rest) := by
  rw [readDigits?, leadingDigits_append (fun c => isDigit_of_mem_paddedDecimal) hlength hstop]
  simp only [readNat?_paddedDecimal]
  rfl

theorem readField?_paddedDecimal {limit n : Nat} (hlimit : n ≤ limit) (hsize : n < 100)
    (rest : List Char) :
    readField? limit ((paddedDecimal 2 n).toList ++ rest) = some (n, rest) := by
  have hlength : (paddedDecimal 2 n).toList.length = 2 := length_paddedDecimal (by decide) hsize
  rw [readField?, skipBlanks_of_digits (paddedDecimal_ne_nil 2 n)
    fun c => isDigit_of_mem_paddedDecimal,
    readDigits?_paddedDecimal (Nat.le_of_eq hlength) (Or.inl hlength)]
  exact if_pos hlimit

theorem readMark?_cons (mark : Char) (h : isBlank mark = false) (rest : List Char) :
    readMark? mark (mark :: rest) = some rest := by
  rw [readMark?, skipBlanks_cons h]
  exact if_pos rfl

/-! ## The written form -/

theorem readYear?_of_digits {digits : List Char} (hne : digits ≠ [])
    (h : ∀ c ∈ digits, isDigit c = true) (rest : List Char) :
    readYear? (digits ++ rest) =
      (readDigits? 4 (digits ++ rest)).map fun (n, rest) => ((n : Int), rest) := by
  obtain ⟨c, cs, rfl⟩ := List.exists_cons_of_ne_nil hne
  have hc : isDigit c = true := h c (by simp)
  have hminus : c ≠ '-' := by
    rintro rfl
    cases hc
  have hplus : c ≠ '+' := by
    rintro rfl
    cases hc
  rw [readYear?, skipBlanks_of_digits hne h]
  split
  · next heq => exact absurd (List.cons.inj heq).1 hminus
  · next heq => exact absurd (List.cons.inj heq).1 hplus
  · rfl

theorem readYear?_minus (rest : List Char) :
    readYear? ('-' :: rest) =
      (readDigits? rest.length rest).map fun (n, rest) => (-(n : Int), rest) := rfl

theorem readYear?_plus (rest : List Char) :
    readYear? ('+' :: rest) =
      (readDigits? rest.length rest).map fun (n, rest) => ((n : Int), rest) := rfl

theorem readYear?_yearText (year : Int) {rest : List Char} (hrest : StopsDigits rest) :
    readYear? ((yearText year).toList ++ rest) = some (year, rest) := by
  rw [yearText]
  by_cases hfour : 0 ≤ year ∧ year ≤ 9999
  · have hlength : (paddedDecimal 4 year.toNat).toList.length = 4 :=
      length_paddedDecimal (by decide) (by omega)
    have hyear : (year.toNat : Int) = year := by omega
    rw [if_pos hfour, readYear?_of_digits (paddedDecimal_ne_nil _ _)
      (fun c => isDigit_of_mem_paddedDecimal),
      readDigits?_paddedDecimal (Nat.le_of_eq hlength) (Or.inl hlength)]
    simp only [Option.map_some, hyear]
  · have hread : readDigits? ((paddedDecimal 4 year.natAbs).toList ++ rest).length
        ((paddedDecimal 4 year.natAbs).toList ++ rest) = some (year.natAbs, rest) :=
      readDigits?_paddedDecimal (by simp) (Or.inr hrest)
    by_cases hneg : year < 0
    · have htext : ("-" ++ paddedDecimal 4 year.natAbs).toList ++ rest =
          '-' :: ((paddedDecimal 4 year.natAbs).toList ++ rest) := by
        simp [String.toList_append]
      have hyear : -(year.natAbs : Int) = year := by omega
      rw [if_neg hfour, if_pos hneg, htext, readYear?_minus, hread]
      simp only [Option.map_some, hyear]
    · have htext : ("+" ++ paddedDecimal 4 year.natAbs).toList ++ rest =
          '+' :: ((paddedDecimal 4 year.natAbs).toList ++ rest) := by
        simp [String.toList_append]
      have hyear : (year.natAbs : Int) = year := by omega
      rw [if_neg hfour, if_neg hneg, htext, readYear?_plus, hread]
      simp only [Option.map_some, hyear]

theorem readFraction?_padded {width n : Nat} {rest : List Char} (hpos : 1 ≤ width)
    (hwidth : width ≤ 9) (hsize : n < 10 ^ width) (hrest : StopsDigits rest) :
    readFraction? ('.' :: ((paddedDecimal width n).toList ++ rest)) =
      some (n * Nat.pow 10 (9 - width), rest) := by
  have hlength := length_paddedDecimal hpos hsize
  have hlead : leadingDigits 9 ((paddedDecimal width n).toList ++ rest) =
      ((paddedDecimal width n).toList, rest) :=
    leadingDigits_append (fun c => isDigit_of_mem_paddedDecimal) (by omega) (Or.inr hrest)
  have hdrop : rest.dropWhile isDigit = rest := by
    cases rest with
    | nil => rfl
    | cons c rest => exact List.dropWhile_cons_of_neg (by simp [hrest c rfl])
  simp only [readFraction?, hlead, readNat?_paddedDecimal, Option.map_some, hlength, hdrop]

/-- The fraction that is left out is nothing; the digits that are left out are zeros. -/
theorem readFraction?_fractionText {nano : Nat} (h : nano < nanosPerSecond) {c : Char}
    (hc : isDigit c = false) (hpoint : c ≠ '.') (rest : List Char) :
    readFraction? ((fractionText nano).toList ++ c :: rest) = some (nano, c :: rest) := by
  have hstop : StopsDigits (c :: rest) := by
    rintro d hd
    obtain rfl := Option.some.inj hd
    exact hc
  rw [nanosPerSecond] at h
  rw [fractionText]
  by_cases hzero : nano = 0
  · rw [if_pos hzero, hzero]
    change readFraction? (c :: rest) = _
    rw [readFraction?]
    rintro others heq
    exact hpoint (List.cons.inj heq).1
  rw [if_neg hzero]
  by_cases hthree : nano % 1000000 = 0
  · have hvalue : nano / 1000000 * Nat.pow 10 (9 - 3) = nano :=
      Nat.div_mul_cancel (Nat.dvd_of_mod_eq_zero hthree)
    rw [if_pos hthree, String.toList_append]
    exact (readFraction?_padded (by decide) (by decide) (by omega) hstop).trans (by rw [hvalue])
  rw [if_neg hthree]
  by_cases hsix : nano % 1000 = 0
  · have hvalue : nano / 1000 * Nat.pow 10 (9 - 6) = nano :=
      Nat.div_mul_cancel (Nat.dvd_of_mod_eq_zero hsix)
    rw [if_pos hsix, String.toList_append]
    exact (readFraction?_padded (by decide) (by decide) (by omega) hstop).trans (by rw [hvalue])
  · have hvalue : nano * Nat.pow 10 (9 - 9) = nano := Nat.mul_one nano
    rw [if_neg hsix, String.toList_append]
    exact (readFraction?_padded (by decide) (by decide) (by omega) hstop).trans (by rw [hvalue])

/-- An instant that some text spells: its day is kept, and only the last second of a minute
can be a leap second. -/
structure IsRegular (t : Instant) : Prop where
  kept : isKept t.day = true
  nano_lt : t.nano < 2 * nanosPerSecond
  leap : nanosPerSecond ≤ t.nano → t.second % 60 = 59

theorem readDate?_ofDayNumber (day : Int) (rest : List Char) :
    readDate? ((yearText (Date.ofDayNumber day).year).toList ++ '-' ::
      ((paddedDecimal 2 (Date.ofDayNumber day).month).toList ++ '-' ::
        ((paddedDecimal 2 (Date.ofDayNumber day).day).toList ++ rest))) =
      some (Date.ofDayNumber day, rest) := by
  obtain ⟨hvalid, -⟩ := Date.ofDayNumber_spec day
  obtain ⟨hmonth, hyear, hpos, hday⟩ := id hvalid
  have hthirty : (Date.ofDayNumber day).day ≤ 31 := Nat.le_trans hday (Date.monthLength_le _ _)
  have hmark : ∀ cs, StopsDigits ('-' :: cs) := by
    rintro cs c hc
    obtain rfl := Option.some.inj hc
    rfl
  rw [readDate?, readYear?_yearText _ (hmark _)]
  simp only [Option.bind_eq_bind, Option.bind_some, readMark?_cons '-' rfl]
  rw [readField?_paddedDecimal hyear (by omega)]
  simp only [Option.bind_some, readMark?_cons '-' rfl]
  rw [readField?_paddedDecimal hthirty (by omega)]
  simp only [Option.bind_some]
  exact if_pos hvalid

/-- The hours, minutes and seconds of a day are read back, a leap second as the sixtieth. -/
theorem readClock?_text {clock second nano : Nat} (hclock : clock < 86400) (hsecond : second ≤ 60)
    (hnano : nano < nanosPerSecond) :
    readClock? ((paddedDecimal 2 (clock / 3600)).toList ++ ':' ::
      ((paddedDecimal 2 (clock / 60 % 60)).toList ++ ':' ::
        ((paddedDecimal 2 second).toList ++ ((fractionText nano).toList ++ ['Z'])))) =
      some (if second = 60 then (clock - clock % 60 + 59, nano + nanosPerSecond, ['Z'])
        else (clock - clock % 60 + second, nano, ['Z'])) := by
  have hstart : clock / 3600 * 3600 + clock / 60 % 60 * 60 = clock - clock % 60 := by omega
  rw [readClock?, readField?_paddedDecimal (by omega) (by omega)]
  simp only [Option.bind_eq_bind, Option.bind_some, readMark?_cons ':' rfl]
  rw [readField?_paddedDecimal (by omega) (by omega)]
  simp only [Option.bind_some, readMark?_cons ':' rfl]
  rw [readField?_paddedDecimal hsecond (by omega)]
  simp only [Option.bind_some]
  rw [readFraction?_fractionText hnano rfl (by decide)]
  simp only [Option.bind_some, hstart]
  split <;> rfl

/-- The second that is written, and the nanoseconds after it. -/
def writtenSecond (t : Instant) : Nat × Nat :=
  let second := (t.second % secondsPerDay).toNat % 60
  if nanosPerSecond ≤ t.nano then (second + 1, t.nano - nanosPerSecond) else (second, t.nano)

theorem toList_text (t : Instant) :
    t.text.toList =
      (yearText (Date.ofDayNumber t.day).year).toList ++ '-' ::
        ((paddedDecimal 2 (Date.ofDayNumber t.day).month).toList ++ '-' ::
          ((paddedDecimal 2 (Date.ofDayNumber t.day).day).toList ++ 'T' ::
            ((paddedDecimal 2 ((t.second % secondsPerDay).toNat / 3600)).toList ++ ':' ::
              ((paddedDecimal 2 ((t.second % secondsPerDay).toNat / 60 % 60)).toList ++ ':' ::
                ((paddedDecimal 2 t.writtenSecond.1).toList ++
                  ((fractionText t.writtenSecond.2).toList ++ ['Z'])))))) := by
  by_cases hleap : nanosPerSecond ≤ t.nano
  · simp [text, writtenSecond, hleap, String.toList_append]
  · simp [text, writtenSecond, hleap, String.toList_append]

/-- The clock and the nanoseconds that are read for what is written are those of the instant. -/
theorem readClock?_writtenSecond {t : Instant} (h : t.IsRegular) :
    readClock? ((paddedDecimal 2 ((t.second % secondsPerDay).toNat / 3600)).toList ++ ':' ::
      ((paddedDecimal 2 ((t.second % secondsPerDay).toNat / 60 % 60)).toList ++ ':' ::
        ((paddedDecimal 2 t.writtenSecond.1).toList ++
          ((fractionText t.writtenSecond.2).toList ++ ['Z'])))) =
      some ((t.second % secondsPerDay).toNat, t.nano, ['Z']) := by
  have hclock : (t.second % secondsPerDay).toNat < 86400 := by
    simp only [secondsPerDay]
    omega
  have hnano := h.nano_lt
  by_cases hleap : nanosPerSecond ≤ t.nano
  · have hlast : (t.second % secondsPerDay).toNat % 60 = 59 := by
      have hsecond := h.leap hleap
      simp only [secondsPerDay]
      omega
    have hwritten : t.writtenSecond = (60, t.nano - nanosPerSecond) := by
      simp [writtenSecond, hleap, hlast]
    rw [hwritten, readClock?_text hclock (Nat.le_refl _) (by omega), if_pos rfl, hlast]
    have hsame : (t.second % secondsPerDay).toNat - 59 + 59 = (t.second % secondsPerDay).toNat := by
      omega
    rw [hsame, Nat.sub_add_cancel hleap]
  · have hwritten : t.writtenSecond = ((t.second % secondsPerDay).toNat % 60, t.nano) := by
      simp [writtenSecond, hleap]
    rw [hwritten, readClock?_text hclock (by omega) (by omega), if_neg (by omega)]
    have hsame : (t.second % secondsPerDay).toNat - (t.second % secondsPerDay).toNat % 60 +
        (t.second % secondsPerDay).toNat % 60 = (t.second % secondsPerDay).toNat := by
      omega
    rw [hsame]

/-- A regular instant is read back from its written form. -/
theorem ofString?_text {t : Instant} (h : t.IsRegular) : ofString? t.text = some t := by
  obtain ⟨-, hday⟩ := Date.ofDayNumber_spec t.day
  have hsecond : (t.day - epochDay) * secondsPerDay +
      (((t.second % secondsPerDay).toNat : Int) - 0) = t.second := by
    simp only [day, secondsPerDay]
    omega
  have hsame : ofDay t.day (((t.second % secondsPerDay).toNat : Int) - 0) t.nano = t := by
    rw [ofDay, hsecond]
  have hzone : readZone? (skipBlanks ['Z']) = some (0, []) := rfl
  rw [ofString?, toList_text, read?, readDate?_ofDayNumber]
  simp only [Option.bind_eq_bind, Option.bind_some, true_or, if_true, readClock?_writtenSecond h,
    hzone, hday, hsame, h.kept]
  rfl

/-! ## What is read -/

theorem length_leadingDigits_le (width : Nat) (cs : List Char) :
    (leadingDigits width cs).1.length ≤ width := by
  fun_induction leadingDigits width cs with
  | case1 width c rest hdigit digits after hinner ih =>
      rw [hinner] at ih
      simpa using ih
  | case2 => simp
  | case3 => simp

theorem readFraction?_lt {cs rest : List Char} {nano : Nat}
    (h : readFraction? cs = some (nano, rest)) : nano < nanosPerSecond := by
  rw [readFraction?.eq_def] at h
  split at h
  · next tail =>
      obtain ⟨n, hn, heq⟩ := Option.map_eq_some_iff.mp h
      obtain rfl := (Prod.mk.inj heq).1
      have hlength := length_leadingDigits_le 9 tail
      have hpow : 10 ^ (leadingDigits 9 tail).1.length *
          10 ^ (9 - (leadingDigits 9 tail).1.length) = nanosPerSecond := by
        rw [← Nat.pow_add, Nat.add_sub_cancel' hlength]
        rfl
      rw [← hpow]
      exact Nat.mul_lt_mul_of_pos_right (readNat?_lt hn) (Nat.pow_pos (by decide))
  · obtain rfl := (Prod.mk.inj (Option.some.inj h)).1
    decide

theorem readClock?_leap {cs rest : List Char} {clock nano : Nat}
    (h : readClock? cs = some (clock, nano, rest)) :
    nano < 2 * nanosPerSecond ∧ (nanosPerSecond ≤ nano → clock % 60 = 59) := by
  simp only [readClock?, Option.bind_eq_bind, Option.bind_eq_some_iff] at h
  obtain ⟨⟨hour, _⟩, _, _, _, ⟨minute, _⟩, _, _, _, ⟨second, _⟩, _, ⟨fraction, _⟩,
    hfraction, heq⟩ := h
  have hlt := readFraction?_lt hfraction
  simp only at heq
  split at heq
  · simp only [Option.some.injEq, Prod.mk.injEq] at heq
    omega
  · simp only [Option.some.injEq, Prod.mk.injEq] at heq
    omega

theorem readOffset?_minutes {cs rest : List Char} {offset : Int}
    (h : readOffset? cs = some (offset, rest)) : offset % 60 = 0 := by
  simp only [readOffset?, Option.bind_eq_bind, Option.bind_eq_some_iff] at h
  obtain ⟨⟨hours, _⟩, _, ⟨minutes, _⟩, _, heq⟩ := h
  simp only at heq
  split at heq
  · simp only [Option.some.injEq, Prod.mk.injEq] at heq
    omega
  · cases heq

theorem readZone?_minutes {cs rest : List Char} {offset : Int}
    (h : readZone? cs = some (offset, rest)) : offset % 60 = 0 := by
  rw [readZone?.eq_def] at h
  split at h
  · cases h
    rfl
  · cases h
    rfl
  · split at h
    · cases h
      rfl
    · split at h
      · exact readOffset?_minutes h
      · split at h
        · obtain ⟨⟨seconds, after⟩, hoffset, heq⟩ := Option.map_eq_some_iff.mp h
          have hminutes := readOffset?_minutes hoffset
          obtain rfl := (Prod.mk.inj heq).1
          omega
        · cases h
  · cases h

/-- An instant that is read is regular. -/
theorem isRegular_of_ofString? {s : String} {t : Instant} (h : ofString? s = some t) :
    t.IsRegular := by
  simp only [ofString?, read?, Option.bind_eq_bind] at h
  obtain ⟨⟨date, afterDate⟩, -, h⟩ := Option.bind_eq_some_iff.mp h
  cases afterDate with
  | nil => cases h
  | cons mark afterMark =>
      simp only at h
      split at h
      · rw [Option.bind_some] at h
        obtain ⟨⟨clock, nano, afterClock⟩, hclock, h⟩ := Option.bind_eq_some_iff.mp h
        obtain ⟨⟨offset, afterZone⟩, hzone, h⟩ := Option.bind_eq_some_iff.mp h
        obtain ⟨hnano, hleap⟩ := readClock?_leap hclock
        have hminutes := readZone?_minutes hzone
        simp only at h
        split at h
        · next hkept =>
            obtain rfl := Option.some.inj h
            refine ⟨hkept.2.2.2, hnano, ?_⟩
            intro hlong
            have hlast := hleap hlong
            simp only [ofDay, secondsPerDay]
            omega
        · cases h
      · cases h

/-- The regular instants are those that some text spells. -/
theorem isRegular_iff (t : Instant) : t.IsRegular ↔ ∃ s, ofString? s = some t :=
  ⟨fun h => ⟨t.text, ofString?_text h⟩, fun ⟨_, h⟩ => isRegular_of_ofString? h⟩

/-! ## Leap seconds inside a minute -/

/-- An instant of a day that is kept; a leap second may follow any second. -/
structure InRange (t : Instant) : Prop where
  kept : isKept t.day = true
  nano_lt : t.nano < 2 * nanosPerSecond

/-- The instant that the written form tells.  A leap second that does not end its minute is
written as a part of the next second. -/
def asWritten (t : Instant) : Instant :=
  if nanosPerSecond ≤ t.nano ∧ t.second % 60 ≠ 59 then
    { second := t.second + 1, nano := t.nano - nanosPerSecond }
  else t

theorem IsRegular.asWritten_eq {t : Instant} (h : t.IsRegular) : t.asWritten = t :=
  if_neg fun hinside => hinside.2 (h.leap hinside.1)

theorem day_asWritten (t : Instant) : t.asWritten.day = t.day := by
  by_cases hinside : nanosPerSecond ≤ t.nano ∧ t.second % 60 ≠ 59
  · rw [asWritten, if_pos hinside]
    simp only [day, secondsPerDay]
    omega
  · rw [asWritten, if_neg hinside]

theorem isRegular_asWritten {t : Instant} (h : t.InRange) : t.asWritten.IsRegular := by
  have hkept : isKept t.asWritten.day = true := by rw [day_asWritten, h.kept]
  have hnano := h.nano_lt
  by_cases hinside : nanosPerSecond ≤ t.nano ∧ t.second % 60 ≠ 59
  · rw [asWritten, if_pos hinside] at hkept ⊢
    refine ⟨hkept, by simp only; omega, fun hlong => ?_⟩
    simp only at hlong
    omega
  · rw [asWritten, if_neg hinside] at hkept ⊢
    exact ⟨hkept, hnano, fun hlong => Decidable.not_not.mp fun hne => hinside ⟨hlong, hne⟩⟩

/-- The instants that are the same as their written form tells are the regular ones. -/
theorem asWritten_eq_self_iff {t : Instant} (h : t.InRange) : t.asWritten = t ↔ t.IsRegular :=
  ⟨fun hsame => hsame ▸ isRegular_asWritten h, IsRegular.asWritten_eq⟩

theorem text_asWritten {t : Instant} (h : t.InRange) : t.asWritten.text = t.text := by
  have hday := day_asWritten t
  have hnano := h.nano_lt
  by_cases hinside : nanosPerSecond ≤ t.nano ∧ t.second % 60 ≠ 59
  · obtain ⟨hlong, hlast⟩ := id hinside
    have hshort : ¬ nanosPerSecond ≤ t.nano - nanosPerSecond := by omega
    -- The next second lies in the same minute, so only the seconds of the clock change.
    have hclock : ((t.second + 1) % secondsPerDay).toNat =
        (t.second % secondsPerDay).toNat + 1 := by
      simp only [secondsPerDay]
      omega
    have hminute : ((t.second % secondsPerDay).toNat + 1) / 60 =
        (t.second % secondsPerDay).toNat / 60 := by
      simp only [secondsPerDay]
      omega
    have hhour : ((t.second % secondsPerDay).toNat + 1) / 3600 =
        (t.second % secondsPerDay).toNat / 3600 := by omega
    have hsecond : ((t.second % secondsPerDay).toNat + 1) % 60 =
        (t.second % secondsPerDay).toNat % 60 + 1 := by omega
    rw [asWritten, if_pos hinside] at hday ⊢
    simp only [text, hday, hclock, hhour, hminute, hsecond, hshort, hlong, if_true, if_false,
      Nat.add_zero]
  · rw [asWritten, if_neg hinside]

end Instant

end Discussion
