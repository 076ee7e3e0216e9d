import Discussion.Proofs.Text.Numeral
import Discussion.Settings.Text

/-!
# Lines of TOML read back

A header of a plain name and a plain key with an integer are read back, whatever lines follow.
The reader tries dates and floating point numbers before integers, and all of them begin with
digits; but the digits of an integer end with its line, where the others go on with a mark.
-/

namespace Discussion

namespace Toml

theorem ne_of_kind {kind : Char → Bool} {c d : Char} (hc : kind c = true) (hd : kind d = false) :
    c ≠ d := by
  rintro rfl
  rw [hd] at hc
  cases hc

/-! ## Keys -/

/-- Whether a name can stand as a key without quotation marks. -/
structure IsBare (name : String) : Prop where
  ne_nil : name.toList ≠ []
  isBareKey : ∀ c ∈ name.toList, Toml.isBareKey c = true

instance (name : String) : Decidable (IsBare name) :=
  decidable_of_iff (name.toList ≠ [] ∧ name.toList.all isBareKey = true)
    ⟨fun h => ⟨h.1, List.all_eq_true.mp h.2⟩, fun h => ⟨h.1, List.all_eq_true.mpr h.2⟩⟩

theorem IsBare.exists_cons {name : String} (h : IsBare name) :
    ∃ c cs, name.toList = c :: cs ∧ Toml.isBareKey c = true := by
  obtain ⟨c, cs, hcons⟩ := List.exists_cons_of_ne_nil h.ne_nil
  exact ⟨c, cs, hcons, h.isBareKey c (by rw [hcons]; exact List.mem_cons_self)⟩

/-- A name goes before no text that begins with a mark. -/
theorem IsBare.append_ne_cons {name : String} (h : IsBare name) {mark : Char}
    (hmark : Toml.isBareKey mark = false) (rest more : List Char) :
    name.toList ++ rest ≠ mark :: more := by
  obtain ⟨c, cs, hcons, hc⟩ := h.exists_cons
  rw [hcons, List.cons_append]
  exact fun hsame => ne_of_kind hc hmark (List.cons.inj hsame).1

theorem isInlineBlank_of_isBareKey {c : Char} (h : isBareKey c = true) :
    isInlineBlank c = false := by
  rw [Bool.eq_false_iff]
  intro hblank
  rcases (Bool.or_eq_true _ _).mp hblank with hspace | htab
  · exact ne_of_kind h (by decide) (eq_of_beq hspace)
  · exact ne_of_kind h (by decide) (eq_of_beq htab)

theorem skipInline_of_isBareKey {c : Char} (h : isBareKey c = true) (rest : List Char) :
    skipInline (c :: rest) = c :: rest := by
  rw [skipInline, List.dropWhile_cons_of_neg (by simp [isInlineBlank_of_isBareKey h])]

theorem IsBare.skipInline_append {name : String} (h : IsBare name) (rest : List Char) :
    skipInline (name.toList ++ rest) = name.toList ++ rest := by
  obtain ⟨c, cs, hcons, hc⟩ := h.exists_cons
  rw [hcons, List.cons_append, skipInline_of_isBareKey hc]

theorem readSimpleKey?_bare {name : String} (h : IsBare name) {c : Char}
    (hc : isBareKey c = false) (rest : List Char) :
    readSimpleKey? (name.toList ++ c :: rest) = some (name, c :: rest) := by
  have htake : (name.toList ++ c :: rest).takeWhile isBareKey = name.toList := by
    rw [List.takeWhile_append_of_pos h.isBareKey, List.takeWhile_cons_of_neg (by simp [hc]),
      List.append_nil]
  have hdrop : (name.toList ++ c :: rest).dropWhile isBareKey = c :: rest := by
    rw [List.dropWhile_append_of_pos h.isBareKey, List.dropWhile_cons_of_neg (by simp [hc])]
  have hempty : name.toList.isEmpty = false := by simpa using h.ne_nil
  rw [readSimpleKey?]
  · simp only [htake, hdrop, hempty, Bool.false_eq_true, if_false, String.ofList_toList]
  · exact h.append_ne_cons (by decide) _
  · exact h.append_ne_cons (by decide) _

/-- A plain name is a key of one part, where no full stop follows it. -/
theorem readKey?_bare {name : String} (h : IsBare name) {c : Char} (hc : isBareKey c = false)
    {rest after : List Char} (hafter : skipInline (c :: rest) = after)
    (hstop : ∀ more, after ≠ '.' :: more) :
    readKey? (name.toList ++ c :: rest) = some ([name], after) := by
  rw [readKey?, maxParts, readKeyParts?, h.skipInline_append, readSimpleKey?_bare h hc]
  simp only [Option.bind_eq_bind, Option.bind_some, hafter]
  rfl

/-! ## Integers -/

theorem hexValue?_digitChar {d : Nat} (h : d < 10) : hexValue? (digitChar d) = some d := by
  have hall : ∀ d < 10, hexValue? (digitChar d) = some d := by decide
  exact hall d h

theorem digitsTo_numeral (n : Nat) : digitsTo 10 (numeral n) = n := by
  induction n using Nat.strongRecOn with
  | ind n ih =>
      by_cases hsmall : n < 10
      · simp [numeral_of_lt hsmall, digitsTo, hexValue?_digitChar hsmall]
      · have hinit := ih (n / 10) (by omega)
        rw [digitsTo] at hinit
        rw [numeral_of_le (by omega), digitsTo, List.foldl_append, hinit]
        simp only [List.foldl_cons, List.foldl_nil, hexValue?_digitChar (Nat.mod_lt n (by omega)),
          Option.getD_some]
        exact Nat.div_add_mod n 10

theorem exists_numeral_eq_digit_cons (n : Nat) :
    ∃ c cs, numeral n = c :: cs ∧ Discussion.isDigit c = true := by
  obtain ⟨c, cs, hcons⟩ := List.exists_cons_of_ne_nil (numeral_ne_nil n)
  refine ⟨c, cs, hcons, isDigit_of_mem_numeral (n := n) ?_⟩
  rw [hcons]
  exact List.mem_cons_self

/-- Only the numeral of zero begins with a zero. -/
theorem exists_numeral_eq_cons {n : Nat} (h : n ≠ 0) :
    ∃ c cs, numeral n = c :: cs ∧ c ≠ '0' := by
  induction n using Nat.strongRecOn with
  | ind n ih =>
      by_cases hsmall : n < 10
      · have hall : ∀ n < 10, n ≠ 0 → digitChar n ≠ '0' := by decide
        exact ⟨_, [], numeral_of_lt hsmall, hall n hsmall h⟩
      · obtain ⟨c, cs, hcons, hc⟩ := ih (n / 10) (by omega) (by omega)
        exact ⟨c, cs ++ [digitChar (n % 10)], by rw [numeral_of_le (by omega), hcons]; rfl, hc⟩

theorem readDigits?_append {digits : List Char} (h : ∀ c ∈ digits, Discussion.isDigit c = true)
    (found rest : List Char) (hfound : found ≠ [] ∨ digits ≠ []) :
    readDigits? Discussion.isDigit found (digits ++ '\n' :: rest) =
      some (found.reverse ++ digits, '\n' :: rest) := by
  induction digits generalizing found with
  | nil =>
      have hempty : found.isEmpty = false := by simpa using hfound
      rw [List.nil_append, readDigits?]
      · simp [hempty, Discussion.isDigit, digitValue?]
      · simp
  | cons d digits ih =>
      have hd : Discussion.isDigit d = true := h d List.mem_cons_self
      have hmark : d ≠ '_' := ne_of_kind hd (by decide)
      have hrest := ih (fun c hc => h c (List.mem_cons_of_mem d hc)) (d :: found) (by simp)
      rw [List.cons_append, readDigits?]
      · rw [if_pos hd, hrest]
        simp
      · intro c more hsame
        exact absurd hsame hmark

theorem readWhole?_numeral (n : Nat) (rest : List Char) :
    readWhole? (numeral n ++ '\n' :: rest) = some (numeral n, '\n' :: rest) := by
  by_cases hzero : n = 0
  · subst hzero
    rw [numeral_of_lt (by decide)]
    rfl
  · obtain ⟨c, cs, hcons, hc⟩ := exists_numeral_eq_cons hzero
    rw [readWhole?]
    · rw [readDigits?_append (fun c hc => isDigit_of_mem_numeral hc) [] rest
        (Or.inr (numeral_ne_nil n))]
      rfl
    · intro more hmore
      rw [hcons] at hmore
      exact hc (List.cons.inj hmore).1

/-- The numeral of an integer: a minus sign below zero, then digits. -/
theorem toList_signedDecimal (i : Int) :
    (signedDecimal i).toList = (if i < 0 then ['-'] else []) ++ numeral i.natAbs := by
  rw [signedDecimal]
  split
  · rw [String.toList_append, decimal, String.toList_ofList]
    simp
  · rw [decimal, String.toList_ofList]
    simp

theorem readSign_numeral (n : Nat) (rest : List Char) :
    readSign (numeral n ++ rest) = (false, numeral n ++ rest) := by
  obtain ⟨c, cs, hcons, hc⟩ := exists_numeral_eq_digit_cons n
  rw [hcons, List.cons_append, readSign]
  · exact fun _ hsame => ne_of_kind hc (by decide) (List.cons.inj hsame).1
  · exact fun _ hsame => ne_of_kind hc (by decide) (List.cons.inj hsame).1

theorem readSign_signedDecimal (i : Int) (rest : List Char) :
    readSign ((signedDecimal i).toList ++ rest) = (decide (i < 0), numeral i.natAbs ++ rest) := by
  rw [toList_signedDecimal]
  by_cases hneg : i < 0
  · rw [if_pos hneg, decide_eq_true hneg]
    rfl
  · rw [if_neg hneg, decide_eq_false hneg]
    exact readSign_numeral _ _

/-! ## Dates and floating point numbers -/

theorem isDigit_of_digitsValue? {cs : List Char} {value n : Nat}
    (h : cs.foldlM (fun value c => (digitValue? c).map (10 * value + ·)) value = some n) :
    ∀ c ∈ cs, Discussion.isDigit c = true := by
  induction cs generalizing value with
  | nil => simp
  | cons d cs ih =>
      rw [List.foldlM_cons] at h
      cases hd : digitValue? d with
      | none => simp [hd] at h
      | some v =>
          rw [hd] at h
          rw [List.forall_mem_cons]
          exact ⟨by rw [Discussion.isDigit, hd]; rfl, ih h⟩

/-- After a number of fixed length there is no mark in a line of digits. -/
theorem readMark?_of_readFixed? {digits rest after : List Char} {width low high n : Nat}
    {mark : Char} (hdigits : ∀ c ∈ digits, Discussion.isDigit c = true)
    (hmark : Discussion.isDigit mark = false) (hend : mark ≠ '\n')
    (h : readFixed? width low high (digits ++ '\n' :: rest) = some (n, after)) :
    readMark? mark after = none := by
  rw [readFixed?] at h
  obtain ⟨value, hvalue, h⟩ := Option.bind_eq_some_iff.mp h
  have hall := isDigit_of_digitsValue? hvalue
  -- The number does not go beyond the line, whose end is no digit.
  have hshort : width ≤ digits.length := by
    by_contra hlong
    refine absurd (hall '\n' ?_) (by decide)
    rw [List.take_append, List.mem_append]
    right
    rw [show width - digits.length = (width - digits.length - 1) + 1 by omega, List.take_succ_cons]
    exact List.mem_cons_self
  split at h
  · obtain ⟨-, rfl⟩ := Prod.mk.inj (Option.some.inj h)
    rw [List.drop_append_of_le_length hshort]
    cases hdrop : digits.drop width with
    | nil => exact if_neg (Ne.symm hend)
    | cons d others =>
        have hd : Discussion.isDigit d = true :=
          hdigits d (List.mem_of_mem_drop (by rw [hdrop]; exact List.mem_cons_self))
        exact if_neg (ne_of_kind hd hmark)
  · cases h

theorem readDate?_digits {digits : List Char} (h : ∀ c ∈ digits, Discussion.isDigit c = true)
    (rest : List Char) : readDate? (digits ++ '\n' :: rest) = none := by
  have hdate : readFullDate? (digits ++ '\n' :: rest) = none := by
    rw [readFullDate?]
    cases hyear : readFixed? 4 0 9999 (digits ++ '\n' :: rest) with
    | none => rfl
    | some year =>
        have hmark : readMark? '-' year.2 = none :=
          readMark?_of_readFixed? h (by decide) (by decide) hyear
        simp only [Option.bind_eq_bind, Option.bind_some, hmark, Option.bind_none]
  have htime : readTimeOfDay? (digits ++ '\n' :: rest) = none := by
    rw [readTimeOfDay?]
    cases hhour : readFixed? 2 0 23 (digits ++ '\n' :: rest) with
    | none => rfl
    | some hour =>
        have hmark : readMark? ':' hour.2 = none :=
          readMark?_of_readFixed? h (by decide) (by decide) hhour
        simp only [Option.bind_eq_bind, Option.bind_some, hmark, Option.bind_none]
  rw [readDate?, hdate, htime]
  rfl

theorem readDate?_minus (rest : List Char) : readDate? ('-' :: rest) = none := rfl

theorem readDate?_signedDecimal (i : Int) (rest : List Char) :
    readDate? ((signedDecimal i).toList ++ '\n' :: rest) = none := by
  rw [toList_signedDecimal]
  by_cases hneg : i < 0
  · rw [if_pos hneg]
    exact readDate?_minus _
  · rw [if_neg hneg]
    exact readDate?_digits (fun c hc => isDigit_of_mem_numeral hc) rest

theorem readFloat?_signedDecimal (i : Int) (rest : List Char) :
    readFloat? ((signedDecimal i).toList ++ '\n' :: rest) = none := by
  have hplain : readPlainFloat? ((signedDecimal i).toList ++ '\n' :: rest) = none := by
    rw [readPlainFloat?, readSign_signedDecimal]
    simp only [Option.bind_eq_bind, readWhole?_numeral, Option.bind_some]
    rfl
  have hspecial : readSpecialFloat? ((signedDecimal i).toList ++ '\n' :: rest) = none := by
    obtain ⟨c, cs, hcons, hc⟩ := exists_numeral_eq_digit_cons i.natAbs
    have hi : 'i' ≠ c := (ne_of_kind hc (by decide)).symm
    have hn : 'n' ≠ c := (ne_of_kind hc (by decide)).symm
    rw [readSpecialFloat?, readSign_signedDecimal, hcons]
    simp [dropWord?, hi, hn]
  rw [readFloat?, hplain, hspecial]
  rfl

/-! ## Values -/

/-- The text of an integer in a line does not begin as one to another base does. -/
theorem signedDecimal_ne_based (i : Int) (rest : List Char) {c : Char} (hc : c ≠ '\n')
    (more : List Char) : (signedDecimal i).toList ++ '\n' :: rest ≠ '0' :: c :: more := by
  rw [toList_signedDecimal]
  by_cases hneg : i < 0
  · rw [if_pos hneg]
    simp
  · rw [if_neg hneg]
    by_cases hzero : i.natAbs = 0
    · rw [hzero, numeral_of_lt (by decide)]
      intro hsame
      exact hc (List.cons.inj (List.cons.inj hsame).2).1.symm
    · obtain ⟨d, ds, hcons, hd⟩ := exists_numeral_eq_cons hzero
      rw [hcons]
      intro hsame
      exact hd (List.cons.inj hsame).1

theorem readInteger?_signedDecimal {i : Int} (h : fitsSignedWord i) (rest : List Char) :
    readInteger? ((signedDecimal i).toList ++ '\n' :: rest) = some (i, '\n' :: rest) := by
  have hvalue : (if decide (i < 0) = true then -(i.natAbs : Int) else i.natAbs) = i := by
    simp only [decide_eq_true_eq]
    omega
  unfold readInteger?
  split
  · next hbased => exact absurd hbased (signedDecimal_ne_based i rest (by decide) _)
  · next hbased => exact absurd hbased (signedDecimal_ne_based i rest (by decide) _)
  · next hbased => exact absurd hbased (signedDecimal_ne_based i rest (by decide) _)
  · rw [readSign_signedDecimal]
    simp only [Option.bind_eq_bind, readWhole?_numeral, Option.bind_some, digitsTo_numeral, hvalue,
      wordOrNone, h, if_true]

theorem readNumber?_signedDecimal {i : Int} (h : fitsSignedWord i) (rest : List Char) :
    readNumber? ((signedDecimal i).toList ++ '\n' :: rest) = some (.integer i, '\n' :: rest) := by
  rw [readNumber?, readDate?_signedDecimal, readFloat?_signedDecimal, readInteger?_signedDecimal h]
  rfl

/-- The text of an integer begins with a minus sign or a digit. -/
theorem exists_signedDecimal_eq_cons (i : Int) :
    ∃ c cs, (signedDecimal i).toList = c :: cs ∧ (c = '-' ∨ Discussion.isDigit c = true) := by
  rw [toList_signedDecimal]
  by_cases hneg : i < 0
  · exact ⟨'-', numeral i.natAbs, by rw [if_pos hneg]; rfl, Or.inl rfl⟩
  · obtain ⟨c, cs, hcons, hc⟩ := exists_numeral_eq_digit_cons i.natAbs
    exact ⟨c, cs, by rw [if_neg hneg, hcons]; rfl, Or.inr hc⟩

theorem readValue?_signedDecimal {i : Int} (h : fitsSignedWord i) (steps room : Nat)
    (rest : List Char) :
    readValue? (steps + 1) room ((signedDecimal i).toList ++ '\n' :: rest) =
      some (.integer i, '\n' :: rest) := by
  have hnumber := readNumber?_signedDecimal h rest
  obtain ⟨c, cs, hcons, hc⟩ := exists_signedDecimal_eq_cons i
  have hother : ∀ d, d ≠ '-' → Discussion.isDigit d = false → c ≠ d := by
    rintro d hminus hdigit rfl
    rcases hc with rfl | hc
    · exact hminus rfl
    · exact ne_of_kind hc hdigit rfl
  have hscalar : readScalar? (c :: (cs ++ '\n' :: rest)) = some (.integer i, '\n' :: rest) := by
    rw [hcons] at hnumber
    rw [readScalar?, if_neg, if_neg (hother 't' (by decide) (by decide)),
      if_neg (hother 'f' (by decide) (by decide))]
    · exact hnumber
    · rintro (rfl | rfl)
      · exact hother _ (by decide) (by decide) rfl
      · exact hother _ (by decide) (by decide) rfl
  rw [hcons, List.cons_append, readValue?]
  · exact hscalar
  · exact fun _ _ hsame _ => hother '[' (by decide) (by decide) (List.cons.inj hsame).1
  · exact fun _ _ hsame _ => hother '\x7b' (by decide) (by decide) (List.cons.inj hsame).1
  · exact fun _ hsame _ => hother '[' (by decide) (by decide) (List.cons.inj hsame).1
  · exact fun _ hsame _ => hother '\x7b' (by decide) (by decide) (List.cons.inj hsame).1

/-! ## Lines -/

theorem endOfLine?_newLine (rest : List Char) : endOfLine? ('\n' :: rest) = some rest := rfl

/-- The characters of a line of a key with an integer. -/
theorem toList_line (key : String) (i : Int) :
    (Settings.line key (signedDecimal i)).toList =
      key.toList ++ ' ' :: '=' :: ' ' :: ((signedDecimal i).toList ++ ['\n']) := by
  simp [Settings.line]

theorem readLine?_line {key : String} (hkey : IsBare key) {i : Int} (hi : fitsSignedWord i)
    (rest : List Char) :
    readLine? ((Settings.line key (signedDecimal i)).toList ++ rest) =
      some ([], key, .integer i, rest) := by
  have htext : (Settings.line key (signedDecimal i)).toList ++ rest =
      key.toList ++ ' ' :: '=' :: ' ' :: ((signedDecimal i).toList ++ '\n' :: rest) := by
    simp [toList_line]
  have hread : readKey? (key.toList ++ ' ' :: '=' :: ' ' ::
      ((signedDecimal i).toList ++ '\n' :: rest)) =
      some ([key], '=' :: ' ' :: ((signedDecimal i).toList ++ '\n' :: rest)) :=
    readKey?_bare hkey (by decide) rfl (by simp)
  have hskip : skipInline (' ' :: ((signedDecimal i).toList ++ '\n' :: rest)) =
      (signedDecimal i).toList ++ '\n' :: rest := by
    obtain ⟨c, cs, hcons, hc⟩ := exists_signedDecimal_eq_cons i
    have hbare : isBareKey c = true := by
      rcases hc with rfl | hdigit
      · decide
      · simp [isBareKey, hdigit]
    rw [hcons]
    exact skipInline_of_isBareKey hbare _
  obtain ⟨steps, hsteps⟩ : ∃ steps, ((Settings.line key (signedDecimal i)).toList ++ rest).length =
      steps + 1 := by
    refine Nat.exists_eq_succ_of_ne_zero ?_
    simp [toList_line]
  rw [readLine?, hsteps, htext, hread]
  simp only [Option.bind_eq_bind, Option.bind_some, splitKey?, readMark?, if_true, hskip,
    readValue?_signedDecimal hi, endOfLine?_newLine]
  rfl

/-- A line that begins neither with a blank nor as a header does. -/
theorem readLines?_cons {c : Char} (hblank : isInlineBlank c = false) (hheader : c ≠ '[')
    (steps : Nat) (header : List String) (entries : Entries) (rest : List Char) :
    readLines? (steps + 1) header entries (c :: rest) =
      if c = '#' ∨ c = '\n' ∨ c = '\r' then
        (endOfLine? (c :: rest)).bind fun rest => readLines? steps header entries rest
      else
        (readLine? (c :: rest)).bind fun (path, key, v, rest) =>
          (entries.addWithin header path key v).bind fun entries =>
            readLines? steps header entries rest := by
  have hskip : skipInline (c :: rest) = c :: rest := by
    rw [skipInline, List.dropWhile_cons_of_neg (by simp [hblank])]
  rw [readLines?, hskip]
  split
  · next hnil => cases hnil
  · next hsame => exact absurd (List.cons.inj hsame).1 hheader
  · next hsame => exact absurd (List.cons.inj hsame).1 hheader
  · next hsame =>
      obtain ⟨rfl, rfl⟩ := List.cons.inj hsame
      rfl

/-- A line of a key with an integer adds it to the table of the header before. -/
theorem readLines?_line {key : String} (hkey : IsBare key) {i : Int} (hi : fitsSignedWord i)
    (steps : Nat) (header : List String) (entries : Entries) (rest : List Char) :
    readLines? (steps + 1) header entries ((Settings.line key (signedDecimal i)).toList ++ rest) =
      (entries.addWithin header [] key (.integer i)).bind fun entries =>
        readLines? steps header entries rest := by
  have hread := readLine?_line hkey hi rest
  obtain ⟨c, cs, hcons, hc⟩ := hkey.exists_cons
  have hnot : ¬ (c = '#' ∨ c = '\n' ∨ c = '\r') := by
    rintro (h | h | h)
    · exact ne_of_kind hc (by decide) h
    · exact ne_of_kind hc (by decide) h
    · exact ne_of_kind hc (by decide) h
  rw [toList_line, hcons, List.cons_append, List.cons_append] at hread ⊢
  rw [readLines?_cons (isInlineBlank_of_isBareKey hc) (ne_of_kind hc (by decide)), if_neg hnot,
    hread]
  rfl

/-- An empty line adds nothing. -/
theorem readLines?_empty (steps : Nat) (header : List String) (entries : Entries)
    (rest : List Char) :
    readLines? (steps + 1) header entries ('\n' :: rest) =
      readLines? steps header entries rest := by
  rw [readLines?_cons (by decide) (by decide), if_pos (Or.inr (Or.inl rfl)), endOfLine?_newLine]
  rfl

/-- A header of a plain name opens its table. -/
theorem readLines?_header {name : String} (h : IsBare name) (steps : Nat) (header : List String)
    (entries : Entries) (rest : List Char) :
    readLines? (steps + 1) header entries ('[' :: (name.toList ++ ']' :: '\n' :: rest)) =
      (entries.openTable [] name).bind fun entries => readLines? steps [name] entries rest := by
  have hread : readHeader? [']'] (name.toList ++ ']' :: '\n' :: rest) = some ([], name, rest) := by
    have hkey : readKey? (name.toList ++ ']' :: '\n' :: rest) =
        some ([name], ']' :: '\n' :: rest) := readKey?_bare h (by decide) rfl (by simp)
    rw [readHeader?, hkey]
    rfl
  have hskip : skipInline ('[' :: (name.toList ++ ']' :: '\n' :: rest)) =
      '[' :: (name.toList ++ ']' :: '\n' :: rest) := rfl
  rw [readLines?, hskip]
  split
  · next hnil => cases hnil
  · next hsame => exact absurd (List.cons.inj hsame).2 (h.append_ne_cons (by decide) _ _)
  · next hsame =>
      obtain ⟨-, rfl⟩ := List.cons.inj hsame
      rw [hread]
      rfl
  · next hother hsame => exact absurd (List.cons.inj hsame).1.symm hother

/-! ## Tables -/

/-- The lines of some keys with integers. -/
def fieldLines (fields : List (String × Int)) : List Char :=
  fields.flatMap fun field => (Settings.line field.1 (signedDecimal field.2)).toList

/-- The lines of the header of a table and its keys. -/
def tableLines (name : String) (fields : List (String × Int)) : List Char :=
  '[' :: (name.toList ++ ']' :: '\n' :: fieldLines fields)

/-- Adds integers for keys to the table of a header. -/
def Entries.addFields (entries : Entries) (header : List String) (fields : List (String × Int)) :
    Option Entries :=
  fields.foldlM (fun entries field => entries.addWithin header [] field.1 (.integer field.2))
    entries

/-- Fields with plain keys, whose values are integers of TOML. -/
def AreFields (fields : List (String × Int)) : Prop :=
  ∀ field ∈ fields, IsBare field.1 ∧ fitsSignedWord field.2

/-- The lines of some keys are read one after the other. -/
theorem readLines?_fieldLines {fields : List (String × Int)} (h : AreFields fields) (steps : Nat)
    (header : List String) (entries : Entries) (rest : List Char) :
    readLines? (steps + fields.length) header entries (fieldLines fields ++ rest) =
      (entries.addFields header fields).bind fun entries =>
        readLines? steps header entries rest := by
  induction fields generalizing entries with
  | nil => rfl
  | cons field fields ih =>
      obtain ⟨⟨hkey, hvalue⟩, hfields⟩ := List.forall_mem_cons.mp h
      have hlines : fieldLines (field :: fields) ++ rest =
          (Settings.line field.1 (signedDecimal field.2)).toList ++
            (fieldLines fields ++ rest) := by
        simp [fieldLines]
      rw [hlines, List.length_cons, ← Nat.add_assoc, readLines?_line hkey hvalue,
        Entries.addFields, List.foldlM_cons]
      cases hadded : entries.addWithin header [] field.1 (.integer field.2) with
      | none => rfl
      | some added => exact ih hfields added

/-- So are the lines of a table. -/
theorem readLines?_tableLines {name : String} (hname : IsBare name) {fields : List (String × Int)}
    (h : AreFields fields) (steps : Nat) (header : List String) (entries : Entries)
    (rest : List Char) :
    readLines? (steps + fields.length + 1) header entries (tableLines name fields ++ rest) =
      ((entries.openTable [] name).bind (·.addFields [name] fields)).bind fun entries =>
        readLines? steps [name] entries rest := by
  have hlines : tableLines name fields ++ rest =
      '[' :: (name.toList ++ ']' :: '\n' :: (fieldLines fields ++ rest)) := by
    simp [tableLines]
  rw [hlines, readLines?_header hname]
  cases entries.openTable [] name with
  | none => rfl
  | some opened => exact readLines?_fieldLines h steps [name] opened rest

end Toml

end Discussion
