import Discussion.Proofs.Json.Reading

/-!
# Laid out values read back

The compact and the indented text differ in the blanks between their tokens only.  A layout
says which blanks these are, and a value is read back from its text in every layout.
-/

namespace Discussion

namespace Json

/-! ## Layouts -/

/-- The blanks that a text has before the first and after each item or member, by the level of
its indentation, and after the colon of a member. -/
structure Layout where
  gap : Nat → List Char
  afterColon : List Char
  isSpace_of_mem_gap : ∀ level, ∀ c ∈ gap level, isSpace c = true
  isSpace_of_mem_afterColon : ∀ c ∈ afterColon, isSpace c = true

mutual

/-- The text of a value in a layout. -/
def writeLaid (layout : Layout) (level : Nat) : Json → List Char → List Char
  | .array [], rest => '[' :: ']' :: rest
  | .array (item :: items), rest =>
      '[' :: (layout.gap (level + 1) ++ writeLaid layout (level + 1) item
        (writeLaidItems layout (level + 1) items (layout.gap level ++ ']' :: rest)))
  | .object [], rest => '\x7b' :: '\x7d' :: rest
  | .object ((key, value) :: members), rest =>
      '\x7b' :: (layout.gap (level + 1) ++ writeString key (':' :: (layout.afterColon ++
        writeLaid layout (level + 1) value
          (writeLaidMembers layout (level + 1) members (layout.gap level ++ '\x7d' :: rest)))))
  | scalar, rest => writeScalar scalar rest

/-- The items of an array after its first, each after a comma. -/
def writeLaidItems (layout : Layout) (level : Nat) : List Json → List Char → List Char
  | [], rest => rest
  | item :: items, rest =>
      ',' :: (layout.gap level ++ writeLaid layout level item
        (writeLaidItems layout level items rest))

/-- The members of an object after its first, each after a comma. -/
def writeLaidMembers (layout : Layout) (level : Nat) :
    List (Option String × Json) → List Char → List Char
  | [], rest => rest
  | (key, value) :: members, rest =>
      ',' :: (layout.gap level ++ writeString key (':' :: (layout.afterColon ++
        writeLaid layout level value (writeLaidMembers layout level members rest))))

end

/-- Every item and member on a line of its own. -/
def Layout.indented : Layout where
  gap level := '\n' :: List.replicate (2 * level) ' '
  afterColon := [' ']
  isSpace_of_mem_gap := by
    intro level c hc
    rcases List.mem_cons.mp hc with rfl | hc
    · rfl
    · rw [List.eq_of_mem_replicate hc]
      rfl
  isSpace_of_mem_afterColon := by simp [isSpace]

/-- No blanks at all. -/
def Layout.tight : Layout where
  gap _ := []
  afterColon := []
  isSpace_of_mem_gap := by simp
  isSpace_of_mem_afterColon := by simp

mutual

theorem writePretty_eq (level : Nat) (value : Json) (rest : List Char) :
    writePretty level value rest = writeLaid .indented level value rest := by
  match value with
  | .null | .bool _ | .integer _ | .decimal _ _ _ | .string _ => rfl
  | .array [] | .object [] => rfl
  | .array (item :: items) =>
      rw [writePretty, writeLaid, writePretty_eq (level + 1) item,
        writePrettyItems_eq (level + 1) items]
      rfl
  | .object ((key, member) :: members) =>
      rw [writePretty, writeLaid, writePretty_eq (level + 1) member,
        writePrettyMembers_eq (level + 1) members]
      rfl

theorem writePrettyItems_eq (level : Nat) (items : List Json) (rest : List Char) :
    writePrettyItems level items rest = writeLaidItems .indented level items rest := by
  match items with
  | [] => rfl
  | item :: items =>
      rw [writePrettyItems, writeLaidItems, writePretty_eq level item,
        writePrettyItems_eq level items]
      rfl

theorem writePrettyMembers_eq (level : Nat) (members : List (Option String × Json))
    (rest : List Char) :
    writePrettyMembers level members rest = writeLaidMembers .indented level members rest := by
  match members with
  | [] => rfl
  | (key, member) :: members =>
      rw [writePrettyMembers, writeLaidMembers, writePretty_eq level member,
        writePrettyMembers_eq level members]
      rfl

end

mutual

theorem writeCompact_eq (level : Nat) (value : Json) (rest : List Char) :
    writeCompact value rest = writeLaid .tight level value rest := by
  match value with
  | .null | .bool _ | .integer _ | .decimal _ _ _ | .string _ => rfl
  | .array [] | .object [] => rfl
  | .array (item :: items) =>
      rw [writeCompact, writeLaid, writeCompact_eq (level + 1) item,
        writeCompactItems_eq (level + 1) items]
      rfl
  | .object ((key, member) :: members) =>
      rw [writeCompact, writeLaid, writeCompact_eq (level + 1) member,
        writeCompactMembers_eq (level + 1) members]
      rfl

theorem writeCompactItems_eq (level : Nat) (items : List Json) (rest : List Char) :
    writeCompactItems items rest = writeLaidItems .tight level items rest := by
  match items with
  | [] => rfl
  | item :: items =>
      rw [writeCompactItems, writeLaidItems, writeCompact_eq level item,
        writeCompactItems_eq level items]
      rfl

theorem writeCompactMembers_eq (level : Nat) (members : List (Option String × Json))
    (rest : List Char) :
    writeCompactMembers members rest = writeLaidMembers .tight level members rest := by
  match members with
  | [] => rfl
  | (key, member) :: members =>
      rw [writeCompactMembers, writeLaidMembers, writeCompact_eq level member,
        writeCompactMembers_eq level members]
      rfl

end

/-! ## Values that are read -/

mutual

/-- Whether a value is one that readers can tell from every other: its integers fit a word,
and all its strings are known. -/
def IsPlain : Json → Prop
  | .null => True
  | .bool _ => True
  | .integer i => IsWordSized i
  | .decimal _ _ _ => False
  | .string s => s.isSome
  | .array items => ArePlain items
  | .object members => AreMembersPlain members

/-- Whether every value of a list is plain. -/
def ArePlain : List Json → Prop
  | [] => True
  | item :: items => item.IsPlain ∧ ArePlain items

/-- Whether every member of an object is plain, and its key is known. -/
def AreMembersPlain : List (Option String × Json) → Prop
  | [] => True
  | (key, value) :: members => key.isSome ∧ value.IsPlain ∧ AreMembersPlain members

end

theorem readOn_word {stack : List Frame} {value : Json} {first next : Char} (others : List Char)
    (hfirst : (⟨stack, .value⟩ : ReaderState).step? (some first) =
      some ⟨stack, .word (next :: others) value⟩) (rest : List Char) :
    readOn ⟨stack, .value⟩ (first :: next :: (others ++ rest)) =
      readOn ⟨stack, .after value⟩ rest := by
  rw [readOn_cons hfirst]
  clear hfirst
  induction others generalizing next with
  | nil => exact readOn_cons (by simp [ReaderState.step?, ReaderState.stepOutside?]) rest
  | cons third others ih =>
      have hstep : (⟨stack, .word (next :: third :: others) value⟩ : ReaderState).step?
          (some next) = some ⟨stack, .word (third :: others) value⟩ := by
        simp [ReaderState.step?, ReaderState.stepOutside?]
      rw [readOn_cons hstep, List.cons_append]
      exact ih

/-- A value that is no integer, or what ends one, follows. -/
def EndsValue (value : Json) (rest : List Char) : Prop :=
  ∀ i, value = .integer i → EndsNumeral rest

section Reading

variable (layout : Layout)

theorem endsNumeral_gap (level : Nat) {c : Char} (hc : FollowsValue c) (rest : List Char) :
    EndsNumeral (layout.gap level ++ c :: rest) := by
  have hblanks := layout.isSpace_of_mem_gap level
  cases hgap : layout.gap level with
  | nil => exact ⟨c, rest, rfl, hc⟩
  | cons blank blanks =>
      rw [hgap] at hblanks
      exact ⟨blank, _, rfl, Or.inr (hblanks blank (by simp))⟩

theorem endsNumeral_items (level outer : Nat) (items : List Json) (rest : List Char) :
    EndsNumeral (writeLaidItems layout level items (layout.gap outer ++ ']' :: rest)) := by
  cases items with
  | nil => exact endsNumeral_gap layout outer (Or.inl (by simp)) rest
  | cons item items => exact ⟨',', _, rfl, Or.inl (by simp)⟩

theorem endsNumeral_members (level outer : Nat) (members : List (Option String × Json))
    (rest : List Char) :
    EndsNumeral (writeLaidMembers layout level members (layout.gap outer ++ '\x7d' :: rest)) := by
  cases members with
  | nil => exact endsNumeral_gap layout outer (Or.inl (by simp)) rest
  | cons member members => exact ⟨',', _, rfl, Or.inl (by simp)⟩

theorem readOn_gap {state : ReaderState} (h : SkipsSpaces state) (level : Nat)
    (rest : List Char) : readOn state (layout.gap level ++ rest) = readOn state rest :=
  readOn_spaces h (layout.isSpace_of_mem_gap level) rest

/-- The text of a value begins with neither a blank nor the end of an array. -/
theorem writeLaid_eq_cons {value : Json} (h : value.IsPlain) (level : Nat) (rest : List Char) :
    ∃ c cs, writeLaid layout level value rest = c :: cs ∧ c ≠ ']' ∧ isSpace c = false := by
  match value, h with
  | .null, _ => exact ⟨'n', _, rfl, by decide, rfl⟩
  | .bool true, _ => exact ⟨'t', _, rfl, by decide, rfl⟩
  | .bool false, _ => exact ⟨'f', _, rfl, by decide, rfl⟩
  | .integer i, _ =>
      have htext : ∃ c cs, (signedDecimal i).toList = c :: cs ∧ (c = '-' ∨ isDigit c = true) := by
        by_cases hneg : i < 0
        · exact ⟨'-', numeral i.natAbs,
            by simp [signedDecimal, hneg, Discussion.decimal, String.toList_append], Or.inl rfl⟩
        · obtain ⟨c, cs, hcs⟩ := List.exists_cons_of_ne_nil (numeral_ne_nil i.natAbs)
          refine ⟨c, cs, by simp [signedDecimal, hneg, Discussion.decimal, hcs], Or.inr ?_⟩
          exact isDigit_of_mem_numeral (n := i.natAbs) (by simp [hcs])
      obtain ⟨c, cs, hcs, hc⟩ := htext
      have hother : ∀ x ∈ [']', ' ', '\n', '\t', '\r'], c ≠ x := by
        have hnone : ∀ x ∈ [']', ' ', '\n', '\t', '\r'], ¬ (x = '-' ∨ isDigit x = true) := by
          simp only [List.forall_mem_cons, List.not_mem_nil, false_implies, implies_true, and_true]
          decide
        rintro x hx rfl
        exact hnone c hx hc
      refine ⟨c, cs ++ rest, ?_, hother ']' (by simp), ?_⟩
      · change (signedDecimal i).toList ++ rest = _
        rw [hcs, List.cons_append]
      · simp [isSpace, hother]
  | .string (some s), _ => exact ⟨'"', _, rfl, by decide, rfl⟩
  | .array [], _ => exact ⟨'[', _, rfl, by decide, rfl⟩
  | .array (item :: items), _ => exact ⟨'[', _, rfl, by decide, rfl⟩
  | .object [], _ => exact ⟨'\x7b', _, rfl, by decide, rfl⟩
  | .object ((key, value) :: members), _ => exact ⟨'\x7b', _, rfl, by decide, rfl⟩

/-- The first item of an array is read like any other. -/
theorem readOn_firstItem {value : Json} (h : value.IsPlain) (stack : List Frame) (level : Nat)
    (rest : List Char) :
    readOn ⟨stack, .firstItem⟩ (writeLaid layout level value rest) =
      readOn ⟨stack, .value⟩ (writeLaid layout level value rest) := by
  obtain ⟨c, cs, hcs, hend, hspace⟩ := writeLaid_eq_cons layout h level rest
  have hsame : (⟨stack, .firstItem⟩ : ReaderState).step? (some c) =
      (⟨stack, .value⟩ : ReaderState).step? (some c) := by
    simp [ReaderState.step?, ReaderState.stepOutside?, hend, hspace]
  rw [hcs, readOn, readOn, List.foldlM_cons, List.foldlM_cons, hsame]

/-- A key and the colon after it lead to the value of a member. -/
theorem readOn_memberKey {mode : Mode} {reversed : List (Option String × Json)}
    {stack : List Frame}
    (hmode : (⟨.object reversed :: stack, mode⟩ : ReaderState).step? (some '"') =
      some ⟨.object reversed :: stack, .key (knownString [])⟩)
    (key : String) (rest : List Char) :
    readOn ⟨.object reversed :: stack, mode⟩
        (writeString (some key) (':' :: (layout.afterColon ++ rest))) =
      readOn ⟨.member reversed (some key) :: stack, .value⟩ rest := by
  have hcolon : (⟨.object reversed :: stack, .colon (some key)⟩ : ReaderState).step? (some ':') =
      some ⟨.member reversed (some key) :: stack, .value⟩ := rfl
  rw [writeString, readOn_cons hmode, readOn_key, readOn_cons hcolon,
    readOn_spaces (skipsSpaces_value _) layout.isSpace_of_mem_afterColon]

mutual

/-- A plain value is read back from its text, whatever is open around it. -/
theorem readOn_writeLaid (value : Json) (h : value.IsPlain) (stack : List Frame) (level : Nat)
    (rest : List Char) (hrest : EndsValue value rest) :
    readOn ⟨stack, .value⟩ (writeLaid layout level value rest) =
      readOn ⟨stack, .after value⟩ rest := by
  match value, h with
  | .null, _ => exact readOn_word ['l', 'l'] rfl rest
  | .bool true, _ => exact readOn_word ['u', 'e'] rfl rest
  | .bool false, _ => exact readOn_word ['l', 's', 'e'] rfl rest
  | .integer i, h =>
      obtain ⟨n, hplace, hvalue, hread⟩ := readOn_integer h stack
      change readOn _ ((signedDecimal i).toList ++ rest) = _
      rw [readOn_append hread, readOn_number hplace hvalue stack (hrest i rfl)]
  | .string (some s), _ =>
      have hquote : (⟨stack, .value⟩ : ReaderState).step? (some '"') =
          some ⟨stack, .string (knownString [])⟩ := rfl
      change readOn _ ('"' :: s.toList.foldr writeChar ('"' :: rest)) = _
      rw [readOn_cons hquote, readOn_string]
      rfl
  | .array [], _ =>
      have hopen : (⟨stack, .value⟩ : ReaderState).step? (some '[') =
          some ⟨.array [] :: stack, .firstItem⟩ := rfl
      have hclose : (⟨.array [] :: stack, .firstItem⟩ : ReaderState).step? (some ']') =
          some ⟨stack, .after (.array [])⟩ := rfl
      exact (readOn_cons hopen _).trans (readOn_cons hclose rest)
  | .array (item :: items), ⟨hitem, hitems⟩ =>
      have hopen : (⟨stack, .value⟩ : ReaderState).step? (some '[') =
          some ⟨.array [] :: stack, .firstItem⟩ := rfl
      rw [writeLaid, readOn_cons hopen, readOn_gap layout (skipsSpaces_firstItem _),
        readOn_firstItem layout hitem, readOn_writeLaid item hitem _ _ _
          (fun _ _ => endsNumeral_items layout _ _ _ _), readOn_items items hitems]
      rfl
  | .object [], _ =>
      have hopen : (⟨stack, .value⟩ : ReaderState).step? (some '\x7b') =
          some ⟨.object [] :: stack, .firstKey⟩ := rfl
      have hclose : (⟨.object [] :: stack, .firstKey⟩ : ReaderState).step? (some '\x7d') =
          some ⟨stack, .after (.object [])⟩ := rfl
      exact (readOn_cons hopen _).trans (readOn_cons hclose rest)
  | .object ((some key, member) :: members), ⟨_, hmember, hmembers⟩ =>
      have hopen : (⟨stack, .value⟩ : ReaderState).step? (some '\x7b') =
          some ⟨.object [] :: stack, .firstKey⟩ := rfl
      rw [writeLaid, readOn_cons hopen, readOn_gap layout (skipsSpaces_firstKey _),
        readOn_memberKey layout rfl, readOn_writeLaid member hmember _ _ _
          (fun _ _ => endsNumeral_members layout _ _ _ _), readOn_members members hmembers]
      rfl

/-- The items after one that has been read are read up to the end of their array. -/
theorem readOn_items (items : List Json) (h : ArePlain items) (reversed : List Json)
    (value : Json) (stack : List Frame) (level outer : Nat) (rest : List Char) :
    readOn ⟨.array reversed :: stack, .after value⟩
        (writeLaidItems layout level items (layout.gap outer ++ ']' :: rest)) =
      readOn ⟨stack, .after (.array ((value :: reversed).reverse ++ items))⟩ rest := by
  match items, h with
  | [], _ =>
      have hclose : (⟨.array reversed :: stack, .after value⟩ : ReaderState).step? (some ']') =
          some ⟨stack, .after (.array (value :: reversed).reverse)⟩ := rfl
      rw [writeLaidItems, readOn_gap layout (skipsSpaces_after _ _), readOn_cons hclose,
        List.append_nil]
  | item :: items, ⟨hitem, hitems⟩ =>
      have hcomma : (⟨.array reversed :: stack, .after value⟩ : ReaderState).step? (some ',') =
          some ⟨.array (value :: reversed) :: stack, .value⟩ := rfl
      rw [writeLaidItems, readOn_cons hcomma, readOn_gap layout (skipsSpaces_value _),
        readOn_writeLaid item hitem _ _ _ (fun _ _ => endsNumeral_items layout _ _ _ _),
        readOn_items items hitems]
      simp

/-- The members after one that has been read are read up to the end of their object. -/
theorem readOn_members (members : List (Option String × Json)) (h : AreMembersPlain members)
    (reversed : List (Option String × Json)) (key : Option String) (value : Json)
    (stack : List Frame) (level outer : Nat) (rest : List Char) :
    readOn ⟨.member reversed key :: stack, .after value⟩
        (writeLaidMembers layout level members (layout.gap outer ++ '\x7d' :: rest)) =
      readOn ⟨stack, .after (.object (((key, value) :: reversed).reverse ++ members))⟩ rest := by
  match members, h with
  | [], _ =>
      have hclose : (⟨.member reversed key :: stack, .after value⟩ : ReaderState).step?
          (some '\x7d') = some ⟨stack, .after (.object ((key, value) :: reversed).reverse)⟩ := rfl
      rw [writeLaidMembers, readOn_gap layout (skipsSpaces_after _ _), readOn_cons hclose,
        List.append_nil]
  | (some name, member) :: members, ⟨_, hmember, hmembers⟩ =>
      have hcomma : (⟨.member reversed key :: stack, .after value⟩ : ReaderState).step? (some ',') =
          some ⟨.object ((key, value) :: reversed) :: stack, .nextKey⟩ := rfl
      rw [writeLaidMembers, readOn_cons hcomma, readOn_gap layout (skipsSpaces_nextKey _),
        readOn_memberKey layout rfl, readOn_writeLaid member hmember _ _ _
          (fun _ _ => endsNumeral_members layout _ _ _ _), readOn_members members hmembers]
      simp

end

/-- A plain value is read back from its text in every layout. -/
theorem read?_writeLaid {value : Json} (h : value.IsPlain) (level : Nat) :
    read? ((writeLaid layout level value []).map some) = some value := by
  rw [read?_eq, ReaderState.start]
  by_cases hinteger : ∃ i, value = .integer i
  · obtain ⟨i, rfl⟩ := hinteger
    obtain ⟨n, -, hvalue, hread⟩ := readOn_integer h []
    have htext : writeLaid layout level (.integer i) [] = (signedDecimal i).toList :=
      List.append_nil _
    rw [htext, hread]
    exact hvalue
  · have hends : EndsValue value [] := fun i hi => absurd ⟨i, hi⟩ hinteger
    rw [readOn_writeLaid layout value h [] level [] hends]
    rfl

end Reading

theorem ofText?_pretty {value : Json} (h : value.IsPlain) : ofText? value.pretty = some value := by
  rw [ofText?, pretty, String.toList_ofList, writePretty_eq]
  exact read?_writeLaid .indented h 0

theorem ofText?_compact {value : Json} (h : value.IsPlain) :
    ofText? value.compact = some value := by
  rw [ofText?, compact, String.toList_ofList, writeCompact_eq 0]
  exact read?_writeLaid .tight h 0

end Json

end Discussion
