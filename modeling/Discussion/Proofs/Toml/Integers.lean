import Discussion.Toml.Reader

/-!
# Integers of TOML that was read

However deep an integer lies in what was read, it is in the range of signed words: the reader of
integers refuses all others, and nothing else makes any.  An entry of a document keeps its value
until it is replaced as a whole, so the lines of a document only need to add such values.
-/

namespace Discussion

namespace Toml

/-- Whether all integers in a value are signed words. -/
inductive IsSigned : Toml → Prop
  | string (s : String) : IsSigned (.string s)
  | integer {i : Int} (h : fitsSignedWord i) : IsSigned (.integer i)
  | float (text : String) : IsSigned (.float text)
  | bool (b : Bool) : IsSigned (.bool b)
  | date (text : String) : IsSigned (.date text)
  | array {items : List Toml} (h : ∀ item ∈ items, IsSigned item) : IsSigned (.array items)
  | table {entries : List (String × Toml)} (h : ∀ entry ∈ entries, IsSigned entry.2) :
      IsSigned (.table entries)

/-! ## Documents -/

theorem mem_of_lookup {α : Type} {entries : List (String × α)} {key : String} {a : α}
    (h : entries.lookup key = some a) : (key, a) ∈ entries := by
  obtain ⟨before, after, rfl, -⟩ := List.lookup_eq_some_iff.mp h
  simp

theorem entriesToValues_eq (entries : Entries) :
    entriesToValues entries = entries.map fun entry => (entry.1, entry.2.toValue) := by
  induction entries with
  | nil => rfl
  | cons entry entries ih => rw [entriesToValues, ih]; rfl

theorem tablesToValues_eq (latestFirst : List Entries) :
    tablesToValues latestFirst =
      latestFirst.map fun entries => .table (entriesToValues entries) := by
  induction latestFirst with
  | nil => rfl
  | cons entries rest ih => rw [tablesToValues, ih]; rfl

/-- Whether all integers in the table are signed words. -/
def Entries.AreSigned (entries : Entries) : Prop :=
  ∀ entry ∈ entries, entry.2.toValue.IsSigned

theorem isSigned_table_iff {entries : Entries} :
    (Toml.table (entriesToValues entries)).IsSigned ↔ entries.AreSigned := by
  rw [entriesToValues_eq]
  constructor
  · intro h entry hentry
    cases h with
    | table h => exact h _ (List.mem_map_of_mem hentry)
  · intro h
    refine .table fun _ hmem => ?_
    obtain ⟨entry, hentry, rfl⟩ := List.mem_map.mp hmem
    exact h entry hentry

theorem isSigned_tables_iff {latestFirst : List Entries} :
    (Item.tables latestFirst).toValue.IsSigned ↔ ∀ entries ∈ latestFirst, entries.AreSigned := by
  rw [Item.toValue, tablesToValues_eq]
  constructor
  · intro h entries hentries
    cases h with
    | array h =>
        exact isSigned_table_iff.mp
          (h _ (List.mem_reverse.mpr (List.mem_map_of_mem hentries)))
  · intro h
    refine .array fun _ hmem => ?_
    obtain ⟨entries, hentries, rfl⟩ := List.mem_map.mp (List.mem_reverse.mp hmem)
    exact isSigned_table_iff.mpr (h entries hentries)

namespace Entries

variable {entries : Entries} {key : String} {item : Item}

theorem areSigned_nil : AreSigned [] := by
  rintro _ ⟨⟩

theorem AreSigned.set (h : entries.AreSigned) (hitem : item.toValue.IsSigned) :
    (entries.set key item).AreSigned := by
  induction entries with
  | nil =>
      intro entry hentry
      obtain rfl := List.mem_singleton.mp hentry
      exact hitem
  | cons former rest ih =>
      obtain ⟨hformer, hrest⟩ := List.forall_mem_cons.mp h
      rw [Entries.set]
      split
      · exact List.forall_mem_cons.mpr ⟨hitem, hrest⟩
      · exact List.forall_mem_cons.mpr ⟨hformer, ih hrest⟩

theorem AreSigned.lookup (h : entries.AreSigned) (hlookup : entries.lookup key = some item) :
    item.toValue.IsSigned :=
  h _ (mem_of_lookup hlookup)

/-- A change of one table that keeps its integers signed keeps those of the document so. -/
theorem AreSigned.update {made : Origin} {change : Origin → Entries → Option Entries}
    (hchange : ∀ {origin inner changed}, inner.AreSigned → change origin inner = some changed →
      changed.AreSigned) {path : List String} {origin : Origin} {after : Entries}
    (h : entries.AreSigned) (hupdate : update made change path origin entries = some after) :
    after.AreSigned := by
  induction path generalizing origin entries after with
  | nil => exact hchange h hupdate
  | cons key path ih =>
      rw [Entries.update] at hupdate
      split at hupdate
      · obtain ⟨inner, hinner, hafter⟩ := Option.bind_eq_some_iff.mp hupdate
        obtain rfl := Option.some.inj hafter
        exact h.set (isSigned_table_iff.mpr (ih areSigned_nil hinner))
      · next former hlookup =>
          split at hupdate
          · cases hupdate
          · obtain ⟨inner, hinner, hafter⟩ := Option.bind_eq_some_iff.mp hupdate
            obtain rfl := Option.some.inj hafter
            have hformer := isSigned_table_iff.mp (h.lookup hlookup)
            exact h.set (isSigned_table_iff.mpr (ih hformer hinner))
      · next latest earlier hlookup =>
          obtain ⟨inner, hinner, hafter⟩ := Option.bind_eq_some_iff.mp hupdate
          obtain rfl := Option.some.inj hafter
          obtain ⟨hlatest, hearlier⟩ :=
            List.forall_mem_cons.mp (isSigned_tables_iff.mp (h.lookup hlookup))
          exact h.set (isSigned_tables_iff.mpr
            (List.forall_mem_cons.mpr ⟨ih hlatest hinner, hearlier⟩))
      · cases hupdate
      · cases hupdate

theorem AreSigned.add {path : List String} {v : Toml} {after : Entries} (h : entries.AreSigned)
    (hv : v.IsSigned) (hadd : entries.add path key v = some after) : after.AreSigned := by
  refine h.update (fun hinner hchange => ?_) hadd
  split at hchange
  · cases hchange
  · split at hchange
    · cases hchange
    · obtain rfl := Option.some.inj hchange
      exact hinner.set hv

theorem AreSigned.addWithin {header path : List String} {v : Toml} {after : Entries}
    (h : entries.AreSigned) (hv : v.IsSigned)
    (hadd : entries.addWithin header path key v = some after) : after.AreSigned :=
  h.update (fun hinner hchange => hinner.add hv hchange) hadd

theorem AreSigned.openTable {path : List String} {after : Entries} (h : entries.AreSigned)
    (hopen : entries.openTable path key = some after) : after.AreSigned := by
  refine h.update (fun hinner hchange => ?_) hopen
  split at hchange
  · obtain rfl := Option.some.inj hchange
    exact hinner.set (isSigned_table_iff.mpr areSigned_nil)
  · next former hlookup =>
      obtain rfl := Option.some.inj hchange
      exact hinner.set (isSigned_table_iff.mpr (isSigned_table_iff.mp (hinner.lookup hlookup)))
  · cases hchange

theorem AreSigned.openElement {path : List String} {after : Entries} (h : entries.AreSigned)
    (hopen : entries.openElement path key = some after) : after.AreSigned := by
  refine h.update (fun hinner hchange => ?_) hopen
  split at hchange
  · obtain rfl := Option.some.inj hchange
    refine hinner.set (isSigned_tables_iff.mpr ?_)
    exact List.forall_mem_singleton.mpr areSigned_nil
  · next former hlookup =>
      obtain rfl := Option.some.inj hchange
      have hformer := isSigned_tables_iff.mp (hinner.lookup hlookup)
      exact hinner.set (isSigned_tables_iff.mpr (List.forall_mem_cons.mpr ⟨areSigned_nil, hformer⟩))
  · cases hchange

end Entries

/-! ## Values -/

theorem fits_of_wordOrNone {i j : Int} {rest after : List Char}
    (h : wordOrNone i rest = some (j, after)) : fitsSignedWord j := by
  rw [wordOrNone] at h
  split at h
  · next hfits =>
      obtain ⟨rfl, -⟩ := Prod.mk.inj (Option.some.inj h)
      exact hfits
  · cases h

theorem fits_of_readInteger? {cs rest : List Char} {i : Int}
    (h : readInteger? cs = some (i, rest)) : fitsSignedWord i := by
  unfold readInteger? at h
  split at h
  -- To any base, the last thing done with the digits is the check of their value.
  all_goals
    obtain ⟨_, -, h⟩ := Option.bind_eq_some_iff.mp h
    exact fits_of_wordOrNone h

theorem isSigned_of_readNumber? {cs rest : List Char} {v : Toml}
    (h : readNumber? cs = some (v, rest)) : v.IsSigned := by
  rw [readNumber?] at h
  split at h
  · obtain ⟨rfl, -⟩ := Prod.mk.inj (Option.some.inj h)
    exact .date _
  · split at h
    · obtain ⟨rfl, -⟩ := Prod.mk.inj (Option.some.inj h)
      exact .float _
    · obtain ⟨_, hinteger, h⟩ := Option.map_eq_some_iff.mp h
      obtain ⟨rfl, -⟩ := Prod.mk.inj h
      exact .integer (fits_of_readInteger? hinteger)

theorem isSigned_of_readScalar? {cs rest : List Char} {v : Toml}
    (h : readScalar? cs = some (v, rest)) : v.IsSigned := by
  unfold readScalar? at h
  split at h
  · cases h
  · split at h
    · obtain ⟨_, -, h⟩ := Option.map_eq_some_iff.mp h
      obtain ⟨rfl, -⟩ := Prod.mk.inj h
      exact .string _
    · split at h
      · obtain ⟨_, -, h⟩ := Option.map_eq_some_iff.mp h
        obtain ⟨rfl, -⟩ := Prod.mk.inj h
        exact .bool _
      · split at h
        · obtain ⟨_, -, h⟩ := Option.map_eq_some_iff.mp h
          obtain ⟨rfl, -⟩ := Prod.mk.inj h
          exact .bool _
        · exact isSigned_of_readNumber? h

/-- What the readers of values do within some steps. -/
structure ReadsSigned (steps : Nat) : Prop where
  value : ∀ {room cs v rest}, readValue? steps room cs = some (v, rest) → v.IsSigned
  items : ∀ {room found cs v rest}, (∀ item ∈ found, item.IsSigned) →
    readItems? steps room found cs = some (v, rest) → v.IsSigned
  pairs : ∀ {room found cs v rest}, found.AreSigned →
    readPairs? steps room found cs = some (v, rest) → v.IsSigned

/-- The readers call each other within one step less. -/
theorem readsSigned (steps : Nat) : ReadsSigned steps := by
  induction steps with
  | zero =>
      constructor
      · intro _ _ _ _ h
        rw [readValue?] at h
        cases h
      · intro _ _ _ _ _ _ h
        rw [readItems?] at h
        cases h
      · intro _ _ _ _ _ _ h
        rw [readPairs?] at h
        cases h
  | succ steps ih =>
      constructor
      · intro room cs v rest h
        unfold readValue? at h
        split at h
        · exact ih.items (by simp) h
        · split at h
          · obtain ⟨rfl, -⟩ := Prod.mk.inj (Option.some.inj h)
            exact .table (by simp)
          · exact ih.pairs Entries.areSigned_nil h
        · cases h
        · cases h
        · exact isSigned_of_readScalar? h
      · intro room found cs v rest hfound h
        rw [readItems?] at h
        split at h
        · obtain ⟨rfl, -⟩ := Prod.mk.inj (Option.some.inj h)
          exact .array (by simpa using hfound)
        · obtain ⟨⟨item, after⟩, hitem, h⟩ := Option.bind_eq_some_iff.mp h
          have hmore : ∀ item' ∈ item :: found, item'.IsSigned :=
            List.forall_mem_cons.mpr ⟨ih.value hitem, hfound⟩
          dsimp only at h
          split at h
          · exact ih.items hmore h
          · obtain ⟨rfl, -⟩ := Prod.mk.inj (Option.some.inj h)
            exact .array fun item' hmem => hmore item' (List.mem_reverse.mp hmem)
          · cases h
      · intro room found cs v rest hfound h
        rw [readPairs?] at h
        obtain ⟨_, -, h⟩ := Option.bind_eq_some_iff.mp h
        obtain ⟨_, -, h⟩ := Option.bind_eq_some_iff.mp h
        obtain ⟨_, -, h⟩ := Option.bind_eq_some_iff.mp h
        obtain ⟨_, hitem, h⟩ := Option.bind_eq_some_iff.mp h
        obtain ⟨more, hadd, h⟩ := Option.bind_eq_some_iff.mp h
        have hmore := hfound.add (ih.value hitem) hadd
        split at h
        · exact ih.pairs hmore h
        · obtain ⟨rfl, -⟩ := Prod.mk.inj (Option.some.inj h)
          exact isSigned_table_iff.mpr hmore
        · cases h

/-! ## Texts -/

theorem isSigned_of_readLine? {cs rest : List Char} {path : List String} {key : String} {v : Toml}
    (h : readLine? cs = some (path, key, v, rest)) : v.IsSigned := by
  rw [readLine?] at h
  obtain ⟨_, -, h⟩ := Option.bind_eq_some_iff.mp h
  obtain ⟨_, -, h⟩ := Option.bind_eq_some_iff.mp h
  obtain ⟨_, -, h⟩ := Option.bind_eq_some_iff.mp h
  obtain ⟨_, hv, h⟩ := Option.bind_eq_some_iff.mp h
  obtain ⟨_, -, h⟩ := Option.bind_eq_some_iff.mp h
  cases h
  exact (readsSigned _).value hv

/-- Every line keeps the integers of a document signed. -/
theorem areSigned_of_readLines? {steps : Nat} {header : List String} {entries after : Entries}
    {cs : List Char} (hentries : entries.AreSigned)
    (h : readLines? steps header entries cs = some after) : after.AreSigned := by
  induction steps generalizing header entries cs with
  | zero =>
      rw [readLines?] at h
      cases h
  | succ steps ih =>
      rw [readLines?] at h
      split at h
      · obtain rfl := Option.some.inj h
        exact hentries
      · obtain ⟨_, -, h⟩ := Option.bind_eq_some_iff.mp h
        obtain ⟨_, hopen, h⟩ := Option.bind_eq_some_iff.mp h
        exact ih (hentries.openElement hopen) h
      · obtain ⟨_, -, h⟩ := Option.bind_eq_some_iff.mp h
        obtain ⟨_, hopen, h⟩ := Option.bind_eq_some_iff.mp h
        exact ih (hentries.openTable hopen) h
      · split at h
        · obtain ⟨_, -, h⟩ := Option.bind_eq_some_iff.mp h
          exact ih hentries h
        · obtain ⟨⟨path, key, v, rest⟩, hline, h⟩ := Option.bind_eq_some_iff.mp h
          obtain ⟨_, hadd, h⟩ := Option.bind_eq_some_iff.mp h
          exact ih (hentries.addWithin (isSigned_of_readLine? hline) hadd) h

/-- All integers that a text holds are signed words. -/
theorem isSigned_of_read? {cs : List Char} {v : Toml} (h : read? cs = some v) : v.IsSigned := by
  obtain ⟨entries, hentries, rfl⟩ := Option.map_eq_some_iff.mp h
  exact isSigned_table_iff.mpr (areSigned_of_readLines? Entries.areSigned_nil hentries)

end Toml

end Discussion
