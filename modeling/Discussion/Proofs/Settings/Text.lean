import Discussion.Proofs.Form.Snapshot
import Discussion.Proofs.Toml.Integers
import Discussion.Proofs.Toml.Line

/-!
# Settings read back

The text of settings holds their two tables, a line for every integer, and is read back to the
settings that it was written for.
-/

namespace Discussion

/-- Page sizes that are integers of TOML. -/
structure PageSizes.FitToml (sizes : PageSizes) : Prop where
  minimum : sizes.minimum.toNat < 9223372036854775808
  maximum : sizes.maximum.toNat < 9223372036854775808
  podcast : sizes.podcast.toNat < 9223372036854775808

namespace Settings

open Toml

theorem fitsSignedWord_toInt (w : Int64) : fitsSignedWord w.toInt = true := by
  have hlow := w.le_toInt
  have hhigh := w.toInt_lt
  simp only [fitsSignedWord, Bool.and_eq_true, decide_eq_true_eq]
  omega

theorem fitsSignedWord_toNat {w : UInt64} (h : w.toNat < 9223372036854775808) :
    fitsSignedWord w.toNat = true := by
  simp only [fitsSignedWord, Bool.and_eq_true, decide_eq_true_eq]
  omega

theorem wordText_eq (w : UInt64) : wordText w = signedDecimal w.toNat := by
  rw [wordText, signedDecimal, if_neg (by omega), Int.natAbs_natCast]

/-! ## The text -/

/-- The keys of the table of thresholds with their values. -/
def thresholdFields (settings : Settings) : List (String × Int) :=
  [("suppression_threshold", settings.thresholds.suppression.toInt),
    ("low_quality_threshold", settings.thresholds.lowQuality.toInt)]

/-- The keys of the table of page sizes with their values. -/
def pageFields (settings : Settings) : List (String × Int) :=
  [("min_comments", settings.pages.minimum.toNat), ("max_comments", settings.pages.maximum.toNat),
    ("podcast_limit", settings.pages.podcast.toNat)]

theorem areFields_thresholdFields (settings : Settings) : AreFields settings.thresholdFields := by
  simp only [AreFields, thresholdFields, List.forall_mem_cons, fitsSignedWord_toInt, and_true]
  decide

theorem areFields_pageFields {settings : Settings} (h : settings.pages.FitToml) :
    AreFields settings.pageFields := by
  simp only [AreFields, pageFields, List.forall_mem_cons, fitsSignedWord_toNat h.minimum,
    fitsSignedWord_toNat h.maximum, fitsSignedWord_toNat h.podcast, and_true]
  decide

theorem fitToml_iff (sizes : PageSizes) : sizes.FitToml ↔
    (fitsToml sizes.minimum && fitsToml sizes.maximum && fitsToml sizes.podcast) = true := by
  simp only [fitsToml, Bool.and_eq_true, decide_eq_true_eq]
  exact ⟨fun h => ⟨⟨h.minimum, h.maximum⟩, h.podcast⟩, fun h => ⟨h.1.1, h.1.2, h.2⟩⟩

theorem toText_of_not_fitToml {settings : Settings} (h : ¬ settings.pages.FitToml) :
    settings.toText = .error (.toml "integer out of range") := by
  rw [toText]
  exact if_neg fun hfits => h ((fitToml_iff settings.pages).mpr hfits)

/-- The text of settings is that of their two tables, with an empty line between them. -/
theorem exists_toText {settings : Settings} (h : settings.pages.FitToml) :
    ∃ text, settings.toText = .ok text ∧ text.toList =
      tableLines "visibility" settings.thresholdFields ++
        '\n' :: tableLines "pagination" settings.pageFields := by
  refine ⟨_, if_pos ((fitToml_iff settings.pages).mp h), ?_⟩
  have hfirst : "[visibility]\n".toList = '[' :: ("visibility".toList ++ [']', '\n']) := by decide
  have hsecond : "\n[pagination]\n".toList =
      '\n' :: '[' :: ("pagination".toList ++ [']', '\n']) := by decide
  simp only [wordText_eq, signedWordText, String.toList_append, tableLines, fieldLines,
    thresholdFields, pageFields, List.flatMap_cons, List.flatMap_nil, List.append_nil, hfirst,
    hsecond, List.append_assoc, List.cons_append, List.nil_append]

/-! ## The document -/

/-- The entries of the document of some settings. -/
def document (settings : Settings) : Entries :=
  [("visibility", .table .opened
      (settings.thresholdFields.map fun field => (field.1, .value (.integer field.2)))),
    ("pagination", .table .opened
      (settings.pageFields.map fun field => (field.1, .value (.integer field.2))))]

/-- A field of a table that holds an integer. -/
theorem integerField?_of_lookup {α : Type} {ofInt? : Int → Option α}
    {entries : List (String × Toml)} {name : String} {i : Int}
    (h : entries.lookup name = some (.integer i)) (names : List String)
    (default : α) :
    Toml.integerField? ofInt? names name default (.table entries) = ofInt? i := by
  rw [integerField?, field?, h]
  rfl

/-- The values of the fields of a table. -/
def fieldValues (fields : List (String × Int)) : List (String × Toml) :=
  fields.map fun field => (field.1, .integer field.2)

theorem ofToml?_thresholdFields (settings : Settings) :
    Thresholds.ofToml? (.table (fieldValues settings.thresholdFields)) =
      some settings.thresholds := by
  have hsuppression : ∀ names default, Toml.integerField? signedWordOfInt? names
      "suppression_threshold" default (.table (fieldValues settings.thresholdFields)) =
      some settings.thresholds.suppression := fun names default =>
    (integerField?_of_lookup rfl names default).trans (signedWordOfInt?_toInt _)
  have hlowQuality : ∀ names default, Toml.integerField? signedWordOfInt? names
      "low_quality_threshold" default (.table (fieldValues settings.thresholdFields)) =
      some settings.thresholds.lowQuality := fun names default =>
    (integerField?_of_lookup rfl names default).trans (signedWordOfInt?_toInt _)
  rw [Thresholds.ofToml?]
  simp only [Option.bind_eq_bind, hsuppression, hlowQuality, Option.bind_some]

theorem ofToml?_pageFields (settings : Settings) :
    PageSizes.ofToml? (.table (fieldValues settings.pageFields)) = some settings.pages := by
  have hminimum : ∀ names default, Toml.integerField? wordOfInt? names "min_comments" default
      (.table (fieldValues settings.pageFields)) = some settings.pages.minimum :=
    fun names default => (integerField?_of_lookup rfl names default).trans (wordOfInt?_toNat _)
  have hmaximum : ∀ names default, Toml.integerField? wordOfInt? names "max_comments" default
      (.table (fieldValues settings.pageFields)) = some settings.pages.maximum :=
    fun names default => (integerField?_of_lookup rfl names default).trans (wordOfInt?_toNat _)
  have hpodcast : ∀ names default, Toml.integerField? wordOfInt? names "podcast_limit" default
      (.table (fieldValues settings.pageFields)) = some settings.pages.podcast :=
    fun names default => (integerField?_of_lookup rfl names default).trans (wordOfInt?_toNat _)
  rw [PageSizes.ofToml?]
  simp only [Option.bind_eq_bind, hminimum, hmaximum, hpodcast, Option.bind_some]

theorem toValue_table (origin : Origin) (fields : List (String × Int)) :
    Item.toValue (.table origin (fields.map fun field => (field.1, .value (.integer field.2)))) =
      .table (fieldValues fields) := by
  rw [Item.toValue]
  congr
  induction fields with
  | nil => rfl
  | cons field fields ih => rw [List.map_cons, entriesToValues, ih]; rfl

theorem ofToml?_document (settings : Settings) :
    ofToml? (.table (entriesToValues settings.document)) = some settings := by
  have hvalues : entriesToValues settings.document =
      [("visibility", .table (fieldValues settings.thresholdFields)),
        ("pagination", .table (fieldValues settings.pageFields))] := by
    simp only [document, entriesToValues, toValue_table]
  have hvisibility : ∀ names, Toml.field? names "visibility"
      (.table (entriesToValues settings.document)) =
      some (some (.table (fieldValues settings.thresholdFields))) := fun _ => by
    rw [hvalues]
    rfl
  have hpagination : ∀ names, Toml.field? names "pagination"
      (.table (entriesToValues settings.document)) =
      some (some (.table (fieldValues settings.pageFields))) := fun _ => by
    rw [hvalues]
    rfl
  rw [ofToml?, hvisibility, Option.bind_eq_bind, Option.bind_some]
  dsimp only
  rw [ofToml?_thresholdFields, Option.bind_eq_bind, Option.bind_some, hpagination,
    Option.bind_eq_bind, Option.bind_some]
  dsimp only
  rw [ofToml?_pageFields]
  rfl

/-- The text of settings is read back. -/
theorem exists_readBack {settings : Settings} (h : settings.pages.FitToml) :
    ∃ text, settings.toText = .ok text ∧ read? text.toList = some settings := by
  obtain ⟨text, hwritten, htext⟩ := exists_toText h
  refine ⟨text, hwritten, ?_⟩
  obtain ⟨steps, hsteps⟩ : ∃ steps, text.toList.length + 1 =
      ((steps + 1 + settings.pageFields.length + 1) + 1) + settings.thresholdFields.length + 1 := by
    refine ⟨text.toList.length - 8, ?_⟩
    have hlength : 8 ≤ text.toList.length := by
      rw [htext]
      simp [tableLines, thresholdFields, pageFields, fieldLines, toList_line]
    simp only [thresholdFields, pageFields, List.length_cons, List.length_nil]
    omega
  have hread : readLines? (text.toList.length + 1) [] [] text.toList = some settings.document := by
    rw [hsteps, htext, readLines?_tableLines (by decide) settings.areFields_thresholdFields]
    change readLines? _ _ _ _ = _
    rw [readLines?_empty, ← List.append_nil (tableLines _ settings.pageFields),
      readLines?_tableLines (by decide) (areFields_pageFields h)]
    rfl
  have hmark : Toml.read? text.toList =
      (readLines? (text.toList.length + 1) [] [] text.toList).map fun entries =>
        .table (entriesToValues entries) := by
    have hmark : '[' ≠ byteOrderMark := by decide
    rw [htext, tableLines, List.cons_append]
    unfold Toml.read?
    simp only [if_neg hmark]
  have htoml : Toml.read? text.toList = some (.table (entriesToValues settings.document)) := by
    rw [hmark, hread, Option.map_some]
  rw [read?, htoml, Option.bind_some, ofToml?_document]

/-! ## Settings that were read -/

theorem isSigned_of_field? {names : List String} {name : String} {value v : Toml}
    (h : value.IsSigned) (hfield : Toml.field? names name value = some (some v)) : v.IsSigned := by
  unfold Toml.field? at hfield
  split at hfield
  · next entries =>
      cases h with
      | table h => exact h _ (mem_of_lookup (Option.some.inj hfield))
  · next items =>
      cases h with
      | array h => exact h _ (List.of_mem_zip (mem_of_lookup (Option.some.inj hfield))).2
  · cases hfield
  · cases hfield

theorem toNat_of_wordOfInt? {i : Int} {w : UInt64} (h : wordOfInt? i = some w) :
    (w.toNat : Int) = i := by
  rw [wordOfInt?] at h
  split at h
  · next hrange =>
      obtain rfl := Option.some.inj h
      have hlt : i.toNat < UInt64.size := by omega
      rw [UInt64.toNat_ofNat_of_lt' hlt]
      omega
  · cases h

/-- A word that is a field of what was read is an integer of TOML, if the default is. -/
theorem lt_of_integerField? {names : List String} {name : String} {default w : UInt64}
    {value : Toml} (h : value.IsSigned)
    (hfield : Toml.integerField? wordOfInt? names name default value = some w)
    (hdefault : default.toNat < 9223372036854775808) : w.toNat < 9223372036854775808 := by
  obtain ⟨found, hfound, hfield⟩ := Option.bind_eq_some_iff.mp hfield
  split at hfield
  · obtain rfl := Option.some.inj hfield
    exact hdefault
  · cases isSigned_of_field? h hfound with
    | integer hfits =>
        have hw := toNat_of_wordOfInt? hfield
        simp only [fitsSignedWord, Bool.and_eq_true, decide_eq_true_eq] at hfits
        omega
  · cases hfield

theorem fitToml_of_ofToml? {value : Toml} {sizes : PageSizes} (h : value.IsSigned)
    (hread : PageSizes.ofToml? value = some sizes) : sizes.FitToml := by
  obtain ⟨minimum, hminimum, hread⟩ := Option.bind_eq_some_iff.mp hread
  obtain ⟨maximum, hmaximum, hread⟩ := Option.bind_eq_some_iff.mp hread
  obtain ⟨podcast, hpodcast, hread⟩ := Option.bind_eq_some_iff.mp hread
  obtain rfl := Option.some.inj hread
  exact ⟨lt_of_integerField? h hminimum (by decide), lt_of_integerField? h hmaximum (by decide),
    lt_of_integerField? h hpodcast (by decide)⟩

/-- Where the page sizes of settings that were read come from. -/
theorem pages_of_ofToml? {value : Toml} {settings : Settings}
    (h : ofToml? value = some settings) :
    settings.pages = {} ∨ ∃ names name part, Toml.field? names name value = some (some part) ∧
      PageSizes.ofToml? part = some settings.pages := by
  obtain ⟨visibility, -, h⟩ := Option.bind_eq_some_iff.mp h
  split at h
  -- With thresholds or without, what is read next are the page sizes.
  all_goals
    obtain ⟨_, -, h⟩ := Option.bind_eq_some_iff.mp h
    obtain ⟨found, hfield, h⟩ := Option.bind_eq_some_iff.mp h
    cases found with
    | none =>
        obtain rfl := Option.some.inj h
        exact Or.inl rfl
    | some part =>
        obtain ⟨pages, hread, h⟩ := Option.bind_eq_some_iff.mp h
        obtain rfl := Option.some.inj h
        exact Or.inr ⟨_, _, part, hfield, hread⟩

/-- The page sizes of settings that were read are integers of TOML. -/
theorem fitToml_of_read? {cs : List Char} {settings : Settings} (h : read? cs = some settings) :
    settings.pages.FitToml := by
  obtain ⟨value, hvalue, h⟩ := Option.bind_eq_some_iff.mp h
  rcases pages_of_ofToml? h with hpages | ⟨names, name, part, hpart, hpages⟩
  · rw [hpages]
    exact ⟨by decide, by decide, by decide⟩
  · exact fitToml_of_ofToml? (isSigned_of_field? (isSigned_of_read? hvalue) hpart) hpages

end Settings

end Discussion
