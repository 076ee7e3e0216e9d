import Discussion.Settings.Basic
import Discussion.Toml.Reader

/-!
# The text of settings

Settings are kept as a TOML text.  Every part may be missing and then has its
default, what is not known is passed over, and a table may be written as the
array of its values in order.  Integers of TOML are signed words, so larger page
sizes have no text.
-/

namespace Discussion

namespace Toml

/-- The value of a field of a table, or of the array of the table's values. -/
def field? (names : List String) (name : String) : Toml → Option (Option Toml)
  | .table entries => some (entries.lookup name)
  | .array items => some ((names.zip items).lookup name)
  | .date _ => some none
  | _ => none

/-- An integer field that may be missing, read by `ofInt?`. -/
def integerField? {α : Type} (ofInt? : Int → Option α) (names : List String) (name : String)
    (default : α) (value : Toml) : Option α := do
  match ← field? names name value with
  | none => some default
  | some (.integer i) => ofInt? i
  | some _ => none

end Toml

/-- Thresholds from a TOML value. -/
def Thresholds.ofToml? (value : Toml) : Option Thresholds := do
  let names := ["suppression_threshold", "low_quality_threshold"]
  let standard : Thresholds := {}
  let suppression ← Toml.integerField? signedWordOfInt? names "suppression_threshold"
    standard.suppression value
  let lowQuality ← Toml.integerField? signedWordOfInt? names "low_quality_threshold"
    standard.lowQuality value
  some { suppression := suppression, lowQuality := lowQuality }

/-- Page sizes from a TOML value. -/
def PageSizes.ofToml? (value : Toml) : Option PageSizes := do
  let names := ["min_comments", "max_comments", "podcast_limit"]
  let standard : PageSizes := {}
  let minimum ← Toml.integerField? wordOfInt? names "min_comments" standard.minimum value
  let maximum ← Toml.integerField? wordOfInt? names "max_comments" standard.maximum value
  let podcast ← Toml.integerField? wordOfInt? names "podcast_limit" standard.podcast value
  some { minimum := minimum, maximum := maximum, podcast := podcast }

namespace Settings

/-- Settings from a TOML value. -/
def ofToml? (value : Toml) : Option Settings := do
  let names := ["visibility", "pagination"]
  let thresholds ←
    match ← Toml.field? names "visibility" value with
    | none => some {}
    | some value => Thresholds.ofToml? value
  let pages ←
    match ← Toml.field? names "pagination" value with
    | none => some {}
    | some value => PageSizes.ofToml? value
  some { thresholds := thresholds, pages := pages }

/-- The settings that a text holds, whether they are valid or not. -/
def read? (cs : List Char) : Option Settings :=
  (Toml.read? cs).bind ofToml?

/-- The valid settings that a text holds. -/
def ofText (cs : List Char) : Except Fault Settings :=
  match read? cs with
  | none => .error (.toml "not settings")
  | some settings => settings.validate.map fun _ => settings

/-- Whether a page size is an integer of TOML. -/
def fitsToml (w : UInt64) : Bool :=
  w.toNat < 9223372036854775808

/-- A line of a key with an integer. -/
def line (key value : String) : String :=
  key ++ " = " ++ value ++ "\n"

/-- The text of settings, whether they are valid or not. -/
def toText (settings : Settings) : Except Fault String :=
  let t := settings.thresholds
  let p := settings.pages
  if fitsToml p.minimum && fitsToml p.maximum && fitsToml p.podcast then
    .ok ("[visibility]\n" ++
      line "suppression_threshold" (signedWordText t.suppression) ++
      line "low_quality_threshold" (signedWordText t.lowQuality) ++
      "\n[pagination]\n" ++
      line "min_comments" (wordText p.minimum) ++
      line "max_comments" (wordText p.maximum) ++
      line "podcast_limit" (wordText p.podcast))
  else .error (.toml "integer out of range")

end Settings

end Discussion
