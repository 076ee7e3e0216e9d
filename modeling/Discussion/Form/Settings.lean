import Discussion.Form.Identity
import Discussion.Order
import Discussion.Settings.Basic

/-!
# The data form of settings and of plain enumerations

Every part of the settings may be missing and then has its default.
-/

namespace Discussion

/-- An order from a JSON value. -/
def Order.ofJson? : Decoder Order :=
  Json.enumeration [.top, .oldest, .latest] Order.name

/-- A class of visibility from a JSON value. -/
def Visibility.ofJson? : Decoder Visibility :=
  Json.enumeration [.visible, .lowQuality, .suppressed] Visibility.name

/-- A mode from a JSON value. -/
def RenderMode.ofJson? : Decoder RenderMode :=
  Json.enumeration [.inlineSummary, .fullThread] RenderMode.name

namespace Thresholds

/-- The fields of thresholds. -/
def fieldNames : List String :=
  ["suppression_threshold", "low_quality_threshold"]

/-- Thresholds as a JSON value. -/
def toJson (t : Thresholds) : Json :=
  .ofMembers [
    ("suppression_threshold", .ofSignedWord t.suppression),
    ("low_quality_threshold", .ofSignedWord t.lowQuality)]

/-- Thresholds from a JSON value. -/
def ofJson? : Decoder Thresholds := fun room value => do
  let fields ← Json.record fieldNames room value
  let standard : Thresholds := {}
  let suppression ←
    fields.withDefault "suppression_threshold" Json.signedWord standard.suppression
  let lowQuality ← fields.withDefault "low_quality_threshold" Json.signedWord standard.lowQuality
  some { suppression := suppression, lowQuality := lowQuality }

end Thresholds

namespace PageSizes

/-- The fields of page sizes. -/
def fieldNames : List String :=
  ["min_comments", "max_comments", "podcast_limit"]

/-- Page sizes as a JSON value. -/
def toJson (sizes : PageSizes) : Json :=
  .ofMembers [
    ("min_comments", .ofWord sizes.minimum),
    ("max_comments", .ofWord sizes.maximum),
    ("podcast_limit", .ofWord sizes.podcast)]

/-- Page sizes from a JSON value. -/
def ofJson? : Decoder PageSizes := fun room value => do
  let fields ← Json.record fieldNames room value
  let standard : PageSizes := {}
  let minimum ← fields.withDefault "min_comments" Json.word standard.minimum
  let maximum ← fields.withDefault "max_comments" Json.word standard.maximum
  let podcast ← fields.withDefault "podcast_limit" Json.word standard.podcast
  some { minimum := minimum, maximum := maximum, podcast := podcast }

end PageSizes

namespace Settings

/-- The parts of settings. -/
def fieldNames : List String :=
  ["visibility", "pagination"]

/-- Settings as a JSON value. -/
def toJson (settings : Settings) : Json :=
  .ofMembers [
    ("visibility", settings.thresholds.toJson),
    ("pagination", settings.pages.toJson)]

/-- Settings from a JSON value. -/
def ofJson? : Decoder Settings := fun room value => do
  let fields ← Json.record fieldNames room value
  let thresholds ← fields.withDefault "visibility" Thresholds.ofJson? {}
  let pages ← fields.withDefault "pagination" PageSizes.ofJson? {}
  some { thresholds := thresholds, pages := pages }

end Settings

end Discussion
