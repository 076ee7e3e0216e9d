import Discussion.Fault
import Discussion.Pagination
import Discussion.Visibility

/-!
# Settings

The thresholds and page sizes of a site, and the conditions that they must meet.
-/

namespace Discussion

/-- The thresholds and page sizes of a site. -/
structure Settings where
  thresholds : Thresholds := {}
  pages : PageSizes := {}
deriving DecidableEq, Repr, Inhabited

/-- Checks the settings; the first violated condition is reported. -/
def Settings.validate (settings : Settings) : Except Fault Unit :=
  let t := settings.thresholds
  let p := settings.pages
  if t.lowQuality ≤ t.suppression then
    .error (.configuration (.thresholds t.suppression t.lowQuality))
  else if p.minimum = 0 then .error (.configuration .minimumZero)
  else if p.maximum < p.minimum then
    .error (.configuration (.maximumBelowMinimum p.maximum p.minimum))
  else if p.podcast = 0 then .error (.configuration .podcastZero)
  else .ok ()

end Discussion
