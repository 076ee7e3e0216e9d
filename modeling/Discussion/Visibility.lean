import Discussion.Comment.Basic
import Discussion.Viewer.Basic

/-!
# Visibility

What a comment's score means to a viewer.  Anonymous viewers are not shown
negative comments; for the others two thresholds divide the scores into three
classes, and a moderator is never denied a comment.
-/

namespace Discussion

/-- The scores that divide the classes. -/
structure Thresholds where
  /-- Comments below it are not shown. -/
  suppression : Int64 := -400
  /-- Comments below it are marked as of low quality. -/
  lowQuality : Int64 := -75
deriving DecidableEq, Repr, Inhabited

/-- What a comment's score means to a viewer. -/
inductive Visibility
  | visible
  | lowQuality
  | suppressed
deriving DecidableEq, Repr, Inhabited

/-- The name of a class in data. -/
def Visibility.name : Visibility → String
  | .visible => "visible"
  | .lowQuality => "low_quality"
  | .suppressed => "suppressed"

namespace Thresholds

/-- The class of a score for a viewer. -/
def classify (thresholds : Thresholds) (viewer : Viewer) (score : Int64) : Visibility :=
  if !viewer.isSignedIn then
    if score < 0 then .suppressed else .visible
  else if score < thresholds.suppression && !viewer.isModerator then .suppressed
  else if score < thresholds.lowQuality then .lowQuality
  else .visible

/-- Whether a score is below the suppression threshold, whoever looks. -/
def isSuppressing (thresholds : Thresholds) (score : Int64) : Bool :=
  score < thresholds.suppression

/-- Whether a score is below the low quality threshold, whoever looks. -/
def isLowQuality (thresholds : Thresholds) (score : Int64) : Bool :=
  score < thresholds.lowQuality

end Thresholds

end Discussion
