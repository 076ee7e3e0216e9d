import Discussion.Commentable.Basic

/-!
# Pagination

How much of a thread is shown at once.
-/

namespace Discussion

/-- The numbers of comments that a page shows. -/
structure PageSizes where
  /-- Threads up to this size are shown whole. -/
  minimum : UInt64 := 8
  /-- No page shows more root comments. -/
  maximum : UInt64 := 250
  /-- The number of root comments shown for a podcast episode. -/
  podcast : UInt64 := 12
deriving DecidableEq, Repr, Inhabited

/-- Whether a page shows its thread whole. -/
inductive RenderMode
  | inlineSummary
  /-- A part of the thread with a link to all comments. -/
  | fullThread
deriving DecidableEq, Repr, Inhabited

/-- The name of a mode in data. -/
def RenderMode.name : RenderMode → String
  | .inlineSummary => "inline_summary"
  | .fullThread => "full_thread"

namespace PageSizes

/-- Whether a thread of so many comments gets a link to all comments. -/
def linksToAll (sizes : PageSizes) (total : UInt64) : Bool :=
  sizes.minimum < total

/-- Whether a thread has more comments than a page may show. -/
def isHigh (sizes : PageSizes) (total : UInt64) : Bool :=
  sizes.maximum < total

/-- The mode for a thread of so many comments. -/
def mode (sizes : PageSizes) (total : UInt64) : RenderMode :=
  if sizes.linksToAll total then .fullThread else .inlineSummary

/-- The name of the view that lists all comments. -/
def allCommentsView : String := "comments"

/-- The number of root comments that a named view shows. -/
def viewSize (sizes : PageSizes) (view : String) : UInt64 :=
  if view = allCommentsView then sizes.maximum else sizes.minimum

/-- The number of root comments shown when no number is requested. -/
def kindSize (sizes : PageSizes) : Kind → UInt64
  | .article => sizes.maximum
  | .podcastEpisode => sizes.podcast

/-- The number of root comments shown on request, never above the maximum. -/
def limit (sizes : PageSizes) (kind : Kind) (requested : Option UInt64) : UInt64 :=
  min (requested.getD (sizes.kindSize kind)) sizes.maximum

end PageSizes

end Discussion
