import Discussion.Source
import Discussion.View.Basic

/-!
# Serving views

Views of the threads of a source.  The commentable is fetched before its
comments, and the first fetch that fails decides.
-/

namespace Discussion

namespace Source

variable {m : Type → Type} [Monad m]

/-- Fetches a commentable and its comments and goes on with both. -/
def withThread {α : Type} (source : Source m) (ref : Reference)
    (next : Commentable → List Comment → m (Except Fault α)) : m (Except Fault α) := do
  match ← source.commentable ref with
  | .error fault => pure (.error fault)
  | .ok owner => do
      match ← source.comments ref with
      | .error fault => pure (.error fault)
      | .ok comments => next owner comments

/-- The view of a commentable's whole thread. -/
def thread [Reports m] (source : Source m) (settings : Settings) (ref : Reference)
    (viewer : Viewer) (limit : Option UInt64) (order : Order) : m (Except Fault ThreadView) :=
  source.withThread ref fun owner comments =>
    Reports.absorb (ThreadView.ofThread settings ref viewer limit order owner comments)

/-- The view of a comment opened by its permalink. -/
def permalink [Reports m] (source : Source m) (settings : Settings) (ref : Reference)
    (id : CommentId) (viewer : Viewer) : m (Except Fault ThreadView) :=
  source.withThread ref fun owner comments =>
    Reports.absorb (ThreadView.ofPermalink settings ref id viewer owner comments)

/-- Whether some comment of a commentable has a negative score. -/
def anyNegative (source : Source m) (ref : Reference) : m (Except Fault Bool) := do
  match ← source.comments ref with
  | .error fault => pure (.error fault)
  | .ok comments => pure (.ok (Discussion.anyNegative comments))

/-- Whether negative comments are kept from the viewer.  Nothing is fetched for a
viewer who is signed in. -/
def anyHiddenNegative (source : Source m) (ref : Reference) (viewer : Viewer) :
    m (Except Fault Bool) :=
  if viewer.isSignedIn then pure (.ok false) else source.anyNegative ref

end Source

end Discussion
