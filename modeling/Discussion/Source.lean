import Discussion.Event.Logged

/-!
# Sources

Where commentables and their comments come from.  A source answers in a monad:
it may be a value in memory, or read files.
-/

namespace Discussion

/-- A supplier of commentables and of their comments. -/
structure Source (m : Type → Type) where
  commentable : Reference → m (Except Fault Commentable)
  /-- The comments of a commentable, in no particular order. -/
  comments : Reference → m (Except Fault (List Comment))

end Discussion
