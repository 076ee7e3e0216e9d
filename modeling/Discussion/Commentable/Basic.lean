import Discussion.Identity

/-!
# Commentables

A commentable is an article or a podcast episode that owns a thread of
comments.  It is referred to by its kind and its number.
-/

namespace Discussion

/-- The kinds of commentables. -/
inductive Kind
  | article
  | podcastEpisode
deriving DecidableEq, Repr, Inhabited

/-- The name of a kind in references, file names and data. -/
def Kind.name : Kind → String
  | .article => "article"
  | .podcastEpisode => "podcast_episode"

/-- The kind and the number of a commentable. -/
structure Reference where
  kind : Kind
  id : UInt64
deriving DecidableEq, Repr, Inhabited

/-- A reference is written as the kind's name, a hyphen and the number. -/
def Reference.text (ref : Reference) : String :=
  ref.kind.name ++ "-" ++ wordText ref.id

/-- The owner of a thread as its source delivers it. -/
structure Commentable where
  reference : Reference
  /-- The author. -/
  user : UserId
  /-- The co-authors, who moderate the thread together with the author. -/
  coAuthors : List UserId := []
  /-- Whether some comment of the thread is hidden by an author. -/
  anyCommentsHidden : Bool := false
  score : Int64 := 0
deriving DecidableEq, Repr, Inhabited

namespace Commentable

/-- The author followed by the co-authors. -/
def authors (owner : Commentable) : List UserId :=
  owner.user :: owner.coAuthors

/-- Whether the user wrote the commentable, alone or with others. -/
def isAuthor (owner : Commentable) (user : UserId) : Bool :=
  owner.authors.contains user

end Commentable

end Discussion
