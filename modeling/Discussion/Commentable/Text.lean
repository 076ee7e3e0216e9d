import Discussion.Fault
import Discussion.Text.Blank

/-!
# Texts of identities and references

Reading comment numbers, kinds and references from the texts in which a user
names them.  A reference is accepted with a colon for the hyphen; the number is
what follows the last of them.
-/

namespace Discussion

/-- The comment number that a text spells between blanks. -/
def CommentId.read (s : String) : Except Fault CommentId :=
  match wordOfString? (trimmed s) with
  | some n => .ok ⟨n⟩
  | none => .error (.invalidArgument (.commentNumber s))

/-- The kind that a text names, in either spelling. -/
def Kind.read (s : String) : Except Fault Kind :=
  if s = "article" ∨ s = "Article" then .ok .article
  else if s = "podcast_episode" ∨ s = "PodcastEpisode" then .ok .podcastEpisode
  else .error (.invalidArgument (.kind s))

/-- Whether the character may stand between the kind and the number of a reference. -/
def isReferenceMark (c : Char) : Bool :=
  c == '-' || c == ':'

/-- The parts of a text before and after its last mark. -/
def splitReference? (cs : List Char) : Option (List Char × List Char) :=
  let backwards := cs.reverse
  match backwards.dropWhile (!isReferenceMark ·) with
  | [] => none
  | _ :: kind => some (kind.reverse, (backwards.takeWhile (!isReferenceMark ·)).reverse)

/-- The reference that a text spells.  A bad number is reported before a bad kind. -/
def Reference.read (s : String) : Except Fault Reference :=
  match splitReference? s.toList with
  | none => .error (.invalidArgument (.referenceShape s))
  | some (kind, number) =>
      match readWord? number with
      | none => .error (.invalidArgument (.referenceNumber s))
      | some id => (Kind.read (String.ofList kind)).map fun kind => { kind := kind, id := id }

end Discussion
