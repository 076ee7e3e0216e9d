import Discussion.Commentable.Basic

/-!
# Faults

The ways in which an operation of the library can fail.  A fault records its
cause; `Fault.message` gives its wording, and `Fault.causes` the wordings of
the faults it was raised from.
-/

namespace Discussion

/-- Why an argument is refused. -/
inductive Refusal
  /-- A text that is no comment number. -/
  | commentNumber (text : String)
  /-- A text that names no kind of commentable. -/
  | kind (text : String)
  /-- A text without the hyphen or colon of a reference. -/
  | referenceShape (text : String)
  /-- A text whose last part is no commentable number. -/
  | referenceNumber (text : String)
  /-- A text that names no order of siblings. -/
  | order (text : String)
  /-- A text that is neither `anonymous` nor starts with `user`. -/
  | viewerShape (text : String)
  /-- A viewer's text without a user number. -/
  | viewerNumber (text : String)
  /-- A comment that replies to itself. -/
  | ownParent (id : CommentId)
  /-- A request for no comments at all. -/
  | zeroLimit
  /-- A comment of a snapshot that belongs to another commentable. -/
  | strayComment (id : CommentId) (its owner : Reference)
  /-- A refusal by a caller of the library, in the caller's words. -/
  | other (text : String)
deriving DecidableEq, Repr

/-- The wording of a refusal. -/
def Refusal.message : Refusal → String
  | .commentNumber text => "Invalid comment ID: " ++ text
  | .kind text => "Unknown commentable type: " ++ text
  | .referenceShape text => "Invalid commentable '" ++ text ++ "', expected <kind>-<id>"
  | .referenceNumber text => "Invalid commentable id in '" ++ text ++ "'"
  | .order text => "Unknown comment order: " ++ text
  | .viewerShape text =>
      "Invalid viewer '" ++ text ++ "', expected anonymous or user:<id>[:roles]"
  | .viewerNumber text => "Invalid viewer user id in '" ++ text ++ "'"
  | .ownParent id => "Comment " ++ id.text ++ " cannot be its own parent"
  | .zeroLimit => "comment limit must be greater than zero"
  | .strayComment id its owner =>
      "Comment " ++ id.text ++ " belongs to " ++ its.text ++ ", not " ++ owner.text
  | .other text => text

/-- Why a configuration is refused. -/
inductive Misconfiguration
  /-- The low quality threshold is not above the suppression threshold. -/
  | thresholds (suppression lowQuality : Int64)
  /-- No thread would be shown inline. -/
  | minimumZero
  /-- The maximum of comments is below the minimum. -/
  | maximumBelowMinimum (maximum minimum : UInt64)
  /-- No comment of a podcast episode would be shown. -/
  | podcastZero
  /-- A refusal by a caller of the library, in the caller's words. -/
  | other (text : String)
deriving DecidableEq, Repr

/-- The wording of a misconfiguration. -/
def Misconfiguration.message : Misconfiguration → String
  | .thresholds suppression lowQuality =>
      "low_quality_threshold (" ++ signedWordText lowQuality ++
        ") must be greater than suppression_threshold (" ++ signedWordText suppression ++ ")"
  | .minimumZero => "min_comments must be at least 1"
  | .maximumBelowMinimum maximum minimum =>
      "max_comments (" ++ wordText maximum ++ ") must not be less than min_comments (" ++
        wordText minimum ++ ")"
  | .podcastZero => "podcast_limit must be at least 1"
  | .other text => text

/-- The ways in which an operation fails. -/
inductive Fault
  | invalidArgument (refusal : Refusal)
  /-- The comment does not exist, or the viewer may not see it. -/
  | commentNotFound (text : String)
  | commentableNotFound (text : String)
  /-- The disk refused, for the stated reason. -/
  | io (detail : String)
  /-- Data that is not the JSON form of what was expected. -/
  | serialization (detail : String)
  /-- Data that is not the TOML form of what was expected, or that has none. -/
  | toml (detail : String)
  | configuration (cause : Misconfiguration)
  | fileNotFound (path : String)
  | unsupportedSchema (version : String)
  /-- A fault of a source of comments, passed on in the source's words. -/
  | source (text : String)
  /-- A fault together with what was being done when it arose. -/
  | context (doing : String) (cause : Fault)
deriving DecidableEq, Repr

namespace Fault

/-- The wording of a fault. -/
def message : Fault → String
  | .invalidArgument refusal => "Invalid argument: " ++ refusal.message
  | .commentNotFound text => "Comment not found: " ++ text
  | .commentableNotFound text => "Commentable not found: " ++ text
  | .io detail => "IO error: " ++ detail
  | .serialization detail => "Serialization error: " ++ detail
  | .toml detail => "TOML error: " ++ detail
  | .configuration cause => "Configuration error: " ++ cause.message
  | .fileNotFound path => "File not found: " ++ path
  | .unsupportedSchema version => "Unsupported schema version: " ++ version
  | .source text => text
  | .context doing cause => doing ++ ": " ++ cause.message

/-- The wordings of the faults below a fault, the nearest first. -/
def causes : Fault → List String
  | .context _ cause => cause.message :: cause.causes
  | .io detail => [detail]
  | _ => []

/-- The fault for a comment that is not there. -/
def noComment (id : CommentId) : Fault :=
  .commentNotFound id.text

/-- The fault for a commentable that is not there. -/
def noCommentable (ref : Reference) : Fault :=
  .commentableNotFound ref.text

end Fault

end Discussion
