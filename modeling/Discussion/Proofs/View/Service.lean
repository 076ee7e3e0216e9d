import Discussion.Program.World
import Discussion.Proofs.Result
import Discussion.View.Service

/-!
# What the service gives

A source answers in a monad of its own, so what the service gives is a computation.
A runner carries computations out from a state, and may change the state with every
answer.  Whatever the monad and its states are, the service gives what one function
makes of the commentable and the comments that were fetched, or the fault of the
first fetch that failed.
-/

namespace Discussion

/-- A way to carry out computations that pass on events. -/
structure Runner (m : Type → Type) [Monad m] [Reports m] (σ : Type) where
  run : {α : Type} → m α → σ → α × σ
  run_pure : ∀ {α : Type} (a : α) (s : σ), run (pure a) s = (a, s)
  run_bind : ∀ {α β : Type} (x : m α) (next : α → m β) (s : σ),
    run (x >>= next) s = run (next (run x s).1) (run x s).2
  value_absorb : ∀ {α : Type} (x : Logged α) (s : σ), (run (Reports.absorb x) s).1 = x.value

/-- Logged results are carried out by adding their events to those before them. -/
def Logged.runner : Runner Logged (List Event) where
  run x events := (x.value, events ++ x.events)
  run_pure a events := by simp
  run_bind x next events := by simp
  value_absorb x events := rfl

/-- Programs are carried out in a world. -/
def Program.runner : Runner Program World where
  run := Program.run
  run_pure := Program.run_pure
  run_bind := Program.run_bind
  value_absorb x world := by
    change (((reportAll x.events) >>= fun _ => pure x.value).run world).1 = x.value
    rw [Program.run_bind, Program.run_pure]

/-! ## Views of fetched comments -/

namespace ThreadView

theorem value_ofThread
    (settings : Settings) (ref : Reference) (viewer : Viewer) (limit : Option UInt64)
    (order : Order) (owner : Commentable) (comments : List Comment) :
    (ofThread settings ref viewer limit order owner comments).value =
      (Thread.build comments (settings.pages.limit ref.kind limit) order).value.map fun thread =>
        ofPlan settings ref viewer owner comments none
          (Request.plan { thresholds := settings.thresholds, viewer := viewer, permalink := none }
            thread) := by
  simp only [ofThread, Logged.value_bind]
  cases (Thread.build comments (settings.pages.limit ref.kind limit) order).value with
  | error fault => rfl
  | ok thread => rfl

theorem value_ofPermalink
    (settings : Settings) (ref : Reference) (id : CommentId) (viewer : Viewer)
    (owner : Commentable) (comments : List Comment) :
    (ofPermalink settings ref id viewer owner comments).value =
      (Thread.buildSubtree comments id .oldest).value.bind fun thread =>
        let plan := Request.plan
          { thresholds := settings.thresholds, viewer := viewer, permalink := some id } thread
        if (plan.find? id).any fun tree => tree.label.isRendered then
          .ok (ofPlan settings ref viewer owner comments (some id) plan)
        else .error (.noComment id) := by
  simp only [ofPermalink, Logged.value_bind]
  cases (Thread.buildSubtree comments id .oldest).value with
  | error fault => rfl
  | ok thread =>
      simp only [Logged.value_bind, Request.walk, Logged.value_pure, Except.bind]
      split <;> rfl

end ThreadView

/-! ## Views of a source -/

namespace Source

variable {m : Type → Type} [Monad m] [Reports m] {σ : Type}

/-- The commentable and the comments that a source answers with, asked for one after
the other. -/
def fetch (source : Source m) (runner : Runner m σ) (ref : Reference) (s : σ) :
    Except Fault (Commentable × List Comment) :=
  let asked := runner.run (source.commentable ref) s
  asked.1.bind fun owner =>
    (runner.run (source.comments ref) asked.2).1.map fun comments => (owner, comments)

theorem run_withThread
    (source : Source m) (runner : Runner m σ) (ref : Reference) (s : σ) {α : Type}
    (next : Commentable → List Comment → Logged (Except Fault α)) :
    (runner.run (source.withThread ref fun owner comments =>
        Reports.absorb (next owner comments)) s).1 =
      (source.fetch runner ref s).bind fun fetched => (next fetched.1 fetched.2).value := by
  simp only [withThread, fetch, runner.run_bind]
  cases (runner.run (source.commentable ref) s).1 with
  | error fault => simp [runner.run_pure, Except.bind]
  | ok owner =>
      simp only [runner.run_bind]
      cases (runner.run (source.comments ref) (runner.run (source.commentable ref) s).2).1 with
      | error fault => simp [runner.run_pure, Except.bind, Except.map]
      | ok comments => simp [runner.value_absorb, Except.bind, Except.map]

theorem run_thread
    (source : Source m) (runner : Runner m σ) (settings : Settings) (ref : Reference)
    (viewer : Viewer) (limit : Option UInt64) (order : Order) (s : σ) :
    (runner.run (source.thread settings ref viewer limit order) s).1 =
      (source.fetch runner ref s).bind fun fetched =>
        (ThreadView.ofThread settings ref viewer limit order fetched.1 fetched.2).value :=
  source.run_withThread runner ref s _

theorem run_permalink
    (source : Source m) (runner : Runner m σ) (settings : Settings) (ref : Reference)
    (id : CommentId) (viewer : Viewer) (s : σ) :
    (runner.run (source.permalink settings ref id viewer) s).1 =
      (source.fetch runner ref s).bind fun fetched =>
        (ThreadView.ofPermalink settings ref id viewer fetched.1 fetched.2).value :=
  source.run_withThread runner ref s _

end Source

end Discussion
