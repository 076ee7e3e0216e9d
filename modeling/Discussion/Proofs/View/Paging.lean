import Discussion.Proofs.Plan.Roots
import Discussion.Proofs.Thread.Whole
import Discussion.Proofs.View.Service
import Discussion.Snapshot

/-!
# Pages of a thread

A view of a thread shows the first roots of the plan for the whole thread, as many as are
asked for and may be shown.  A root is decided about together with all that stands below
it and with nothing beside it.  So whoever asks for more roots is shown the same ones
first, with the same replies, and the rest of the view does not change.
-/

namespace Discussion

namespace PageSizes

/-- The number of root comments that is wanted, whether or not one is requested. -/
def wanted (sizes : PageSizes) (kind : Kind) (requested : Option UInt64) : UInt64 :=
  requested.getD (sizes.kindSize kind)

variable {sizes : PageSizes} {kind : Kind}

theorem toNat_limit (requested : Option UInt64) :
    (sizes.limit kind requested).toNat =
      min (sizes.wanted kind requested).toNat sizes.maximum.toNat :=
  UInt64.toNat_min _ _

theorem toNat_limit_mono {requested more : Option UInt64}
    (hle : sizes.wanted kind requested ≤ sizes.wanted kind more) :
    (sizes.limit kind requested).toNat ≤ (sizes.limit kind more).toNat := by
  have hnat := UInt64.le_iff_toNat_le.mp hle
  rw [toNat_limit, toNat_limit]
  omega

end PageSizes

namespace ThreadView

variable {settings : Settings} {ref : Reference} {viewer : Viewer} {limit : Option UInt64}
  {order : Order} {owner : Commentable} {comments : List Comment} {view : ThreadView}

/-- The plan for the whole thread of a list of comments. -/
def wholePlan (settings : Settings) (viewer : Viewer) (order : Order) (comments : List Comment) :
    Plan :=
  Request.plan { thresholds := settings.thresholds, viewer := viewer, permalink := none }
    (Thread.ofRoster (Roster.ofList comments) order)

theorem rootCount_wholePlan
    (settings : Settings) (viewer : Viewer) (order : Order) (comments : List Comment) :
    (wholePlan settings viewer order comments).rootCount = (founders comments).length := by
  rw [wholePlan, Request.rootCount_plan, Thread.rootCount_ofRoster (Roster.knows_ofList comments)]

/-- A view of a thread shows the first roots of the plan for the whole thread. -/
theorem value_ofThread_eq_ite
    (settings : Settings) (ref : Reference) (viewer : Viewer) (limit : Option UInt64)
    (order : Order) (owner : Commentable) (comments : List Comment) :
    (ofThread settings ref viewer limit order owner comments).value =
      if settings.pages.limit ref.kind limit = 0 then .error (.invalidArgument .zeroLimit)
      else .ok (ofPlan settings ref viewer owner comments none
        ((wholePlan settings viewer order comments).take
          (settings.pages.limit ref.kind limit).toNat)) := by
  rw [value_ofThread]
  split
  next hzero =>
    rw [hzero, Thread.value_build_zero]
    rfl
  next hpositive =>
    rw [Thread.value_build hpositive, Except.map, Request.plan_take]
    rfl

theorem value_ofThread_eq_ok_iff :
    (ofThread settings ref viewer limit order owner comments).value = .ok view ↔
      settings.pages.limit ref.kind limit ≠ 0 ∧
        view = ofPlan settings ref viewer owner comments none
          ((wholePlan settings viewer order comments).take
            (settings.pages.limit ref.kind limit).toNat) := by
  rw [value_ofThread_eq_ite]
  split
  next hzero => simp [hzero]
  next hpositive => simp [hpositive, eq_comm]

theorem roots_of_value_ofThread
    (hview : (ofThread settings ref viewer limit order owner comments).value = .ok view) :
    view.plan.roots = (wholePlan settings viewer order comments).roots.take
      (settings.pages.limit ref.kind limit).toNat := by
  obtain ⟨-, rfl⟩ := value_ofThread_eq_ok_iff.mp hview
  exact Forest.roots_take _ _

theorem rootCount_of_value_ofThread
    (hview : (ofThread settings ref viewer limit order owner comments).value = .ok view) :
    view.plan.rootCount =
      min (min (settings.pages.wanted ref.kind limit).toNat settings.pages.maximum.toNat)
        (founders comments).length := by
  rw [Forest.rootCount, Forest.trees_eq, roots_of_value_ofThread hview, List.length_take,
    PageSizes.toNat_limit, ← rootCount_wholePlan settings viewer order comments,
    Forest.rootCount, Forest.trees_eq]

/-- A page grows into every longer page. -/
theorem exists_longer_of_value_ofThread {more : Option UInt64}
    (hle : settings.pages.wanted ref.kind limit ≤ settings.pages.wanted ref.kind more)
    {page : ThreadView}
    (hpage : (ofThread settings ref viewer limit order owner comments).value = .ok page) :
    ∃ longer, (ofThread settings ref viewer more order owner comments).value = .ok longer ∧
      page.plan.roots <+: longer.plan.roots ∧ longer = { page with plan := longer.plan } := by
  have hmono : (settings.pages.limit ref.kind limit).toNat ≤
      (settings.pages.limit ref.kind more).toNat := PageSizes.toNat_limit_mono hle
  obtain ⟨hpositive, rfl⟩ := value_ofThread_eq_ok_iff.mp hpage
  -- Only a limit of zero is refused, and the greater one is not zero either.
  have hpositive' : settings.pages.limit ref.kind more ≠ 0 := by
    intro hzero
    rw [hzero, UInt64.toNat_zero, Nat.le_zero] at hmono
    exact hpositive (UInt64.toNat_inj.mp hmono)
  refine ⟨_, value_ofThread_eq_ok_iff.mpr ⟨hpositive', rfl⟩, ?_, rfl⟩
  simp only [ofPlan, Forest.roots_take]
  exact List.take_prefix_take_left hmono

end ThreadView

namespace Source

variable {m : Type → Type} [Monad m] [Reports m] {σ : Type}

/-- Whoever asks for more roots of the same thread is shown the same ones first, each with
the same replies, and as many as there are, may be shown and were asked for. -/
theorem thread_paged
    {source : Source m} {runner : Runner m σ} {ref : Reference} {s t : σ}
    (hsame : source.fetch runner ref t = source.fetch runner ref s) {settings : Settings}
    {viewer : Viewer} {order : Order} {limit more : Option UInt64}
    (hle : settings.pages.wanted ref.kind limit ≤ settings.pages.wanted ref.kind more)
    {page : ThreadView}
    (hpage : (runner.run (source.thread settings ref viewer limit order) s).1 = .ok page) :
    ∃ owner comments longer, source.fetch runner ref s = .ok (owner, comments) ∧
      (runner.run (source.thread settings ref viewer more order) t).1 = .ok longer ∧
      page.plan.roots <+: longer.plan.roots ∧ longer = { page with plan := longer.plan } ∧
      page.plan.rootCount =
        min (min (settings.pages.wanted ref.kind limit).toNat settings.pages.maximum.toNat)
          (founders comments).length ∧
      longer.plan.rootCount =
        min (min (settings.pages.wanted ref.kind more).toNat settings.pages.maximum.toNat)
          (founders comments).length := by
  rw [run_thread, bind_eq_ok_iff] at hpage
  obtain ⟨⟨owner, comments⟩, hfetch, hpage⟩ := hpage
  obtain ⟨longer, hlonger, hroots, hrest⟩ :=
    ThreadView.exists_longer_of_value_ofThread hle hpage
  refine ⟨owner, comments, longer, hfetch, ?_, hroots, hrest,
    ThreadView.rootCount_of_value_ofThread hpage, ThreadView.rootCount_of_value_ofThread hlonger⟩
  rw [run_thread, hsame, hfetch]
  exact hlonger

/-- Three roots, the first two with replies. -/
def threeRoots : Snapshot where
  commentable := { reference := { kind := .podcastEpisode, id := 1 }, user := ⟨1⟩ }
  comments :=
    [(1, none), (2, some 1), (3, none), (4, some 3), (5, some 4), (6, none)].map
      fun (id, parent) =>
        { id := ⟨id⟩
          parent := parent.map CommentId.mk
          commentable := { kind := .podcastEpisode, id := 1 }
          user := ⟨1⟩
          createdAt := .epoch }

theorem thread_paged_threeRoots :
    let settings : Settings := { pages := { minimum := 1, maximum := 2, podcast := 5 } }
    let answer (limit : Option UInt64) := (Logged.runner.run
      (threeRoots.source.thread settings threeRoots.reference .anonymous limit .oldest) []).1
    settings.pages.wanted .podcastEpisode (some 1) ≤ settings.pages.wanted .podcastEpisode none ∧
      ∃ page longer, answer (some 1) = .ok page ∧ answer none = .ok longer ∧
        page.plan.roots <+: longer.plan.roots ∧ page.plan.rootCount = 1 ∧
        longer.plan.rootCount = 2 := by
  intro settings answer
  have hle : settings.pages.wanted .podcastEpisode (some 1) ≤
      settings.pages.wanted .podcastEpisode none := by decide
  obtain ⟨page, hpage⟩ : ∃ page, answer (some 1) = .ok page := ⟨_, rfl⟩
  obtain ⟨owner, comments, longer, hfetch, hlonger, hroots, -, hcount, hcount'⟩ :=
    thread_paged (t := []) rfl hle hpage
  obtain ⟨rfl, rfl⟩ := Prod.ext_iff.mp (Except.ok.inj hfetch)
  exact ⟨hle, page, longer, hpage, hlonger, hroots, hcount, hcount'⟩

end Source

end Discussion
