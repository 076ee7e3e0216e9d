import Discussion.Proofs.Thread.Agreement
import Discussion.Proofs.View.Paging
import Discussion.Settings.Basic

/-!
# Requests for a thread on a site with valid settings

Valid settings leave room for at least one root comment on a page of either kind.  So on
a site with valid settings only a request for no comments at all is refused.  Any other
request is granted, with as many roots as there are, as were wanted and as may be shown;
and where the parents of the comments never lead round in a circle, whoever asks for a
thread without naming a number is shown a root of it.
-/

namespace Discussion

namespace Settings

theorem validate_eq_ok_iff {settings : Settings} :
    settings.validate = .ok () ↔
      settings.thresholds.suppression < settings.thresholds.lowQuality ∧
        settings.pages.minimum ≠ 0 ∧ settings.pages.minimum ≤ settings.pages.maximum ∧
        settings.pages.podcast ≠ 0 := by
  unfold validate
  dsimp only
  split
  next hthresholds => simp [Int64.not_lt.mpr hthresholds]
  next hthresholds =>
    split
    next hminimum => simp [hminimum]
    next hminimum =>
      split
      next hmaximum => simp [UInt64.not_le.mpr hmaximum]
      next hmaximum =>
        split
        next hpodcast => simp [hpodcast]
        next hpodcast =>
          simp [Int64.not_le.mp hthresholds, hminimum, UInt64.not_lt.mp hmaximum, hpodcast]

variable {settings : Settings}

theorem maximum_ne_zero (h : settings.validate = .ok ()) : settings.pages.maximum ≠ 0 := by
  obtain ⟨-, hminimum, hmaximum, -⟩ := validate_eq_ok_iff.mp h
  intro hzero
  rw [hzero, UInt64.le_zero_iff] at hmaximum
  exact hminimum hmaximum

theorem kindSize_ne_zero (h : settings.validate = .ok ()) (kind : Kind) :
    settings.pages.kindSize kind ≠ 0 := by
  obtain ⟨-, -, -, hpodcast⟩ := validate_eq_ok_iff.mp h
  cases kind with
  | article => exact maximum_ne_zero h
  | podcastEpisode => exact hpodcast

theorem wanted_eq_zero_iff
    (h : settings.validate = .ok ()) (kind : Kind) (requested : Option UInt64) :
    settings.pages.wanted kind requested = 0 ↔ requested = some 0 := by
  cases requested with
  | none => simpa [PageSizes.wanted] using kindSize_ne_zero h kind
  | some limit => simp [PageSizes.wanted]

/-- Under valid settings no page is empty unless an empty one was asked for. -/
theorem limit_eq_zero_iff
    (h : settings.validate = .ok ()) (kind : Kind) (requested : Option UInt64) :
    settings.pages.limit kind requested = 0 ↔ requested = some 0 := by
  have hmaximum : settings.pages.maximum.toNat ≠ 0 := by
    intro hzero
    exact maximum_ne_zero h (UInt64.toNat_inj.mp hzero)
  rw [← wanted_eq_zero_iff h kind requested, ← UInt64.toNat_inj, ← UInt64.toNat_inj,
    PageSizes.toNat_limit, UInt64.toNat_zero]
  omega

end Settings

/-! ## Threads with a root -/

/-- Whether the parents of the first comments of a list never lead round in a circle. -/
def IsAcyclic (comments : List Comment) : Prop :=
  ∀ c ∈ firsts comments,
    ¬Relation.TransGen (fun a b => resolvedParent? comments a = some b) c c

theorem firsts_ne_nil {comments : List Comment} (h : comments ≠ []) : firsts comments ≠ [] := by
  obtain ⟨c, rest, rfl⟩ := List.exists_cons_of_ne_nil h
  exact List.cons_ne_nil _ _

theorem founders_ne_nil {comments : List Comment} (hne : comments ≠ [])
    (hacyclic : IsAcyclic comments) :
    founders comments ≠ [] := by
  obtain ⟨c, hc⟩ := List.exists_mem_of_ne_nil _ (firsts_ne_nil hne)
  have hanchored : IsAnchored comments c := by
    by_contra hloose
    obtain ⟨d, hline, hcircle⟩ := runsIntoCircle_of_not_isAnchored hc hloose
    exact hacyclic d (mem_firsts_of_descendsFrom hc hline) hcircle
  obtain ⟨founder, hline, hnone⟩ := hanchored
  exact List.ne_nil_of_mem (mem_founders_iff.mpr ⟨mem_firsts_of_descendsFrom hc hline, hnone⟩)

/-- Where every reply has a greater number than its parent, no line comes back. -/
theorem isAcyclic_of_lt {comments : List Comment}
    (h : ∀ c ∈ firsts comments, ∀ parent ∈ resolvedParent? comments c,
      parent.id.value < c.id.value) :
    IsAcyclic comments := by
  have hline : ∀ c ∈ firsts comments, ∀ d,
      Relation.TransGen (fun a b => resolvedParent? comments a = some b) c d →
        d.id.value < c.id.value := by
    intro c hc d hcd
    induction hcd with
    | single hparent => exact h c hc _ hparent
    | @tail b d hcb hparent ih =>
        have hb := mem_firsts_of_descendsFrom hc hcb.to_reflTransGen
        exact UInt64.lt_trans (h b hb d hparent) ih
  intro c hc hcircle
  exact UInt64.lt_irrefl _ (hline c hc c hcircle)

/-! ## Answers -/

/-- What is answered to a request for the thread of some comments. -/
structure Settings.Grants (settings : Settings) (kind : Kind) (limit : Option UInt64)
    (comments : List Comment) (answer : Except Fault ThreadView) : Prop where
  refused_iff : (∃ refusal, answer = .error (.invalidArgument refusal)) ↔ limit = some 0
  granted : limit ≠ some 0 → ∃ view, answer = .ok view ∧
    view.plan.rootCount =
      min (min (founders comments).length (settings.pages.wanted kind limit).toNat)
        settings.pages.maximum.toNat
  unnumbered : limit = none → comments ≠ [] → IsAcyclic comments →
    ∃ view, answer = .ok view ∧ view.plan.roots ≠ []

theorem ThreadView.grants_ofThread
    {settings : Settings} (hvalid : settings.validate = .ok ()) (ref : Reference)
    (viewer : Viewer) (limit : Option UInt64) (order : Order) (owner : Commentable)
    (comments : List Comment) :
    settings.Grants ref.kind limit comments
      (ofThread settings ref viewer limit order owner comments).value := by
  have hlimit := Settings.limit_eq_zero_iff hvalid ref.kind limit
  have hgranted : limit ≠ some 0 →
      ∃ view, (ofThread settings ref viewer limit order owner comments).value = .ok view ∧
        view.plan.rootCount =
          min (min (founders comments).length (settings.pages.wanted ref.kind limit).toNat)
            settings.pages.maximum.toNat := by
    intro hsome
    obtain ⟨view, hview⟩ : ∃ view,
        (ofThread settings ref viewer limit order owner comments).value = .ok view := by
      rw [value_ofThread_eq_ite, if_neg fun hzero => hsome (hlimit.mp hzero)]
      exact ⟨_, rfl⟩
    refine ⟨view, hview, ?_⟩
    rw [rootCount_of_value_ofThread hview]
    omega
  refine ⟨?_, hgranted, ?_⟩
  · constructor
    · rintro ⟨refusal, hrefused⟩
      by_contra hsome
      obtain ⟨view, hview, -⟩ := hgranted hsome
      rw [hview] at hrefused
      cases hrefused
    · intro hzero
      rw [value_ofThread_eq_ite, if_pos (hlimit.mpr hzero)]
      exact ⟨_, rfl⟩
  · intro hnone hne hacyclic
    obtain ⟨view, hview, hcount⟩ := hgranted (by simp [hnone])
    refine ⟨view, hview, ?_⟩
    have hfounders := List.length_pos_of_ne_nil (founders_ne_nil hne hacyclic)
    have hpositive : (settings.pages.limit ref.kind limit).toNat ≠ 0 := by
      intro hzero
      have hsome := hlimit.mp (UInt64.toNat_inj.mp hzero)
      rw [hnone] at hsome
      cases hsome
    rw [PageSizes.toNat_limit] at hpositive
    rw [← List.length_pos_iff, ← Forest.trees_eq, ← Forest.rootCount, hcount]
    omega

namespace Source

variable {m : Type → Type} [Monad m] [Reports m] {σ : Type}

/-- On a site with valid settings a thread whose comments could be fetched is shown to
everybody who does not ask for no comments at all. -/
theorem thread_grants
    {settings : Settings} (hvalid : settings.validate = .ok ()) {source : Source m}
    {runner : Runner m σ} {ref : Reference} {s : σ} {owner : Commentable}
    {comments : List Comment} (hfetch : source.fetch runner ref s = .ok (owner, comments))
    (viewer : Viewer) (limit : Option UInt64) (order : Order) :
    settings.Grants ref.kind limit comments
      (runner.run (source.thread settings ref viewer limit order) s).1 := by
  rw [run_thread, hfetch]
  exact ThreadView.grants_ofThread hvalid ref viewer limit order owner comments

/-- A page of two roots at most, and of five for an episode if that were allowed. -/
def twoRootsAtMost : Settings where
  pages := { minimum := 1, maximum := 2, podcast := 5 }

theorem thread_grants_threeRoots :
    twoRootsAtMost.validate = .ok () ∧ IsAcyclic threeRoots.comments ∧
      twoRootsAtMost.Grants .podcastEpisode none threeRoots.comments
        (Logged.runner.run
          (threeRoots.source.thread twoRootsAtMost threeRoots.reference .anonymous none .top)
          []).1 := by
  have hvalid : twoRootsAtMost.validate = .ok () := by decide
  have hfetch : threeRoots.source.fetch Logged.runner threeRoots.reference [] =
      .ok (threeRoots.commentable, threeRoots.comments) := rfl
  exact ⟨hvalid, isAcyclic_of_lt (by decide), thread_grants hvalid hfetch .anonymous none .top⟩

end Source

end Discussion
