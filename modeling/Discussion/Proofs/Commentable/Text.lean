import Mathlib.Data.List.TakeWhile
import Discussion.Commentable.Text
import Discussion.Proofs.Result
import Discussion.Proofs.Text.Word

/-!
# Spellings of references

A commentable is spelled by its kind, in one of two spellings, a mark and its number.  The number
contains no mark, so the text is cut at its last one.  Exactly these texts are read as references,
and the one that is written is among them.
-/

namespace Discussion

/-- The spellings of a kind. -/
def Kind.spellings : Kind → List String
  | .article => ["article", "Article"]
  | .podcastEpisode => ["podcast_episode", "PodcastEpisode"]

theorem Kind.read_eq_ok_iff {s : String} {kind : Kind} :
    Kind.read s = .ok kind ↔ s ∈ kind.spellings := by
  unfold Kind.read
  split
  · next hs =>
      rcases hs with rfl | rfl <;> cases kind <;> simp [spellings]
  · next hs =>
      split
      · next hs' =>
          rcases hs' with rfl | rfl <;> cases kind <;> simp [spellings]
      · next hs' =>
          cases kind <;> simp_all [spellings]

namespace Reference

/-- Whether a text spells a reference: a spelling of the kind, a hyphen or a colon, and a spelling
of the number. -/
def IsSpelled (s : String) (ref : Reference) : Prop :=
  ∃ spelling ∈ ref.kind.spellings, ∃ mark, (mark = '-' ∨ mark = ':') ∧
    ∃ number, SpellsWord number ref.id ∧ s.toList = spelling.toList ++ mark :: number

theorem isReferenceMark_iff {c : Char} : isReferenceMark c = true ↔ c = '-' ∨ c = ':' := by
  simp [isReferenceMark]

theorem not_isReferenceMark_of_spellsWord {number : List Char} {w : UInt64}
    (h : SpellsWord number w) : ∀ c ∈ number, isReferenceMark c = false := by
  obtain ⟨digits, hsign, -, hdigits, -⟩ := h
  have hall : ∀ c ∈ digits, isReferenceMark c = false := by
    intro c hc
    rw [Bool.eq_false_iff, Ne, isReferenceMark_iff]
    rintro (rfl | rfl)
    · exact absurd (hdigits _ hc) (by decide)
    · exact absurd (hdigits _ hc) (by decide)
  rcases hsign with rfl | rfl
  · exact hall
  · exact List.forall_mem_cons.mpr ⟨rfl, hall⟩

/-- A text is cut at the only mark that no other follows. -/
theorem splitReference?_eq_some_iff {cs kind number : List Char} :
    splitReference? cs = some (kind, number) ↔ ∃ mark, isReferenceMark mark = true ∧
      (∀ c ∈ number, isReferenceMark c = false) ∧ cs = kind ++ mark :: number := by
  constructor
  · intro h
    rw [splitReference?] at h
    cases hdrop : cs.reverse.dropWhile (!isReferenceMark ·) with
    | nil =>
        rw [hdrop] at h
        cases h
    | cons mark before =>
        rw [hdrop] at h
        obtain ⟨rfl, rfl⟩ := Prod.mk.inj (Option.some.inj h)
        refine ⟨mark, ?_, ?_, ?_⟩
        · have hstop := List.head?_dropWhile_not (!isReferenceMark ·) cs.reverse
          rw [hdrop] at hstop
          simpa using hstop
        · intro c hc
          simpa using List.mem_takeWhile_imp (List.mem_reverse.mp hc)
        · have hwhole : cs.reverse.takeWhile (!isReferenceMark ·) ++ mark :: before =
              cs.reverse := by
            rw [← hdrop]
            exact List.takeWhile_append_dropWhile
          simpa using (congrArg List.reverse hwhole).symm
  · rintro ⟨mark, hmark, hnumber, rfl⟩
    have hback : ∀ c ∈ number.reverse, (!isReferenceMark c) = true := by
      simpa using hnumber
    have hreverse : (kind ++ mark :: number).reverse =
        number.reverse ++ mark :: kind.reverse := by simp
    rw [splitReference?, hreverse, List.dropWhile_append_of_pos hback,
      List.takeWhile_append_of_pos hback]
    simp [hmark]

/-- A text is read as a reference exactly if it spells it. -/
theorem read_eq_ok_iff {s : String} {ref : Reference} : read s = .ok ref ↔ IsSpelled s ref := by
  constructor
  · intro h
    rw [read] at h
    split at h
    · cases h
    · next kind number hsplit =>
        split at h
        · cases h
        · next id hid =>
            obtain ⟨found, hkind, rfl⟩ := map_eq_ok_iff.mp h
            obtain ⟨mark, hmark, -, hs⟩ := splitReference?_eq_some_iff.mp hsplit
            refine ⟨String.ofList kind, Kind.read_eq_ok_iff.mp hkind, mark,
              isReferenceMark_iff.mp hmark, number, readWord?_eq_some_iff.mp hid, ?_⟩
            rw [String.toList_ofList]
            exact hs
  · rintro ⟨spelling, hspelling, mark, hmark, number, hnumber, hs⟩
    have hsplit : splitReference? s.toList = some (spelling.toList, number) :=
      splitReference?_eq_some_iff.mpr ⟨mark, isReferenceMark_iff.mpr hmark,
        not_isReferenceMark_of_spellsWord hnumber, hs⟩
    rw [read, hsplit]
    simp only [readWord?_eq_some_iff.mpr hnumber, String.ofList_toList,
      Kind.read_eq_ok_iff.mpr hspelling]
    rfl

/-- A text that is no reference is refused as an argument. -/
theorem exists_refusal_of_read {s : String} (h : ∀ ref, read s ≠ .ok ref) :
    ∃ refusal, read s = .error (.invalidArgument refusal) := by
  rw [read] at h ⊢
  split
  · exact ⟨_, rfl⟩
  · next kind number hsplit =>
      rw [hsplit] at h
      dsimp only at h
      split
      · exact ⟨_, rfl⟩
      · next id hid =>
          rw [hid] at h
          dsimp only at h
          unfold Kind.read at h ⊢
          split_ifs at h ⊢
          · exact absurd rfl (h _)
          · exact absurd rfl (h _)
          · exact ⟨_, rfl⟩

theorem toList_text (ref : Reference) :
    ref.text.toList = ref.kind.name.toList ++ '-' :: numeral ref.id.toNat := by
  simp [text, wordText, decimal, String.toList_append]

theorem isSpelled_text (ref : Reference) : IsSpelled ref.text ref := by
  have hname : ref.kind.name ∈ ref.kind.spellings := by cases ref.kind <;> decide
  exact ⟨_, hname, '-', Or.inl rfl, _, spellsWord_numeral ref.id, toList_text ref⟩

/-- A commentable is read back from its text. -/
theorem read_text (ref : Reference) : read ref.text = .ok ref :=
  read_eq_ok_iff.mpr (isSpelled_text ref)

theorem text_injective {a b : Reference} (h : a.text = b.text) : a = b := by
  have hread := read_text a
  rw [h, read_text b] at hread
  exact (Except.ok.inj hread).symm

end Reference

end Discussion
