import Mathlib.Data.List.TakeWhile
import Discussion.Text.Blank

/-!
# Trimmed texts

A trimmed text is what remains between blanks.  It is determined by not beginning and not ending
with a blank, so it is found by skipping blanks from either end.
-/

namespace Discussion

/-- Whether a text is another one between blanks, and neither begins nor ends with a blank. -/
structure TrimsTo (cs trimmed : List Char) : Prop where
  around : ∃ before after, cs = before ++ trimmed ++ after ∧
    (∀ c ∈ before, isBlank c = true) ∧ ∀ c ∈ after, isBlank c = true
  head : ∀ c ∈ trimmed.head?, isBlank c = false
  last : ∀ c ∈ trimmed.getLast?, isBlank c = false

theorem skipBlanks_append {before rest : List Char} (hbefore : ∀ c ∈ before, isBlank c = true)
    (hrest : ∀ c ∈ rest.head?, isBlank c = false) : skipBlanks (before ++ rest) = rest := by
  rw [skipBlanks, List.dropWhile_append_of_pos hbefore]
  cases rest with
  | nil => rfl
  | cons c rest => rw [List.dropWhile_cons_of_neg (by simp [hrest c rfl])]

theorem exists_skipBlanks (cs : List Char) :
    ∃ before, cs = before ++ skipBlanks cs ∧ (∀ c ∈ before, isBlank c = true) ∧
      ∀ c ∈ (skipBlanks cs).head?, isBlank c = false := by
  refine ⟨cs.takeWhile isBlank, List.takeWhile_append_dropWhile.symm,
    fun c hc => List.mem_takeWhile_imp hc, fun c hc => ?_⟩
  have hnot := List.head?_dropWhile_not isBlank cs
  rw [show (cs.dropWhile isBlank).head? = some c from hc] at hnot
  exact hnot

theorem trimBlanks_of_trimsTo {cs trimmed : List Char} (h : TrimsTo cs trimmed) :
    trimBlanks cs = trimmed := by
  obtain ⟨⟨before, after, rfl, hbefore, hafter⟩, hhead, hlast⟩ := h
  have hback : ∀ c ∈ after.reverse, isBlank c = true := by simpa using hafter
  cases trimmed with
  | nil =>
      have hall : ∀ c ∈ before ++ after, isBlank c = true := by
        simpa [or_imp, forall_and] using ⟨hbefore, hafter⟩
      rw [List.append_nil, trimBlanks, ← List.append_nil (before ++ after),
        skipBlanks_append hall (by simp)]
      rfl
  | cons c rest =>
      have hfront : skipBlanks (before ++ (c :: rest) ++ after) = (c :: rest) ++ after := by
        rw [List.append_assoc]
        exact skipBlanks_append hbefore hhead
      have hends : ∀ d ∈ (c :: rest).reverse.head?, isBlank d = false := by
        rwa [List.head?_reverse]
      rw [trimBlanks, hfront, List.reverse_append, skipBlanks_append hback hends,
        List.reverse_reverse]

theorem trimsTo_trimBlanks (cs : List Char) : TrimsTo cs (trimBlanks cs) := by
  obtain ⟨before, hbefore, hblank, hhead⟩ := exists_skipBlanks cs
  obtain ⟨back, hback, hblank', hlast⟩ := exists_skipBlanks (skipBlanks cs).reverse
  have hrest : skipBlanks cs = trimBlanks cs ++ back.reverse := by
    rw [trimBlanks, ← List.reverse_append, ← hback, List.reverse_reverse]
  refine ⟨⟨before, back.reverse, ?_, hblank, by simpa using hblank'⟩, ?_, ?_⟩
  · rw [List.append_assoc, ← hrest]
    exact hbefore
  · intro c hc
    refine hhead c ?_
    rw [hrest, List.head?_append, Option.mem_def.mp hc]
    rfl
  · rw [trimBlanks, List.getLast?_reverse]
    exact hlast

theorem trimBlanks_eq_iff {cs trimmed : List Char} :
    trimBlanks cs = trimmed ↔ TrimsTo cs trimmed :=
  ⟨fun h => h ▸ trimsTo_trimBlanks cs, trimBlanks_of_trimsTo⟩

/-- A text that neither begins nor ends with a blank is trimmed. -/
theorem TrimsTo.refl {cs : List Char} (hhead : ∀ c ∈ cs.head?, isBlank c = false)
    (hlast : ∀ c ∈ cs.getLast?, isBlank c = false) : TrimsTo cs cs :=
  ⟨⟨[], [], by simp, by simp, by simp⟩, hhead, hlast⟩

/-- Nothing remains exactly of the blanks. -/
theorem trimBlanks_eq_nil_iff {cs : List Char} :
    trimBlanks cs = [] ↔ ∀ c ∈ cs, isBlank c = true := by
  rw [trimBlanks_eq_iff]
  constructor
  · rintro ⟨⟨before, after, rfl, hbefore, hafter⟩, -, -⟩
    simpa [or_imp, forall_and] using ⟨hbefore, hafter⟩
  · intro hall
    exact ⟨⟨cs, [], by simp, hall, by simp⟩, by simp, by simp⟩

end Discussion
