import Discussion.Disk.Basic
import Discussion.Proofs.Text.Split

/-!
# Paths of names in a directory

The path of a name seen from a directory has the names of the directory's path and then
that name, whether or not a slash stands between them already.
-/

namespace Discussion

/-- A name that a directory may give to something in it. -/
structure IsName (name : String) : Prop where
  ne_empty : name ≠ ""
  no_slash : '/' ∉ name.toList
  ne_here : name ≠ "."
  ne_outer : name ≠ ".."
  short : name.utf8ByteSize ≤ maxNameBytes

theorem IsName.toList_ne_nil {name : String} (h : IsName name) : name.toList ≠ [] := by
  intro hnil
  exact h.ne_empty (String.toList_eq_nil_iff.mp hnil)

theorem IsName.isAbsolute_eq {name : String} (h : IsName name) : isAbsolute name = false := by
  obtain ⟨c, cs, hcs⟩ := List.exists_cons_of_ne_nil h.toList_ne_nil
  have hc : c ≠ '/' := by
    rintro rfl
    exact h.no_slash (by simp [hcs])
  simpa [isAbsolute, hcs] using hc

/-- The text of a name seen from a directory. -/
theorem joinPath_cases {name : String} (h : IsName name) (directory : String) :
    (directory = "" ∧ joinPath directory name = name) ∨
      (∃ before, directory.toList = before ++ ['/'] ∧
        (joinPath directory name).toList = before ++ '/' :: name.toList) ∨
      (directory ≠ "" ∧
        (joinPath directory name).toList = directory.toList ++ '/' :: name.toList) := by
  have hrelative : ¬ isAbsolute name = true := by simp [h.isAbsolute_eq]
  rw [joinPath, if_neg hrelative]
  by_cases hempty : directory = ""
  · left
    rw [if_pos (Or.inl hempty), hempty]
    exact ⟨rfl, String.empty_append⟩
  · by_cases hslash : directory.toList.getLast? = some '/'
    · obtain ⟨before, hbefore⟩ := List.getLast?_eq_some_iff.mp hslash
      right; left
      refine ⟨before, hbefore, ?_⟩
      rw [if_pos (Or.inr hslash), String.toList_append, hbefore, List.append_assoc]
      rfl
    · right; right
      have hneither : ¬ (directory = "" ∨ directory.toList.getLast? = some '/') := by
        rintro (hcase | hcase)
        · exact hempty hcase
        · exact hslash hcase
      rw [if_neg hneither, String.toList_append, String.toList_append, List.append_assoc]
      exact ⟨hempty, rfl⟩

theorem innerNames_joinPath {name : String} (h : IsName name) (directory : String) :
    innerNames (joinPath directory name) = innerNames directory ++ [name] := by
  have hlast : (splitAtMarks '/' name.toList).filter (fun part => !part.isEmpty) =
      [name.toList] := by
    rw [splitAtMarks_of_notMem h.no_slash]
    simp [h.toList_ne_nil]
  rcases joinPath_cases h directory with ⟨rfl, hjoin⟩ | ⟨before, hbefore, hjoin⟩ | ⟨hne, hjoin⟩
  · rw [innerNames, hjoin, hlast]
    simp [innerNames, splitAtMarks]
  · rw [innerNames, hjoin, splitAtMarks_append, List.filter_append, hlast, innerNames, hbefore,
      splitAtMarks_append]
    simp [splitAtMarks]
  · rw [innerNames, hjoin, splitAtMarks_append, List.filter_append, hlast]
    simp [innerNames]

theorem joinPath_ne_empty {name : String} (h : IsName name) (directory : String) :
    joinPath directory name ≠ "" := by
  intro hempty
  have hnames := innerNames_joinPath h directory
  rw [hempty] at hnames
  exact absurd (congrArg List.length hnames) (by simp [innerNames, splitAtMarks])

theorem pathNames_joinPath {name : String} (h : IsName name) (directory : String) :
    pathNames (joinPath directory name) = innerNames directory ++ [name] := by
  obtain ⟨before, hjoin⟩ : ∃ before, (joinPath directory name).toList = before ++ name.toList := by
    rcases joinPath_cases h directory with ⟨-, hjoin⟩ | ⟨before, -, hjoin⟩ | ⟨-, hjoin⟩
    · exact ⟨[], by rw [hjoin, List.nil_append]⟩
    · exact ⟨before ++ ['/'], by rw [hjoin, List.append_assoc]; rfl⟩
    · exact ⟨directory.toList ++ ['/'], by rw [hjoin, List.append_assoc]; rfl⟩
  have hend : (joinPath directory name).toList.getLast? ≠ some '/' := by
    intro hlast
    rw [hjoin, List.getLast?_append] at hlast
    cases hname : name.toList.getLast? with
    | none => exact h.toList_ne_nil (List.getLast?_eq_none_iff.mp hname)
    | some c =>
        rw [hname, Option.some_or] at hlast
        exact h.no_slash (List.mem_of_getLast? (hname.trans hlast))
  rw [pathNames, innerNames_joinPath h, if_neg hend, List.append_nil]

theorem isAbsolute_joinPath {name : String} (h : IsName name) (directory : String) :
    isAbsolute (joinPath directory name) = isAbsolute directory := by
  rcases joinPath_cases h directory with ⟨rfl, hjoin⟩ | ⟨before, hbefore, hjoin⟩ | ⟨hne, hjoin⟩
  · rw [hjoin, h.isAbsolute_eq]
    rfl
  · rw [isAbsolute, isAbsolute, hjoin, hbefore]
    cases before <;> rfl
  · rw [isAbsolute, isAbsolute, hjoin]
    obtain ⟨c, cs, hcs⟩ := List.exists_cons_of_ne_nil
      (fun hnil => hne (String.toList_eq_nil_iff.mp hnil))
    rw [hcs]
    rfl

theorem waypoints_ne_nil {before part : List Char} {parts : List (List Char)}
    (hmem : part ∈ parts) (hnonempty : part ≠ []) (hhere : part ≠ ['.']) :
    waypoints before parts ≠ [] := by
  induction parts generalizing before with
  | nil => cases hmem
  | cons first parts ih =>
      rw [waypoints]
      split
      · exact List.cons_ne_nil _ _
      · next hleads =>
          rcases List.mem_cons.mp hmem with rfl | hrest
          · exact absurd (by simp [leadsOn, hnonempty, hhere]) hleads
          · exact ih hrest

/-- There is a way to a name in a directory. -/
theorem pathsTo_joinPath_ne_nil {name : String} (h : IsName name) (directory : String) :
    pathsTo (joinPath directory name) ≠ [] := by
  have hmem : name ∈ innerNames (joinPath directory name) := by
    rw [innerNames_joinPath h]
    simp
  obtain ⟨part, hpart, rfl⟩ := List.mem_map.mp hmem
  obtain ⟨hpart, hnonempty⟩ := List.mem_filter.mp hpart
  intro hnil
  refine waypoints_ne_nil hpart (by simpa using hnonempty) ?_ (List.map_eq_nil_iff.mp hnil)
  rintro rfl
  exact h.ne_here rfl

theorem pathFault?_ne_missing {path : String} (h : path ≠ "") :
    pathFault? path ≠ some .missing := by
  rw [pathFault?, if_neg h]
  split
  · simp
  · split <;> simp

/-- A beginning of a path that some disk accepts is accepted, unless it is empty. -/
theorem pathFault?_of_prefix {before path : String} (h : before.toList <+: path.toList)
    (hne : before ≠ "") (hpath : pathFault? path = none) : pathFault? before = none := by
  obtain ⟨rest, hrest⟩ := h
  have hjoin : path = before ++ String.ofList rest := by
    rw [← String.toList_inj, String.toList_append, String.toList_ofList, hrest]
  have hsize : before.utf8ByteSize ≤ path.utf8ByteSize := by
    rw [hjoin, String.utf8ByteSize_append]
    exact Nat.le_add_right _ _
  rw [pathFault?] at hpath ⊢
  split at hpath
  · cases hpath
  · next hnul =>
      have hnul' : ¬ before.toList.contains '\x00' = true := by
        rw [List.contains_iff_mem] at hnul ⊢
        exact fun hmem => hnul (hrest ▸ List.mem_append_left rest hmem)
      rw [if_neg hnul', if_neg hne]
      split at hpath
      · cases hpath
      · split at hpath
        · cases hpath
        · next hshort => rw [if_neg (by omega)]

theorem prefix_joinPath {name : String} (h : IsName name) (directory : String) :
    directory.toList <+: (joinPath directory name).toList := by
  rcases joinPath_cases h directory with ⟨rfl, -⟩ | ⟨before, hbefore, hjoin⟩ | ⟨-, hjoin⟩
  · exact List.nil_prefix
  · exact ⟨name.toList, by rw [hbefore, hjoin, List.append_assoc]; rfl⟩
  · exact ⟨'/' :: name.toList, hjoin.symm⟩

end Discussion
