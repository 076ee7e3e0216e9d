import Discussion.Proofs.Disk.View

/-!
# Paths with a suffix

A suffix without slashes lengthens the last name of a path.  The path and the lengthened ones lie in
one directory under different names, so they lead to different locations wherever they lead.
-/

namespace Discussion

theorem isAbsolute_append {path suffix : String} (h : '/' ∉ suffix.toList) :
    isAbsolute (path ++ suffix) = isAbsolute path := by
  rw [isAbsolute, isAbsolute, String.toList_append]
  cases hpath : path.toList with
  | cons c cs => rfl
  | nil =>
      cases hsuffix : suffix.toList with
      | nil => rfl
      | cons c cs =>
          have hc : c ≠ '/' := by
            rintro rfl
            exact h (by simp [hsuffix])
          simpa using hc

theorem getLast?_ne_slash {cs : List Char} (h : '/' ∉ cs) : cs.getLast? ≠ some '/' :=
  fun hlast => h (List.mem_of_getLast? hlast)

theorem pathNames_of_notMem {name : String} (h : '/' ∉ name.toList) (hne : name ≠ "") :
    pathNames name = [name] := by
  have hnil : name.toList ≠ [] := fun hnil => hne (String.toList_eq_nil_iff.mp hnil)
  rw [pathNames, innerNames, splitAtMarks_of_notMem h, if_neg (getLast?_ne_slash h)]
  simp [hnil]

/-- What stands behind the last slash of a path is its last name. -/
theorem pathNames_of_last {path name : String} {front : List Char}
    (hpath : path.toList = front ++ '/' :: name.toList) (h : '/' ∉ name.toList) :
    pathNames path =
      innerNames (String.ofList front) ++ [if name = "" then "." else name] := by
  have hinner : innerNames path = innerNames (String.ofList front) ++
      (([name.toList].filter fun part => !part.isEmpty).map String.ofList) := by
    rw [innerNames, hpath, splitAtMarks_append, List.filter_append, splitAtMarks_of_notMem h,
      List.map_append, innerNames, String.toList_ofList]
  rw [pathNames, hinner, hpath, List.append_assoc]
  by_cases hname : name = ""
  · subst hname
    simp
  · have hnil : name.toList ≠ [] := fun hnil => hname (String.toList_eq_nil_iff.mp hnil)
    have hend : (front ++ '/' :: name.toList).getLast? ≠ some '/' := by
      rw [List.getLast?_append, List.getLast?_cons, List.getLast?_eq_some_getLast hnil]
      intro hlast
      exact h (Option.some.inj hlast ▸ List.getLast_mem hnil)
    rw [if_neg hend, if_neg hname]
    simp [hnil]

/-- A path ends with a name, which may be empty, and a suffix lengthens that name. -/
theorem exists_pathNames_append (path : String) : ∃ outer last, ∀ suffix,
    '/' ∉ suffix.toList → path ++ suffix ≠ "" →
      pathNames (path ++ suffix) =
        outer ++ [if last ++ suffix = "" then "." else last ++ suffix] := by
  by_cases hslash : '/' ∈ path.toList
  -- The last slash is the first one of the reversed path.
  · obtain ⟨back, front, hreverse, hback⟩ :=
      List.eq_append_cons_of_mem (List.mem_reverse.mpr hslash)
    have hpath : path.toList = front.reverse ++ '/' :: back.reverse := by
      simpa using congrArg List.reverse hreverse
    refine ⟨innerNames (String.ofList front.reverse), String.ofList back.reverse,
      fun suffix hsuffix _ => pathNames_of_last ?_ ?_⟩
    · rw [String.toList_append, hpath, String.toList_append, String.toList_ofList,
        List.append_assoc, List.cons_append]
    · rw [String.toList_append, String.toList_ofList, List.mem_append, List.mem_reverse]
      exact not_or.mpr ⟨hback, hsuffix⟩
  · refine ⟨[], path, fun suffix hsuffix hne => ?_⟩
    rw [if_neg hne, List.nil_append]
    refine pathNames_of_notMem ?_ hne
    rw [String.toList_append, List.mem_append]
    exact not_or.mpr ⟨hslash, hsuffix⟩

namespace Disk

variable {disk : Disk} {working location : Location} {path : String}

theorem ne_empty_of_leadsTo (h : disk.leadsTo working path = .ok location) : path ≠ "" := by
  rintro rfl
  cases h

theorem walk_pathNames_of_leadsTo (h : disk.leadsTo working path = .ok location) :
    disk.walk (if isAbsolute path then [] else working) (pathNames path) = .ok location := by
  rw [leadsTo] at h
  split at h
  · cases h
  · exact h

/-- A long name stands for something in the directory itself. -/
theorem nextLocation_of_long {next : Location} {name : String} (hlong : 2 < name.toList.length)
    (h : nextLocation location name = .ok next) : next = location ++ [name] := by
  have hproper : ∀ other : String, other.toList.length ≤ 2 → name ≠ other := by
    rintro other hother rfl
    omega
  rw [nextLocation, if_neg (hproper "." (by decide)), if_neg (hproper ".." (by decide))] at h
  split at h
  · cases h
  · exact (Except.ok.inj h).symm

theorem eq_of_nextLocation_concat {name other : String}
    (h : nextLocation location name = .ok (location ++ [other])) : name = other := by
  have hinner : ∀ outer : Location, outer.length ≤ location.length →
      (.ok outer : Except DiskFault Location) ≠ .ok (location ++ [other]) := by
    intro outer hlength heq
    have hsame := congrArg List.length (Except.ok.inj heq)
    rw [List.length_append, List.length_singleton] at hsame
    omega
  rw [nextLocation] at h
  split at h
  · exact absurd h (hinner location (Nat.le_refl _))
  · split at h
    · exact absurd h (hinner _ (by simp))
    · split at h
      · cases h
      · simpa using h

/-- A path and the same path with a long suffix, or with two suffixes, lead to different
locations. -/
theorem ne_of_leadsTo_append {suffix longer : String} {other : Location}
    (hsuffix : '/' ∉ suffix.toList) (hlonger : '/' ∉ longer.toList)
    (hlong : 2 < longer.toList.length) (hne : suffix ≠ longer)
    (h : disk.leadsTo working (path ++ suffix) = .ok location)
    (hother : disk.leadsTo working (path ++ longer) = .ok other) : location ≠ other := by
  obtain ⟨outer, last, hnames⟩ := exists_pathNames_append path
  have hwalk := walk_pathNames_of_leadsTo h
  have hwalk' := walk_pathNames_of_leadsTo hother
  rw [hnames suffix hsuffix (ne_empty_of_leadsTo h), isAbsolute_append hsuffix] at hwalk
  rw [hnames longer hlonger (ne_empty_of_leadsTo hother), isAbsolute_append hlonger] at hwalk'
  obtain ⟨around, haround, hstep⟩ := walk_concat_eq_ok_iff.mp hwalk
  obtain ⟨around', haround', hstep'⟩ := walk_concat_eq_ok_iff.mp hwalk'
  obtain rfl := Except.ok.inj (haround.symm.trans haround')
  -- The longer name is none of those that lead outwards, so it ends its location.
  have hlength : 2 < (last ++ longer).toList.length := by
    rw [String.toList_append, List.length_append]
    omega
  have hnonempty : last ++ longer ≠ "" := by
    intro hempty
    rw [hempty] at hlength
    exact absurd hlength (by decide)
  rw [if_neg hnonempty] at hstep'
  rw [nextLocation_of_long hlength (step_eq_ok hstep').2]
  rintro rfl
  have hname := eq_of_nextLocation_concat (step_eq_ok hstep).2
  split at hname
  · rw [← hname] at hlength
    exact absurd hlength (by decide)
  · exact hne (String.append_right_inj last |>.mp hname)

end Disk

end Discussion
