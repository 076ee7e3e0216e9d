import Discussion.Text.Utf8

/-!
# Folders

What a directory holds: files and further directories, each under a name.  A folder
is read through `get?`, name by name, and through `at?`, along the names on the
way from it.  `get?_assign` and `at?_assignAt_self` say what a change puts there,
`at?_assignAt_of_apart` that it leaves the rest alone, and `distinct_assignAt` that
no name comes to stand for two things.
-/

namespace Discussion

/-- What a directory holds: files and directories under names. -/
inductive Folder
  | empty
  | file (name : String) (bytes : Utf8.Bytes) (others : Folder)
  | directory (name : String) (inside others : Folder)
deriving DecidableEq, Repr

/-- What a name may stand for. -/
inductive Entry
  | file (bytes : Utf8.Bytes)
  | directory (inside : Folder)
deriving DecidableEq, Repr

/-- The names on the way to something. -/
abbrev Location := List String

namespace Folder

/-! ## One name -/

/-- The names of a folder. -/
def names : Folder → List String
  | empty => []
  | file name _ others => name :: others.names
  | directory name _ others => name :: others.names

/-- What a name stands for. -/
def get? (name : String) : Folder → Option Entry
  | empty => none
  | file other bytes others => if other = name then some (.file bytes) else others.get? name
  | directory other inside others =>
      if other = name then some (.directory inside) else others.get? name

/-- The folder without a name. -/
def erase (name : String) : Folder → Folder
  | empty => empty
  | file other bytes others =>
      if other = name then others.erase name else file other bytes (others.erase name)
  | directory other inside others =>
      if other = name then others.erase name else directory other inside (others.erase name)

/-- The folder with an entry before the others. -/
def add (name : String) (entry : Entry) (others : Folder) : Folder :=
  match entry with
  | .file bytes => file name bytes others
  | .directory inside => directory name inside others

/-- The folder in which a name stands for an entry, or for nothing. -/
def assign (name : String) (entry : Option Entry) (folder : Folder) : Folder :=
  match entry with
  | none => folder.erase name
  | some entry => (folder.erase name).add name entry

theorem mem_names_iff (name : String) (folder : Folder) :
    name ∈ folder.names ↔ (folder.get? name).isSome := by
  induction folder with
  | empty => simp [names, get?]
  | file other bytes others ih =>
      by_cases h : other = name
      · simp [names, get?, h]
      · simp [names, get?, h, ih, Ne.symm h]
  | directory other inside others _ ih =>
      by_cases h : other = name
      · simp [names, get?, h]
      · simp [names, get?, h, ih, Ne.symm h]

/-- An erased name stands for nothing, and the others stand for what they did. -/
theorem get?_erase (name other : String) (folder : Folder) :
    (folder.erase name).get? other = if name = other then none else folder.get? other := by
  induction folder with
  | empty => simp [erase, get?]
  | file first bytes others ih =>
      by_cases h : first = name
      · subst h
        rw [erase, if_pos rfl, ih]
        by_cases ho : first = other <;> simp [get?, ho]
      · by_cases ho : first = other
        · subst ho
          simp [erase, get?, h, Ne.symm h]
        · simp [erase, get?, h, ho, ih]
  | directory first inside others _ ih =>
      by_cases h : first = name
      · subst h
        rw [erase, if_pos rfl, ih]
        by_cases ho : first = other <;> simp [get?, ho]
      · by_cases ho : first = other
        · subst ho
          simp [erase, get?, h, Ne.symm h]
        · simp [erase, get?, h, ho, ih]

theorem get?_add (name other : String) (entry : Entry) (folder : Folder) :
    (folder.add name entry).get? other =
      if name = other then some entry else folder.get? other := by
  cases entry <;> rfl

/-- An assigned name stands for its entry, and the others stand for what they did. -/
theorem get?_assign (name other : String) (entry : Option Entry) (folder : Folder) :
    (folder.assign name entry).get? other =
      if name = other then entry else folder.get? other := by
  cases entry with
  | none => exact get?_erase name other folder
  | some entry =>
      rw [assign, get?_add, get?_erase]
      split <;> rfl

end Folder

/-! ## Many names -/

/-- What a name stands for in an entry. -/
def Entry.child? : Entry → String → Option Entry
  | .file _, _ => none
  | .directory inside, name => inside.get? name

namespace Folder

/-- What a location holds, seen from a folder. -/
def at? (folder : Folder) (location : Location) : Option Entry :=
  location.foldlM Entry.child? (.directory folder)

/-- The folder in which a location holds an entry, or nothing.  All but its last name must
lead to directories; otherwise nothing is changed. -/
def assignAt (entry : Option Entry) : Location → Folder → Folder
  | [], folder => folder
  | [name], folder => folder.assign name entry
  | name :: next :: names, folder =>
      match folder.get? name with
      | some (.directory inside) =>
          folder.assign name (some (.directory (assignAt entry (next :: names) inside)))
      | _ => folder

theorem at?_nil (folder : Folder) : folder.at? [] = some (.directory folder) := rfl

theorem at?_cons (folder : Folder) (name : String) (names : Location) :
    folder.at? (name :: names) =
      (folder.get? name).bind fun entry => names.foldlM Entry.child? entry := rfl

theorem at?_cons_of_directory {folder inside : Folder} {name : String} (names : Location)
    (h : folder.get? name = some (.directory inside)) :
    folder.at? (name :: names) = inside.at? names := by
  rw [at?_cons, h]
  rfl

/-- What a location holds is what its last name stands for in the directory around it. -/
theorem at?_concat (folder : Folder) (location : Location) (name : String) :
    folder.at? (location ++ [name]) = (folder.at? location).bind fun entry => entry.child? name := by
  rw [at?, List.foldlM_append]
  change ((folder.at? location).bind fun entry => [name].foldlM Entry.child? entry) = _
  congr 1
  funext entry
  simp

/-- A location in a directory holds what is assigned to it. -/
theorem at?_assignAt_self (entry : Option Entry) {location : Location} {folder inside : Folder}
    (hne : location ≠ []) (h : folder.at? location.dropLast = some (.directory inside)) :
    (folder.assignAt entry location).at? location = entry := by
  fun_induction assignAt entry location folder with
  | case1 => contradiction
  | case2 name folder =>
      rw [at?_cons, get?_assign, if_pos rfl]
      cases entry <;> rfl
  | case3 name next names folder around haround ih =>
      have hnew : (folder.assign name
          (some (.directory (around.assignAt entry (next :: names))))).get? name =
          some (.directory (around.assignAt entry (next :: names))) := by
        rw [get?_assign, if_pos rfl]
      rw [at?_cons_of_directory _ hnew]
      refine ih (by simp) ?_
      rw [List.dropLast_cons_of_ne_nil (by simp), at?_cons_of_directory _ haround] at h
      exact h
  | case4 name next names folder hnot =>
      rw [List.dropLast_cons_of_ne_nil (by simp), at?_cons] at h
      cases hentry : folder.get? name with
      | none => simp [hentry] at h
      | some found =>
          cases found with
          | directory around => exact absurd hentry (hnot around)
          | file bytes =>
              cases names with
              | nil => simp [hentry] at h
              | cons third others =>
                  rw [hentry, List.dropLast_cons_of_ne_nil (by simp)] at h
                  exact absurd h (by simp [Entry.child?])

/-- Where neither location leads on to the other, an assignment at one leaves the other alone. -/
theorem at?_assignAt_of_apart (entry : Option Entry) {location other : Location} {folder : Folder}
    (h : ¬ location <+: other) (hback : ¬ other <+: location) :
    (folder.assignAt entry location).at? other = folder.at? other := by
  fun_induction assignAt entry location folder generalizing other with
  | case1 => exact absurd (List.nil_prefix) h
  | case2 name folder =>
      cases other with
      | nil => exact absurd (List.nil_prefix) hback
      | cons first rest =>
          have hne : name ≠ first := by
            rintro rfl
            exact h (by simp)
          rw [at?_cons, at?_cons, get?_assign, if_neg hne]
  | case3 name next names folder around haround ih =>
      cases other with
      | nil => exact absurd (List.nil_prefix) hback
      | cons first rest =>
          by_cases hfirst : name = first
          · subst hfirst
            have hnew : (folder.assign name
                (some (.directory (around.assignAt entry (next :: names))))).get? name =
                some (.directory (around.assignAt entry (next :: names))) := by
              rw [get?_assign, if_pos rfl]
            rw [at?_cons_of_directory _ hnew, at?_cons_of_directory _ haround]
            rw [List.cons_prefix_cons] at h hback
            exact ih (by simpa using h) (by simpa using hback)
          · rw [at?_cons, at?_cons, get?_assign, if_neg hfirst]
  | case4 => rfl

/-! ## Distinct names -/

/-- No name stands for two things, neither here nor in a directory below. -/
def Distinct : Folder → Prop
  | empty => True
  | file name _ others => name ∉ others.names ∧ others.Distinct
  | directory name inside others => name ∉ others.names ∧ inside.Distinct ∧ others.Distinct

end Folder

/-- Below an entry no name stands for two things. -/
def Entry.Distinct : Entry → Prop
  | .file _ => True
  | .directory inside => inside.Distinct

namespace Folder

theorem nodup_names {folder : Folder} (h : folder.Distinct) : folder.names.Nodup := by
  induction folder with
  | empty => exact List.nodup_nil
  | file name bytes others ih => exact List.nodup_cons.mpr ⟨h.1, ih h.2⟩
  | directory name inside others _ ih => exact List.nodup_cons.mpr ⟨h.1, ih h.2.2⟩

theorem distinct_of_get? {folder : Folder} {name : String} {entry : Entry}
    (h : folder.Distinct) (hentry : folder.get? name = some entry) : entry.Distinct := by
  induction folder with
  | empty => simp [get?] at hentry
  | file other bytes others ih =>
      rw [get?] at hentry
      split at hentry
      · obtain rfl := Option.some.inj hentry
        trivial
      · exact ih h.2 hentry
  | directory other inside others _ ih =>
      rw [get?] at hentry
      split at hentry
      · obtain rfl := Option.some.inj hentry
        exact h.2.1
      · exact ih h.2.2 hentry

theorem not_mem_names_erase (name : String) (folder : Folder) :
    name ∉ (folder.erase name).names := by
  rw [mem_names_iff, get?_erase]
  simp

theorem mem_names_of_mem_erase {name other : String} {folder : Folder}
    (h : other ∈ (folder.erase name).names) : other ∈ folder.names := by
  rw [mem_names_iff, get?_erase] at h
  rw [mem_names_iff]
  split at h
  · simp at h
  · exact h

theorem distinct_erase (name : String) {folder : Folder} (h : folder.Distinct) :
    (folder.erase name).Distinct := by
  induction folder with
  | empty => trivial
  | file other bytes others ih =>
      rw [erase]
      split
      · exact ih h.2
      · exact ⟨fun hmem => h.1 (mem_names_of_mem_erase hmem), ih h.2⟩
  | directory other inside others _ ih =>
      rw [erase]
      split
      · exact ih h.2.2
      · exact ⟨fun hmem => h.1 (mem_names_of_mem_erase hmem), h.2.1, ih h.2.2⟩

theorem distinct_assign (name : String) {entry : Option Entry} {folder : Folder}
    (h : folder.Distinct) (hentry : ∀ e, entry = some e → e.Distinct) :
    (folder.assign name entry).Distinct := by
  have hrest := distinct_erase name h
  have hname := not_mem_names_erase name folder
  match entry with
  | none => exact hrest
  | some (.file bytes) => exact ⟨hname, hrest⟩
  | some (.directory inside) => exact ⟨hname, hentry _ rfl, hrest⟩

/-- An assignment keeps the names distinct. -/
theorem distinct_assignAt {entry : Option Entry} (location : Location) {folder : Folder}
    (h : folder.Distinct) (hentry : ∀ e, entry = some e → e.Distinct) :
    (folder.assignAt entry location).Distinct := by
  fun_induction assignAt entry location folder with
  | case1 => exact h
  | case2 => exact distinct_assign _ h hentry
  | case3 name next names folder around haround ih =>
      have haround : around.Distinct := distinct_of_get? h haround
      exact distinct_assign _ h fun e he => by
        obtain rfl := Option.some.inj he
        exact ih haround
  | case4 => exact h

end Folder

end Discussion
