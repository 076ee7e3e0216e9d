import Discussion.Proofs.Text.Blank
import Discussion.Proofs.Text.Split
import Discussion.Proofs.Text.Word
import Discussion.Viewer.Text

/-!
# Spellings of viewers

A viewer is spelled between blanks: by nothing or `anonymous`, or by `user`, a number and a list
of role names, with colons before the number and the list.  The relation `Viewer.Spells` says what
a text stands for in these terms only.  Reading a text gives what it stands for, so a text in which
some role is not recognised never gives a viewer any rights.
-/

namespace Discussion

/-- The names of a role. -/
def Role.spellings : Role → List String
  | .superAdmin => ["super_admin"]
  | .admin => ["admin"]
  | .moderator => ["moderator", "tag_moderator"]
  | .trustedUser => ["trusted", "trusted_user"]

/-- Whether a text is one of a role's names between blanks. -/
def Role.IsNamedBy (role : Role) (token : List Char) : Prop :=
  ∃ name ∈ role.spellings, TrimsTo token name.toList

theorem Role.read?_eq_some_iff {token : List Char} {role : Role} :
    Role.read? (String.ofList token) = some role ↔ role.IsNamedBy token := by
  have hnamed : role.IsNamedBy token ↔ trimmed (String.ofList token) ∈ role.spellings := by
    simp only [IsNamedBy, ← trimBlanks_eq_iff, trimmed, String.toList_ofList]
    constructor
    · rintro ⟨name, hname, htoken⟩
      rwa [htoken, String.ofList_toList]
    · exact fun h => ⟨_, h, (String.toList_ofList).symm⟩
  rw [hnamed, read?]
  generalize trimmed (String.ofList token) = name
  cases role <;> grind [spellings]

namespace Roles

theorem ext_contains {roles others : Roles}
    (h : ∀ role, roles.contains role = true ↔ others.contains role = true) : roles = others := by
  have hrole : ∀ role, roles.contains role = others.contains role :=
    fun role => Bool.eq_iff_iff.mpr (h role)
  obtain ⟨superAdmin, admin, moderator, trustedUser⟩ := roles
  obtain ⟨superAdmin', admin', moderator', trustedUser'⟩ := others
  obtain rfl := hrole .superAdmin
  obtain rfl := hrole .admin
  obtain rfl := hrole .moderator
  obtain rfl := hrole .trustedUser
  rfl

theorem exists_contains_iff (P : Role → Prop) :
    ∃ roles : Roles, ∀ role, roles.contains role = true ↔ P role := by
  classical
  refine ⟨⟨decide (P .superAdmin), decide (P .admin), decide (P .moderator),
    decide (P .trustedUser)⟩, fun role => ?_⟩
  cases role <;> simp [contains]

end Roles

namespace Viewer

/-- Names that are collected after some roles add theirs to these, if all of them are known. -/
theorem foldlM_roles_eq_ok_iff {names : List String} {roles found : Roles} :
    names.foldlM (fun roles name =>
        match Role.read? name with
        | some role => Except.ok (roles.insert role)
        | none => .error name) roles = .ok found ↔
      (∀ name ∈ names, ∃ role, Role.read? name = some role) ∧
        ∀ role, found.contains role = true ↔
          roles.contains role = true ∨ ∃ name ∈ names, Role.read? name = some role := by
  induction names generalizing roles with
  | nil =>
      constructor
      · intro h
        obtain rfl := Except.ok.inj h
        simp
      · rintro ⟨-, h⟩
        have hfound : roles = found := Roles.ext_contains fun role => by simp [h role]
        rw [hfound]
        rfl
  | cons name names ih =>
      rw [List.foldlM_cons]
      cases hread : Role.read? name with
      | none =>
          constructor
          · exact fun h => nomatch h
          · rintro ⟨h, -⟩
            obtain ⟨role, hrole⟩ := h name List.mem_cons_self
            rw [hread] at hrole
            cases hrole
      | some first =>
          have hknown : (∀ other ∈ name :: names, ∃ role, Role.read? other = some role) ↔
              ∀ other ∈ names, ∃ role, Role.read? other = some role := by
            rw [List.forall_mem_cons, and_iff_right ⟨first, hread⟩]
          have hnamed : ∀ role, (∃ other ∈ name :: names, Role.read? other = some role) ↔
              role = first ∨ ∃ other ∈ names, Role.read? other = some role := by
            intro role
            simp only [List.mem_cons, exists_eq_or_imp, hread, Option.some.injEq]
            rw [eq_comm (a := first)]
          refine ih.trans ?_
          rw [hknown]
          refine and_congr_right fun _ => forall_congr' fun role => ?_
          rw [hnamed, Roles.contains_insert, Bool.or_eq_true, beq_iff_eq,
            or_comm (a := role = first), or_assoc]

theorem rolesOfNames_eq_ok_iff {names : List String} {roles : Roles} :
    rolesOfNames names = .ok roles ↔ (∀ name ∈ names, ∃ role, Role.read? name = some role) ∧
      ∀ role, roles.contains role = true ↔ ∃ name ∈ names, Role.read? name = some role := by
  refine foldlM_roles_eq_ok_iff.trans (and_congr_right fun _ => forall_congr' fun role => ?_)
  have hempty : Roles.empty.contains role = false := by cases role <;> rfl
  simp [hempty]

/-- A viewer is made from role names that are all known, with exactly the roles that they name. -/
theorem value_ofRoleNames_of_known {user : UserId} {tokens : List (List Char)} {roles : Roles}
    (hknown : ∀ token ∈ tokens, ∃ role : Role, role.IsNamedBy token)
    (hroles : ∀ role, roles.contains role = true ↔ ∃ token ∈ tokens, role.IsNamedBy token) :
    (ofRoleNames user (tokens.map String.ofList)).value = .signedIn user roles := by
  have hread : rolesOfNames (tokens.map String.ofList) = .ok roles := by
    refine rolesOfNames_eq_ok_iff.mpr ⟨?_, fun role => ?_⟩
    · simpa only [List.forall_mem_map, Role.read?_eq_some_iff] using hknown
    · rw [hroles role]
      simp only [List.mem_map, exists_exists_and_eq_and, Role.read?_eq_some_iff]
  rw [ofRoleNames, hread]
  rfl

/-- One name that is not known is enough for nobody in particular. -/
theorem value_ofRoleNames_of_unknown {user : UserId} {tokens : List (List Char)}
    {token : List Char} (hmem : token ∈ tokens) (hunknown : ∀ role : Role, ¬role.IsNamedBy token) :
    (ofRoleNames user (tokens.map String.ofList)).value = .anonymous := by
  rw [ofRoleNames]
  cases hread : rolesOfNames (tokens.map String.ofList) with
  | error name => rfl
  | ok roles =>
      obtain ⟨role, hrole⟩ := (rolesOfNames_eq_ok_iff.mp hread).1 _ (List.mem_map_of_mem hmem)
      exact absurd (Role.read?_eq_some_iff.mp hrole) (hunknown role)

/-- The role names in a text: what stands after its second colon, between the commas there, unless
it is blank. -/
def roleTokens (cs : List Char) : List (List Char) :=
  (([':'].intercalate ((cs.splitOn ':').drop 2)).splitOn ',').filter (·.any (!isBlank ·))

/-- What a text without blanks around it stands for. -/
inductive Spells (cs : List Char) : Except Fault Viewer → Prop
  | anonymous (h : cs = [] ∨ cs = "anonymous".toList) : Spells cs (.ok .anonymous)
  /-- Something else than `user` stands before the first colon. -/
  | misshapen (hempty : cs ≠ []) (hanonymous : cs ≠ "anonymous".toList)
      (hfirst : (cs.splitOn ':').head? ≠ some "user".toList) :
      Spells cs (.error (.invalidArgument (.viewerShape (String.ofList cs))))
  /-- Nothing follows `user`, or no word. -/
  | numberless (hfirst : (cs.splitOn ':').head? = some "user".toList)
      (hnumber : ∀ number, (cs.splitOn ':')[1]? = some number → ∀ user, ¬SpellsWord number user) :
      Spells cs (.error (.invalidArgument (.viewerNumber (String.ofList cs))))
  /-- A user with the roles that are named, all of which are recognised. -/
  | signedIn {number : List Char} {user : UInt64} {roles : Roles}
      (hfirst : (cs.splitOn ':').head? = some "user".toList)
      (hsecond : (cs.splitOn ':')[1]? = some number) (hnumber : SpellsWord number user)
      (hknown : ∀ token ∈ roleTokens cs, ∃ role : Role, role.IsNamedBy token)
      (hroles : ∀ role, roles.contains role = true ↔
        ∃ token ∈ roleTokens cs, role.IsNamedBy token) :
      Spells cs (.ok (.signedIn ⟨user⟩ roles))
  /-- A user with a role that is not recognised. -/
  | unknownRole {number : List Char} {user : UInt64} {token : List Char}
      (hfirst : (cs.splitOn ':').head? = some "user".toList)
      (hsecond : (cs.splitOn ':')[1]? = some number) (hnumber : SpellsWord number user)
      (htoken : token ∈ roleTokens cs) (hunknown : ∀ role : Role, ¬role.IsNamedBy token) :
      Spells cs (.ok .anonymous)

/-- Cutting a text at its first colon gives the first of its parts and the rest of them. -/
theorem splitOn_eq_splitColon (cs : List Char) :
    cs.splitOn ':' = (splitColon cs).1 :: (splitColon cs).2.elim [] (·.splitOn ':') := by
  have hbefore : ':' ∉ cs.takeWhile (· != ':') := by
    intro hmem
    simpa using List.mem_takeWhile_imp hmem
  rw [splitColon]
  cases hdrop : cs.dropWhile (· != ':') with
  | nil =>
      have hcs : cs.takeWhile (· != ':') = cs := by
        conv_rhs => rw [← List.takeWhile_append_dropWhile (p := (· != ':')) (l := cs), hdrop,
          List.append_nil]
      rw [hcs] at hbefore
      exact splitOn_of_notMem hbefore
  | cons c rest =>
      obtain rfl : c = ':' := by
        have hstop := List.head?_dropWhile_not (· != ':') cs
        simpa [hdrop] using hstop
      have hcs : cs.takeWhile (· != ':') ++ ':' :: rest = cs := by
        rw [← hdrop]
        exact List.takeWhile_append_dropWhile
      conv_lhs => rw [← hcs]
      exact splitOn_append_of_notMem hbefore rest

/-- The role names that are read are those of the text, as strings. -/
theorem roleNames_eq (cs : List Char) :
    (((splitColon cs).2.map splitColon).bind (·.2)).elim [] roleNames =
      (roleTokens cs).map String.ofList := by
  have hfilter : ∀ part : List Char, (!(trimBlanks part).isEmpty) = part.any (!isBlank ·) := by
    intro part
    rw [Bool.eq_iff_iff, Bool.not_eq_true', ← Bool.not_eq_true, List.isEmpty_iff,
      trimBlanks_eq_nil_iff]
    simp
  have hnames : ∀ rest, roleNames rest =
      ((rest.splitOn ',').filter (·.any (!isBlank ·))).map String.ofList := by
    intro rest
    rw [roleNames, splitAtMarks_eq_splitOn]
    simp only [hfilter]
  rw [roleTokens, splitOn_eq_splitColon]
  cases (splitColon cs).2 with
  | none => rfl
  | some second =>
      change (splitColon second).2.elim [] roleNames = _
      rw [Option.elim_some, splitOn_eq_splitColon second]
      cases (splitColon second).2 with
      | none => rfl
      | some rest =>
          change roleNames rest =
            ((([':'].intercalate (rest.splitOn ':')).splitOn ',').filter _).map _
          rw [List.intercalate_splitOn, hnames]

/-- A text is read in terms of its parts. -/
theorem value_read {s : String} {cs : List Char} (h : TrimsTo s.toList cs) :
    (read s).value =
      if cs = [] ∨ cs = "anonymous".toList then .ok .anonymous
      else if (cs.splitOn ':').head? ≠ some "user".toList then
        .error (.invalidArgument (.viewerShape (String.ofList cs)))
      else ((cs.splitOn ':')[1]?.bind readWord?).elim
        (.error (.invalidArgument (.viewerNumber (String.ofList cs))))
        fun user => .ok (ofRoleNames ⟨user⟩ ((roleTokens cs).map String.ofList)).value := by
  have htrimmed : trimmed s = String.ofList cs := by rw [trimmed, trimBlanks_eq_iff.mpr h]
  have hanonymous : (String.ofList cs = "" ∨ String.ofList cs = "anonymous") ↔
      (cs = [] ∨ cs = "anonymous".toList) := by
    rw [← String.toList_inj, ← String.toList_inj, String.toList_ofList]
    rfl
  have hfirst : String.ofList (splitColon cs).1 ≠ "user" ↔
      (cs.splitOn ':').head? ≠ some "user".toList := by
    rw [splitOn_eq_splitColon, List.head?_cons, ← String.toList_inj.ne, String.toList_ofList, Ne,
      Ne, Option.some.injEq]
  have hsecond : (cs.splitOn ':')[1]? = ((splitColon cs).2.map splitColon).map (·.1) := by
    rw [splitOn_eq_splitColon]
    cases (splitColon cs).2 with
    | none => rfl
    | some second =>
        rw [Option.elim_some, splitOn_eq_splitColon second]
        rfl
  rw [read, hsecond]
  simp only [htrimmed, String.toList_ofList, hanonymous, hfirst, roleNames_eq]
  split_ifs with hspecial hshape
  · rfl
  · rfl
  · rcases (splitColon cs).2.map splitColon with _ | ⟨number, rest⟩
    · rfl
    · simp only [Option.bind_some, Option.map_some]
      cases readWord? number <;> rfl

theorem head?_splitOn_special {cs : List Char} (h : cs = [] ∨ cs = "anonymous".toList) :
    (cs.splitOn ':').head? ≠ some "user".toList := by
  rcases h with rfl | rfl <;> decide

/-- Once the number is read, the viewer depends on the role names alone. -/
theorem value_read_of_user {s : String} {cs number : List Char} {user : UInt64}
    (htrim : TrimsTo s.toList cs) (hfirst : (cs.splitOn ':').head? = some "user".toList)
    (hsecond : (cs.splitOn ':')[1]? = some number) (hnumber : SpellsWord number user) :
    (read s).value = .ok (ofRoleNames ⟨user⟩ ((roleTokens cs).map String.ofList)).value := by
  rw [value_read htrim, if_neg fun hspecial => head?_splitOn_special hspecial hfirst,
    if_neg (not_not.mpr hfirst), hsecond, Option.bind_some, readWord?_eq_some_iff.mpr hnumber,
    Option.elim_some]

/-- Reading gives what a text stands for. -/
theorem value_read_of_spells {s : String} {cs : List Char} (htrim : TrimsTo s.toList cs)
    {result : Except Fault Viewer} (h : Spells cs result) : (read s).value = result := by
  cases h with
  | anonymous h => rw [value_read htrim, if_pos h]
  | misshapen hempty hanonymous hfirst =>
      rw [value_read htrim, if_neg (not_or.mpr ⟨hempty, hanonymous⟩), if_pos hfirst]
  | numberless hfirst hnumber =>
      have hnone : (cs.splitOn ':')[1]?.bind readWord? = none := by
        refine Option.bind_eq_none_iff.mpr fun number hsecond => ?_
        refine Option.eq_none_iff_forall_ne_some.mpr fun user hread => ?_
        exact hnumber number hsecond user (readWord?_eq_some_iff.mp hread)
      rw [value_read htrim, if_neg fun hspecial => head?_splitOn_special hspecial hfirst,
        if_neg (not_not.mpr hfirst), hnone, Option.elim_none]
  | signedIn hfirst hsecond hnumber hknown hroles =>
      rw [value_read_of_user htrim hfirst hsecond hnumber, value_ofRoleNames_of_known hknown hroles]
  | unknownRole hfirst hsecond hnumber htoken hunknown =>
      rw [value_read_of_user htrim hfirst hsecond hnumber,
        value_ofRoleNames_of_unknown htoken hunknown]

/-- Every text stands for something. -/
theorem exists_spells (cs : List Char) : ∃ result, Spells cs result := by
  by_cases hspecial : cs = [] ∨ cs = "anonymous".toList
  · exact ⟨_, .anonymous hspecial⟩
  obtain ⟨hempty, hanonymous⟩ := not_or.mp hspecial
  by_cases hfirst : (cs.splitOn ':').head? = some "user".toList
  case neg => exact ⟨_, .misshapen hempty hanonymous hfirst⟩
  by_cases hnumber : ∃ number user, (cs.splitOn ':')[1]? = some number ∧ SpellsWord number user
  case neg =>
    exact ⟨_, .numberless hfirst fun number hsecond user hspells =>
      hnumber ⟨number, user, hsecond, hspells⟩⟩
  obtain ⟨number, user, hsecond, hspells⟩ := hnumber
  by_cases hknown : ∀ token ∈ roleTokens cs, ∃ role : Role, role.IsNamedBy token
  · obtain ⟨roles, hroles⟩ :=
      Roles.exists_contains_iff fun role => ∃ token ∈ roleTokens cs, role.IsNamedBy token
    exact ⟨_, .signedIn hfirst hsecond hspells hknown hroles⟩
  · push Not at hknown
    obtain ⟨token, htoken, hunknown⟩ := hknown
    exact ⟨_, .unknownRole hfirst hsecond hspells htoken hunknown⟩

theorem value_read_eq_iff {s : String} {cs : List Char} (htrim : TrimsTo s.toList cs)
    {result : Except Fault Viewer} : (read s).value = result ↔ Spells cs result := by
  refine ⟨?_, value_read_of_spells htrim⟩
  rintro rfl
  obtain ⟨result, h⟩ := exists_spells cs
  rwa [value_read_of_spells htrim h]

/-- A text with a role that is not recognised does not sign anybody in. -/
theorem Spells.eq_anonymous {cs token : List Char} {viewer : Viewer}
    (h : Spells cs (.ok viewer)) (htoken : token ∈ roleTokens cs)
    (hunknown : ∀ role : Role, ¬role.IsNamedBy token) : viewer = .anonymous := by
  cases h with
  | anonymous => rfl
  | unknownRole => rfl
  | signedIn _ _ _ hknown =>
      obtain ⟨role, hrole⟩ := hknown token htoken
      exact absurd hrole (hunknown role)

/-- What is written of a signed-in viewer's roles. -/
def rolesText (roles : Roles) : List Char :=
  [','].intercalate (roles.toList.map (·.name.toList))

theorem toList_text_signedIn (user : UserId) (roles : Roles) :
    (text (.signedIn user roles)).toList = "user".toList ++ ':' :: (numeral user.value.toNat ++
      if roles.toList = [] then [] else ':' :: rolesText roles) := by
  have hdecimal : user.text.toList = numeral user.value.toNat := String.toList_ofList
  rw [text]
  by_cases hroles : roles.toList = []
  · simp [hroles, hdecimal]
  · have hnames : (roles.toList.map Role.name).isEmpty = false := by simpa using hroles
    rw [if_neg hroles]
    simp only [hnames, Bool.false_eq_true, if_false, String.toList_append,
      String.toList_intercalate, hdecimal, List.map_map, rolesText]
    rfl

theorem not_isBlank_of_digit {c : Char} (h : '0' ≤ c ∧ c ≤ '9') : isBlank c = false := by
  have hlow : 48 ≤ c.toNat := h.1
  have hhigh : c.toNat ≤ 57 := h.2
  simp only [isBlank, Bool.or_eq_false_iff, Bool.and_eq_false_iff, decide_eq_false_iff_not,
    beq_eq_false_iff_ne]
  omega

theorem not_isBlank_of_mem_name {role : Role} {c : Char} (h : c ∈ role.name.toList) :
    isBlank c = false := by
  have hall : role.name.toList.all (!isBlank ·) = true := by cases role <;> decide
  simpa using List.all_eq_true.mp hall c h

/-- A viewer's text contains no blanks. -/
theorem not_isBlank_of_mem_text {viewer : Viewer} {c : Char} (h : c ∈ viewer.text.toList) :
    isBlank c = false := by
  cases viewer with
  | anonymous =>
      have hall : (text .anonymous).toList.all (!isBlank ·) = true := by decide
      simpa using List.all_eq_true.mp hall c h
  | signedIn user roles =>
      have huser : "user".toList.all (!isBlank ·) = true := by decide
      have hroles : ∀ d ∈ if roles.toList = [] then [] else ':' :: rolesText roles,
          isBlank d = false := by
        split
        · simp
        · refine List.forall_mem_cons.mpr ⟨rfl, fun d hd => ?_⟩
          rcases eq_or_mem_of_mem_intercalate hd with rfl | ⟨name, hname, hd⟩
          · rfl
          · obtain ⟨role, -, rfl⟩ := List.mem_map.mp hname
            exact not_isBlank_of_mem_name hd
      rw [toList_text_signedIn, List.mem_append, List.mem_cons, List.mem_append] at h
      rcases h with hc | rfl | hc | hc
      · simpa using List.all_eq_true.mp huser c hc
      · rfl
      · exact not_isBlank_of_digit (digit_of_mem_numeral hc)
      · exact hroles c hc

theorem splitOn_text_signedIn (user : UserId) (roles : Roles) :
    (text (.signedIn user roles)).toList.splitOn ':' =
      "user".toList :: numeral user.value.toNat ::
        if roles.toList = [] then [] else (rolesText roles).splitOn ':' := by
  have hnumeral : ':' ∉ numeral user.value.toNat :=
    fun hmem => absurd (digit_of_mem_numeral hmem) (by decide)
  rw [toList_text_signedIn, splitOn_append_of_notMem (by decide)]
  split
  · rw [List.append_nil, splitOn_of_notMem hnumeral]
  · rw [splitOn_append_of_notMem hnumeral]

/-- The role names that are read from a viewer's text are those that were written. -/
theorem roleTokens_text_signedIn (user : UserId) (roles : Roles) :
    roleTokens (text (.signedIn user roles)).toList = roles.toList.map (·.name.toList) := by
  rw [roleTokens, splitOn_text_signedIn]
  by_cases hroles : roles.toList = []
  · rw [if_pos hroles, hroles]
    rfl
  · have hcomma : ∀ name ∈ roles.toList.map (·.name.toList), ',' ∉ name := by
      intro name hname
      obtain ⟨role, -, rfl⟩ := List.mem_map.mp hname
      cases role <;> decide
    have hshown : ∀ name ∈ roles.toList.map (·.name.toList), name.any (!isBlank ·) = true := by
      intro name hname
      obtain ⟨role, -, rfl⟩ := List.mem_map.mp hname
      cases role <;> decide
    rw [if_neg hroles, List.drop_succ_cons, List.drop_succ_cons, List.drop_zero,
      List.intercalate_splitOn, rolesText,
      List.splitOn_intercalate ',' hcomma (by simpa using hroles), List.filter_eq_self.mpr hshown]

/-- The written name of a role names it and no other. -/
theorem isNamedBy_name_iff {role other : Role} :
    role.IsNamedBy other.name.toList ↔ role = other := by
  have hread : Role.read? (String.ofList other.name.toList) = some other := by
    cases other <;> decide
  rw [← Role.read?_eq_some_iff, hread, Option.some.injEq, eq_comm]

/-- A viewer's text stands for the viewer. -/
theorem spells_text (viewer : Viewer) : Spells viewer.text.toList (.ok viewer) := by
  cases viewer with
  | anonymous => exact .anonymous (Or.inr rfl)
  | signedIn user roles =>
      have hparts := splitOn_text_signedIn user roles
      have hsecond : ((text (.signedIn user roles)).toList.splitOn ':')[1]? =
          some (numeral user.value.toNat) := by
        rw [hparts]
        rfl
      refine .signedIn (by rw [hparts]; rfl) hsecond (spellsWord_numeral user.value) ?_
        fun role => ?_
      · intro token htoken
        rw [roleTokens_text_signedIn] at htoken
        obtain ⟨role, -, rfl⟩ := List.mem_map.mp htoken
        exact ⟨role, isNamedBy_name_iff.mpr rfl⟩
      · have hall : role ∈ Role.all := by cases role <;> decide
        simp [roleTokens_text_signedIn, isNamedBy_name_iff, Roles.toList, hall]

/-- A viewer is read back from its text.  Every string has its meaning when the blanks around it
are removed, and is read as that; if it contains a role that is not recognised, a viewer that is
read from it is not signed in and is no moderator. -/
theorem read_iff_spells :
    (∀ viewer : Viewer, (read viewer.text).value = .ok viewer) ∧
      ∀ s : String, ∃ cs, TrimsTo s.toList cs ∧
        (∀ result, (read s).value = result ↔ Spells cs result) ∧
          ∀ token ∈ roleTokens cs, (∀ role : Role, ¬role.IsNamedBy token) →
            ∀ viewer, (read s).value = .ok viewer →
              viewer.isSignedIn = false ∧ viewer.isModerator = false := by
  refine ⟨fun viewer => ?_, fun s => ?_⟩
  · have htrim : TrimsTo viewer.text.toList viewer.text.toList :=
      .refl (fun c hc => not_isBlank_of_mem_text (List.mem_of_mem_head? hc))
        fun c hc => not_isBlank_of_mem_text (List.mem_of_mem_getLast? hc)
    exact value_read_of_spells htrim (spells_text viewer)
  · have htrim := trimsTo_trimBlanks s.toList
    refine ⟨_, htrim, fun result => value_read_eq_iff htrim, ?_⟩
    intro token htoken hunknown viewer hread
    obtain rfl := ((value_read_eq_iff htrim).mp hread).eq_anonymous htoken hunknown
    exact ⟨rfl, rfl⟩

end Viewer

end Discussion
