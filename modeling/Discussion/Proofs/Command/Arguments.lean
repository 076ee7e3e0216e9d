import Discussion.Command.Basic
import Discussion.Proofs.Store.Names

/-!
# Options after operands and other options

Words are sorted one after the other, so the options at the end of a command line are sorted
as if they stood alone.  A commentable is read back from its text, which no option looks like.
-/

namespace Discussion

namespace Arguments

/-! ## Sorting -/

/-- What was sorted first and what was sorted after it. -/
def Sorted.join (first second : Sorted) : Sorted where
  given := first.given ++ second.given
  operands := first.operands ++ second.operands
  rest := first.rest ++ second.rest

theorem readWord?_of_operand {word : String} (h : looksLikeOption word = false)
    (specs : List Spec) : readWord? specs word = some .operand := by
  rw [readWord?]
  split
  · next heq => simp [looksLikeOption, heq, String.ext_iff] at h
  · next name heq => simp [looksLikeOption, heq, String.ext_iff] at h
  · next c cluster heq => simp [looksLikeOption, heq, String.ext_iff] at h
  · rfl

/-- Sorting goes on after a word with what the word says. -/
theorem sortFrom_cons (specs : List Spec) (toFirst : Bool) (sorted : Sorted) (word : String)
    (rest : List String) :
    sortFrom specs toFirst sorted (word :: rest) =
      (readWord? specs word).bind fun meaning =>
        match meaning with
        | .operand =>
            if toFirst then
              some { sorted with operands := sorted.operands ++ [word], rest := rest }
            else
              sortFrom specs toFirst { sorted with operands := sorted.operands ++ [word] } rest
        | .endOfOptions =>
            if toFirst then none else some { sorted with operands := sorted.operands ++ rest }
        | .options given =>
            sortFrom specs toFirst { sorted with given := sorted.given ++ given } rest
        | .awaiting given name =>
            match rest with
            | [] => none
            | value :: rest =>
                if looksLikeOption value then none
                else
                  sortFrom specs toFirst
                    { sorted with given := sorted.given ++ given ++ [(name, some value)] }
                    rest := by
  -- The equations of `sortFrom` cannot be generated, as it looks at two words at once.
  cases rest <;> (delta sortFrom; rfl)

/-- What is sorted next does not depend on what was sorted before. -/
theorem sortFrom_join (specs : List Spec) (first : Sorted) :
    ∀ (words : List String) (second : Sorted),
      sortFrom specs false (first.join second) words =
        (sortFrom specs false second words).map first.join
  | [], second => rfl
  | word :: rest, second => by
      rw [sortFrom_cons, sortFrom_cons]
      cases readWord? specs word with
      | none => rfl
      | some meaning =>
          cases meaning with
          | operand =>
              have hrest := sortFrom_join specs first rest
                { second with operands := second.operands ++ [word] }
              simpa [Sorted.join] using hrest
          | endOfOptions => simp [Sorted.join]
          | options given =>
              have hrest := sortFrom_join specs first rest
                { second with given := second.given ++ given }
              simpa [Sorted.join] using hrest
          | awaiting given name =>
              cases rest with
              | nil => rfl
              | cons value rest =>
                  by_cases hvalue : looksLikeOption value = true
                  · simp [hvalue]
                  · have hrest := sortFrom_join specs first rest
                      { second with given := second.given ++ given ++ [(name, some value)] }
                    simpa [hvalue, Sorted.join] using hrest

theorem sortFrom_eq_map (specs : List Spec) (sorted : Sorted) (words : List String) :
    sortFrom specs false sorted words = (sortFrom specs false {} words).map sorted.join := by
  have hjoin := sortFrom_join specs sorted words {}
  have hsorted : sorted.join {} = sorted := by simp [Sorted.join]
  rwa [hsorted] at hjoin

theorem sortFrom_operand {specs : List Spec} {word : String} (h : looksLikeOption word = false)
    (words : List String) :
    sortFrom specs false {} (word :: words) =
      (sortFrom specs false {} words).map (Sorted.join { operands := [word] }) := by
  rw [← sortFrom_eq_map, sortFrom_cons, readWord?_of_operand h]
  simp

theorem sortFrom_value {specs : List Spec} {word name value : String}
    (hword : readWord? specs word = some (.awaiting [] name))
    (hvalue : looksLikeOption value = false) (words : List String) :
    sortFrom specs false {} (word :: value :: words) =
      (sortFrom specs false {} words).map (Sorted.join { given := [(name, some value)] }) := by
  rw [← sortFrom_eq_map, sortFrom_cons, hword]
  simp [hvalue]

theorem sort_eq_some_iff {specs : List Spec} {toFirst : Bool} {words : List String}
    {sorted : Sorted} :
    sort specs toFirst words = some sorted ↔ sortFrom specs toFirst {} words = some sorted ∧
      ∀ spec ∈ specs, spec.kind = .counted ∨ sorted.count spec.long ≤ 1 := by
  refine Iff.trans Option.bind_eq_some_iff ?_
  constructor
  · rintro ⟨found, hfound, hsome⟩
    split at hsome
    · next hall =>
        obtain rfl := Option.some.inj hsome
        exact ⟨hfound, by simpa using hall⟩
    · cases hsome
  · rintro ⟨hfound, hall⟩
    exact ⟨sorted, hfound, if_pos (by simpa using hall)⟩

namespace Sorted

variable {first : Sorted} {name : String}

theorem count_join (first second : Sorted) (name : String) :
    (first.join second).count name = first.count name + second.count name :=
  List.countP_append

theorem count_eq_zero (h : name ∉ first.given.map Prod.fst) : first.count name = 0 := by
  rw [count, List.countP_eq_zero]
  intro entry hentry
  simpa using fun hname : entry.1 = name => h (hname ▸ List.mem_map_of_mem hentry)

theorem has_join (h : name ∉ first.given.map Prod.fst) (second : Sorted) :
    (first.join second).has name = second.has name := by
  rw [has, has, count_join, count_eq_zero h, Nat.zero_add]

theorem value?_eq_none (h : first.count name = 0) : first.value? name = none := by
  have hlookup : first.given.lookup name = none := by
    rw [List.lookup_eq_none_iff]
    intro entry hentry
    have hother : entry.1 ≠ name := by simpa using List.countP_eq_zero.mp h entry hentry
    simpa using hother.symm
  rw [value?, hlookup]
  rfl

theorem value?_join (h : name ∉ first.given.map Prod.fst) (second : Sorted) :
    (first.join second).value? name = second.value? name := by
  have hlookup : first.given.lookup name = none := by
    rw [List.lookup_eq_none_iff]
    intro entry hentry
    simpa using fun hname : name = entry.1 => h (hname ▸ List.mem_map_of_mem hentry)
  rw [value?, value?, join, List.lookup_append, hlookup, Option.none_or]

end Sorted

end Arguments

namespace Command

open Arguments

theorem optional?_join {α : Type} {first : Sorted} {name : String}
    (h : name ∉ first.given.map Prod.fst) (second : Sorted) (read? : String → Option α) :
    optional? (first.join second) name read? = optional? second name read? := by
  rw [optional?, optional?, Sorted.value?_join h]

theorem optional?_of_value {α : Type} {sorted : Sorted} {name value : String}
    (h : sorted.value? name = some value) (read? : String → Option α) :
    optional? sorted name read? = (read? value).map some := by
  rw [optional?, h]

/-! ## The options of all commands -/

/-- What was given before counts if it is no option of all commands. -/
theorem addGlobals_join {first : Sorted} (hconfig : "config" ∉ first.given.map Prod.fst)
    (hcolour : "no-color" ∉ first.given.map Prod.fst)
    (hverbose : "verbose" ∉ first.given.map Prod.fst) (environment : Option String)
    (second : Sorted) (outer : Invocation) :
    addGlobals environment (first.join second) outer = addGlobals environment second outer := by
  have hcount : (first.join second).count "verbose" = second.count "verbose" := by
    rw [Sorted.count_join, Sorted.count_eq_zero hverbose, Nat.zero_add]
  rw [addGlobals, addGlobals, optional?_join hconfig, Sorted.has_join hcolour,
    Sorted.has_join hverbose, hcount]

theorem addGlobals_command (environment : Option String) (sorted : Sorted) (outer : Invocation)
    (command : Command) :
    addGlobals environment sorted { outer with command := command } =
      (addGlobals environment sorted outer).map fun inner => { inner with command := command } := by
  rw [addGlobals, addGlobals]
  cases optional? sorted "config" nonEmpty? with
  | none => rfl
  | some given =>
      simp only [Option.bind_eq_bind, Option.bind_some]
      split
      · cases environment with
        | none => rfl
        | some path =>
            dsimp only
            cases nonEmpty? path <;> rfl
      · rfl

/-- The options of all commands do not depend on the command. -/
theorem addGlobals_anyCommand {environment : Option String} {sorted : Sorted} {command : Command}
    {found : Invocation}
    (h : addGlobals environment sorted { command := command } = some found) (other : Command) :
    found.command = command ∧
      addGlobals environment sorted { command := other } =
        some { found with command := other } := by
  have hsame := addGlobals_command environment sorted { command := command } command
  have hother := addGlobals_command environment sorted { command := command } other
  rw [h, Option.map_some] at hsame hother
  exact ⟨congrArg Invocation.command (Option.some.inj hsame), hother⟩

/-- Where none of the options of all commands is given, nothing is added.  A settings file of
the environment must have a name all the same. -/
theorem addGlobals_empty (environment : Option String) (outer : Invocation) :
    addGlobals environment {} outer = if environment = some "" then none else some outer := by
  have hconfig : optional? {} "config" nonEmpty? = some none := rfl
  have hcolour : Sorted.has {} "no-color" = false := rfl
  have hverbose : Sorted.has {} "verbose" = false := rfl
  rw [addGlobals, hconfig, hcolour, hverbose]
  cases environment with
  | none => simp
  | some path =>
      by_cases hpath : path = ""
      · simp [hpath, nonEmpty?]
      · simp [hpath, nonEmpty?]

theorem addGlobals_of_none {environment : Option String} {sorted : Sorted}
    (henvironment : environment ≠ some "") (hconfig : "config" ∉ sorted.given.map Prod.fst)
    (hcolour : "no-color" ∉ sorted.given.map Prod.fst)
    (hverbose : "verbose" ∉ sorted.given.map Prod.fst) (outer : Invocation) :
    addGlobals environment sorted outer = some outer := by
  have hjoin : sorted.join {} = sorted := by simp [Sorted.join]
  rw [← hjoin, addGlobals_join hconfig hcolour hverbose, addGlobals_empty, if_neg henvironment]

/-! ## Names of commands -/

theorem splitCommand?_cons {name : String} (h : looksLikeOption name = false)
    (words : List String) :
    splitCommand? (name :: words) = some ({ operands := [name], rest := words }, name) := by
  have hsort : sort globalSpecs true (name :: words) =
      some { operands := [name], rest := words } := by
    refine sort_eq_some_iff.mpr ⟨?_, fun spec _ => Or.inr (Nat.zero_le 1)⟩
    rw [sortFrom_cons, readWord?_of_operand h]
    simp
  rw [splitCommand?, hsort]
  rfl

theorem read?_render (environment : Option String) (words : List String) :
    read? environment ("render" :: words) = (readRender? words).bind fun (inner, command) =>
      if environment = some "" then none
      else (addGlobals environment inner { command := command }).map fun invocation =>
        { invocation with settingsFile := invocation.settingsFile.or environment } := by
  have hlevels : readLevels? ("render" :: words) = (readRender? words).map fun (inner, command) =>
      ([{ operands := ["render"], rest := words }, inner], command) := by
    rw [readLevels?, splitCommand?_cons (by decide)]
    simp [Option.map_eq_bind]
  have houter : ∀ outer, addGlobals environment { operands := ["render"], rest := words } outer =
      if environment = some "" then none else some outer := by
    intro outer
    rw [← addGlobals_empty]
    have hnone : ∀ name, name ∉
        ({ operands := ["render"], rest := words } : Sorted).given.map Prod.fst := by simp
    exact addGlobals_join (hnone _) (hnone _) (hnone _) environment {} outer
  rw [read?, hlevels]
  cases readRender? words with
  | none => rfl
  | some found =>
      simp only [Option.map_some, Option.bind_eq_bind, Option.bind_some, List.foldlM_cons,
        List.foldlM_nil, houter]
      split
      · rfl
      · rw [Option.bind_some]
        cases addGlobals environment found.1 { command := found.2 } <;> rfl

theorem read?_importSnapshot {environment : Option String} {file directory : String}
    (henvironment : environment ≠ some "") (hfile : looksLikeOption file = false)
    (hfile' : file ≠ "") (hdirectory : looksLikeOption directory = false)
    (hdirectory' : directory ≠ "") :
    read? environment ["snapshot", "import", file, "--store", directory] =
      some { command := .importSnapshot file (some directory), settingsFile := environment } := by
  have hstore : Arguments.readWord? (globalSpecs ++ [storeSpec]) "--store" =
      some (.awaiting [] "store") := by decide +kernel
  have hsort : sort (globalSpecs ++ [storeSpec]) false [file, "--store", directory] =
      some { given := [("store", some directory)], operands := [file] } := by
    refine sort_eq_some_iff.mpr ⟨?_, ?_⟩
    · rw [sortFrom_operand hfile, sortFrom_value hstore hdirectory]
      rfl
    · simp [globalSpecs, storeSpec, Sorted.count]
  have hleaf : sortLeaf [storeSpec] 1 [file, "--store", directory] =
      some { given := [("store", some directory)], operands := [file] } := by
    rw [sortLeaf, hsort]
    rfl
  have hgiven : optional? { given := [("store", some directory)], operands := [file] } "store"
      nonEmpty? = some (some directory) := by
    rw [optional?_of_value rfl, nonEmpty?, if_neg hdirectory']
    rfl
  have hcommand : readSnapshot? "import" [file, "--store", directory] =
      some ({ given := [("store", some directory)], operands := [file] },
        .importSnapshot file (some directory)) := by
    rw [readSnapshot?, if_pos rfl, hleaf]
    simp [hgiven, nonEmpty?, hfile']
  have hlevels : readLevels? ["snapshot", "import", file, "--store", directory] =
      some ([{ operands := ["snapshot"], rest := ["import", file, "--store", directory] },
        { operands := ["import"], rest := [file, "--store", directory] },
        { given := [("store", some directory)], operands := [file] }],
        .importSnapshot file (some directory)) := by
    rw [readLevels?, splitCommand?_cons (by decide)]
    simp [splitCommand?_cons (show looksLikeOption "import" = false by decide), hcommand]
  rw [read?, hlevels]
  simp [addGlobals_of_none henvironment]

/-! ## The command to render -/

/-- The part of a request that says how to render. -/
def viewRequest? (sorted : Sorted) : Option RenderRequest := do
  let viewer ← optional? sorted "viewer" fun s => (Viewer.read s).value.toOption
  let permalink ← optional? sorted "permalink" fun s => (CommentId.read s).toOption
  let limit ← optional? sorted "limit" wordOfString?
  let order ← optional? sorted "order" fun s => (Order.read s).toOption
  some {
    viewer := viewer.getD .anonymous
    permalink := permalink
    limit := limit
    order := order.getD .top
    json := sorted.has "json" }

theorem viewRequest?_join {first : Sorted}
    (h : ∀ name ∈ ["viewer", "permalink", "limit", "order", "json"],
      name ∉ first.given.map Prod.fst) (second : Sorted) :
    viewRequest? (first.join second) = viewRequest? second := by
  rw [viewRequest?, viewRequest?, optional?_join (h "viewer" (by simp)),
    optional?_join (h "permalink" (by simp)), optional?_join (h "limit" (by simp)),
    optional?_join (h "order" (by simp)), Sorted.has_join (h "json" (by simp))]

/-- A request says what to render and how. -/
theorem readRender?_eq {words : List String} {sorted : Sorted} (file store : Option String)
    (stored : Option Reference) (hsort : sortLeaf renderSpecs 1 words = some sorted)
    (hfile : (match sorted.operands.head? with
      | none => some none
      | some file => (nonEmpty? file).map some) = some file)
    (hstored : optional? sorted "commentable" (fun s => (Reference.read s).toOption) = some stored)
    (hstore : optional? sorted "store" nonEmpty? = some store) :
    readRender? words = (viewRequest? sorted).bind fun request =>
      if file.isSome && stored.isSome then none
      else some (sorted,
        .render { request with file := file, stored := stored, store := store }) := by
  rw [readRender?, hsort, viewRequest?]
  simp only [Option.bind_eq_bind, Option.bind_some, hstored, hstore, Option.bind_assoc]
  cases hhead : sorted.operands.head? with
  | none =>
      rw [hhead] at hfile
      obtain rfl := Option.some.inj hfile
      rfl
  | some word =>
      rw [hhead] at hfile
      simp only [hfile, Option.bind_some]

/-- Options of `render` that say how to render and not what: they name no file, no commentable
and no store. -/
structure AreViewOptions (options : List String) (sorted : Sorted) : Prop where
  sort_eq : sort (globalSpecs ++ renderSpecs) false options = some sorted
  operands : sorted.operands = []
  no_commentable : sorted.count "commentable" = 0
  no_store : sorted.count "store" = 0

theorem looksLikeOption_text (ref : Reference) : looksLikeOption ref.text = false := by
  have hhead : ref.text.toList.head? ≠ some '-' := by
    rw [Reference.toList_text]
    cases ref.kind <;> simp [Kind.name]
  simp [looksLikeOption, hhead]

/-- What the words that name a stored snapshot are sorted into. -/
def namingStored (ref : Reference) (directory : String) : Sorted where
  given := [("commentable", some ref.text), ("store", some directory)]

namespace AreViewOptions

variable {options : List String} {sorted : Sorted}

theorem sortLeaf_file (h : AreViewOptions options sorted) {file : String}
    (hfile : looksLikeOption file = false) :
    sortLeaf renderSpecs 1 (file :: options) =
      some (Sorted.join { operands := [file] } sorted) := by
  obtain ⟨hsorted, hcounts⟩ := sort_eq_some_iff.mp h.sort_eq
  have hsort : sort (globalSpecs ++ renderSpecs) false (file :: options) =
      some (Sorted.join { operands := [file] } sorted) := by
    refine sort_eq_some_iff.mpr ⟨?_, fun spec hspec => ?_⟩
    · rw [sortFrom_operand hfile, hsorted, Option.map_some]
    · rw [Sorted.count_join, Sorted.count_eq_zero (by simp), Nat.zero_add]
      exact hcounts spec hspec
  rw [sortLeaf, hsort]
  simp [Sorted.join, h.operands]

theorem sortLeaf_stored (h : AreViewOptions options sorted) (ref : Reference)
    {directory : String} (hdirectory : looksLikeOption directory = false) :
    sortLeaf renderSpecs 1
        ("--commentable" :: ref.text :: "--store" :: directory :: options) =
      some ((namingStored ref directory).join sorted) := by
  obtain ⟨hsorted, hcounts⟩ := sort_eq_some_iff.mp h.sort_eq
  have hcommentable : Arguments.readWord? (globalSpecs ++ renderSpecs) "--commentable" =
      some (.awaiting [] "commentable") := by decide +kernel
  have hstore : Arguments.readWord? (globalSpecs ++ renderSpecs) "--store" =
      some (.awaiting [] "store") := by decide +kernel
  have hsort : sort (globalSpecs ++ renderSpecs) false
      ("--commentable" :: ref.text :: "--store" :: directory :: options) =
      some ((namingStored ref directory).join sorted) := by
    refine sort_eq_some_iff.mpr ⟨?_, fun spec hspec => ?_⟩
    · rw [sortFrom_value hcommentable (looksLikeOption_text ref),
        sortFrom_value hstore hdirectory, hsorted]
      simp [Sorted.join, namingStored]
    · -- Each of the two is given once, and nowhere else.
      rw [Sorted.count_join]
      by_cases hfirst : spec.long = "commentable"
      · right
        rw [hfirst, h.no_commentable]
        simp [Sorted.count, namingStored]
      by_cases hsecond : spec.long = "store"
      · right
        rw [hsecond, h.no_store]
        simp [Sorted.count, namingStored]
      · rw [Sorted.count_eq_zero (by simp [namingStored, hfirst, hsecond]), Nat.zero_add]
        exact hcounts spec hspec
  rw [sortLeaf, hsort]
  simp [Sorted.join, namingStored, h.operands]

theorem optional?_commentable (h : AreViewOptions options sorted) {α : Type}
    (read? : String → Option α) : optional? sorted "commentable" read? = some none := by
  rw [optional?, Sorted.value?_eq_none h.no_commentable]

theorem optional?_store (h : AreViewOptions options sorted) {α : Type}
    (read? : String → Option α) : optional? sorted "store" read? = some none := by
  rw [optional?, Sorted.value?_eq_none h.no_store]

theorem readRender?_file (h : AreViewOptions options sorted) {file : String}
    (hfile : looksLikeOption file = false) (hne : file ≠ "") :
    readRender? (file :: options) = (viewRequest? sorted).map fun request =>
      (Sorted.join { operands := [file] } sorted,
        .render { request with file := some file, stored := none, store := none }) := by
  have hnone : ∀ name, name ∉ (({ operands := [file] } : Sorted).given.map Prod.fst) := by simp
  refine (readRender?_eq (some file) none none
    (h.sortLeaf_file hfile) ?_ ?_ ?_).trans ?_
  · simp [Sorted.join, nonEmpty?, hne]
  · rw [optional?_join (hnone _), h.optional?_commentable]
  · rw [optional?_join (hnone _), h.optional?_store]
  · rw [viewRequest?_join (fun name _ => hnone name)]
    cases viewRequest? sorted <;> rfl

theorem readRender?_stored (h : AreViewOptions options sorted) (ref : Reference)
    {directory : String} (hdirectory : looksLikeOption directory = false)
    (hne : directory ≠ "") :
    readRender? ("--commentable" :: ref.text :: "--store" :: directory :: options) =
      (viewRequest? sorted).map fun request =>
        ((namingStored ref directory).join sorted,
          .render { request with
            file := none, stored := some ref, store := some directory }) := by
  refine (readRender?_eq none (some directory) (some ref)
    (h.sortLeaf_stored ref hdirectory) ?_ ?_ ?_).trans ?_
  · simp [Sorted.join, namingStored, h.operands]
  · rw [optional?_of_value rfl, Reference.read_text]
    rfl
  · rw [optional?_of_value rfl, nonEmpty?, if_neg hne]
    rfl
  · rw [viewRequest?_join (by simp [namingStored])]
    cases viewRequest? sorted <;> rfl

/-- Where a file is rendered with some options, so may a snapshot be imported and rendered from
a store with the same options. -/
theorem read?_stored (h : AreViewOptions options sorted) {environment : Option String}
    {file directory : String} {invocation : Invocation} (ref : Reference)
    (hfile : looksLikeOption file = false) (hfile' : file ≠ "")
    (hdirectory : looksLikeOption directory = false) (hdirectory' : directory ≠ "")
    (hread : read? environment ("render" :: file :: options) = some invocation) :
    ∃ request : RenderRequest,
      invocation.command =
        .render { request with file := some file, stored := none, store := none } ∧
      read? environment
          ("render" :: "--commentable" :: ref.text :: "--store" :: directory :: options) =
        some { invocation with command := .render { request with
          file := none, stored := some ref, store := some directory } } ∧
      read? environment ["snapshot", "import", file, "--store", directory] =
        some { command := .importSnapshot file (some directory), settingsFile := environment } := by
  rw [read?_render, h.readRender?_file hfile hfile'] at hread
  obtain ⟨⟨inner, command⟩, hcommand, hread⟩ := Option.bind_eq_some_iff.mp hread
  obtain ⟨request, hrequest, hsame⟩ := Option.map_eq_some_iff.mp hcommand
  obtain ⟨rfl, rfl⟩ := Prod.mk.inj hsame
  dsimp only at hread
  split at hread
  · cases hread
  · next henvironment =>
      obtain ⟨found, hfound, rfl⟩ := Option.map_eq_some_iff.mp hread
      rw [addGlobals_join (by simp) (by simp) (by simp)] at hfound
      obtain ⟨hkept, hstored⟩ := addGlobals_anyCommand hfound (.render
        { request with file := none, stored := some ref, store := some directory })
      refine ⟨request, hkept, ?_, read?_importSnapshot henvironment hfile hfile' hdirectory
        hdirectory'⟩
      rw [read?_render, h.readRender?_stored ref hdirectory hdirectory', hrequest, Option.map_some,
        Option.bind_some]
      dsimp only
      rw [if_neg henvironment, addGlobals_join (by simp [namingStored]) (by simp [namingStored])
        (by simp [namingStored]), hstored]
      rfl

end AreViewOptions

end Command

end Discussion
