import Discussion.Form.Snapshot
import Discussion.Proofs.Instant.Text
import Discussion.Proofs.Json.Layout
import Discussion.Proofs.Text.Utf8

/-!
# Snapshots read back

A snapshot is read back from the bytes of its text, provided that its comments were made
at instants which have a text.  The data form is taken apart record by record: a record
with all its fields gives each field its own value.
-/

namespace Discussion

/-! ## Single values -/

theorem wordOfInt?_toNat (w : UInt64) : wordOfInt? w.toNat = some w := by
  have hsize : w.toNat < UInt64.size := w.toNat_lt
  rw [wordOfInt?, if_pos (by omega)]
  simp

theorem signedWordOfInt?_toInt (w : Int64) : signedWordOfInt? w.toInt = some w := by
  have hlow := w.le_toInt
  have hhigh := w.toInt_lt
  have hfits : fitsSignedWord w.toInt = true := by
    simp only [fitsSignedWord, Bool.and_eq_true, decide_eq_true_eq]
    omega
  rw [signedWordOfInt?, if_pos hfits, Int64.ofInt_toInt]

namespace Json

theorem arePlain_iff (items : List Json) : ArePlain items ↔ ∀ item ∈ items, item.IsPlain := by
  induction items with
  | nil => simp [ArePlain]
  | cons item items ih => simp [ArePlain, ih]

theorem ofMembers_eq (members : List (String × Json)) :
    ofMembers members = .object (members.map fun m => (some m.1, m.2)) := rfl

theorem isPlain_ofMembers {members : List (String × Json)} (h : ∀ m ∈ members, m.2.IsPlain) :
    (Json.ofMembers members).IsPlain := by
  have hall : AreMembersPlain (members.map fun m => (some m.1, m.2)) := by
    induction members with
    | nil => trivial
    | cons m members ih => exact ⟨rfl, h m (by simp), ih fun n hn => h n (by simp [hn])⟩
  exact hall

theorem isPlain_ofWord (w : UInt64) : (ofWord w).IsPlain := by
  have hsize : w.toNat < 18446744073709551616 := w.toNat_lt
  exact ⟨by omega, by omega⟩

theorem isPlain_ofSignedWord (w : Int64) : (ofSignedWord w).IsPlain := by
  have hlow := w.le_toInt
  have hhigh := w.toInt_lt
  exact ⟨by omega, by omega⟩

/-- An array of values is read item by item. -/
theorem list_map {α : Type} {decode : Decoder α} {encode : α → Json} {room : Nat} {items : List α}
    (h : ∀ item ∈ items, decode room (encode item) = some item) :
    list decode (room + 1) (.array (items.map encode)) = some items := by
  change (items.map encode).mapM (decode room) = some items
  induction items with
  | nil => rfl
  | cons item items ih =>
      rw [List.map_cons, List.mapM_cons, h item (by simp),
        ih fun other hother => h other (by simp [hother])]
      rfl

/-! ## Records -/

theorem lookup_eq_none_of_notMem {given : List (String × Json)} {key : String}
    (h : key ∉ given.map Prod.fst) : given.lookup key = none := by
  rw [List.lookup_eq_none_iff]
  intro m hm
  have hne : key ≠ m.1 := by
    rintro rfl
    exact h (List.mem_map_of_mem hm)
  simpa using hne

/-- Where each new key is put before those given so far, different keys are all given. -/
theorem foldlM_members_of_nodup
    {step : List (String × Json) → Option String × Json → Option (List (String × Json))}
    {names : List String}
    (hstep : ∀ given key value, names.contains key = true → given.lookup key = none →
      step given (some key, value) = some ((key, value) :: given))
    {members given : List (String × Json)} (hnames : ∀ m ∈ members, m.1 ∈ names)
    (hnodup : (members.map Prod.fst).Nodup) (hgiven : ∀ m ∈ members, m.1 ∉ given.map Prod.fst) :
    (members.map fun m => (some m.1, m.2)).foldlM step given =
      some (members.reverse ++ given) := by
  induction members generalizing given with
  | nil => rfl
  | cons m members ih =>
      obtain ⟨key, value⟩ := m
      rw [List.map_cons, List.nodup_cons] at hnodup
      have hname : names.contains key = true := by
        simpa using hnames (key, value) (by simp)
      have hnew : given.lookup key = none :=
        lookup_eq_none_of_notMem (hgiven (key, value) (by simp))
      rw [List.map_cons, List.foldlM_cons, hstep given key value hname hnew]
      simp only [Option.bind_eq_bind, Option.bind_some]
      rw [ih (fun n hn => hnames n (by simp [hn])) hnodup.2]
      · simp
      · intro n hn hmem
        rw [List.map_cons, List.mem_cons] at hmem
        rcases hmem with hsame | hmem
        · exact hnodup.1 (hsame ▸ List.mem_map_of_mem hn)
        · exact hgiven n (by simp [hn]) hmem

/-- Members whose keys are different names of fields are all given, the last first. -/
theorem givenFields?_of_nodup {names : List String} {members : List (String × Json)}
    (hnames : ∀ m ∈ members, m.1 ∈ names) (hnodup : (members.map Prod.fst).Nodup) :
    givenFields? names (members.map fun m => (some m.1, m.2)) = some members.reverse := by
  rw [givenFields?, foldlM_members_of_nodup _ hnames hnodup (by simp), List.append_nil]
  intro given key value hname hnew
  simp only [hname, hnew, Bool.not_true, Bool.false_eq_true, if_false, Option.isSome_none]

theorem lookup_of_mem {given : List (String × Json)} (hnodup : (given.map Prod.fst).Nodup)
    {name : String} {value : Json} (hmem : (name, value) ∈ given) :
    given.lookup name = some value := by
  induction given with
  | nil => simp at hmem
  | cons m given ih =>
      obtain ⟨key, first⟩ := m
      rw [List.map_cons, List.nodup_cons] at hnodup
      rcases List.mem_cons.mp hmem with hsame | hrest
      · cases hsame
        exact List.lookup_cons_self
      · have hne : name ≠ key := by
          rintro rfl
          exact hnodup.1 (List.mem_map.mpr ⟨_, hrest, rfl⟩)
        have hneq : (name == key) = false := by simpa using hne
        rw [List.lookup_cons, hneq]
        exact ih hnodup.2 hrest

/-- Fields that were given exactly some members. -/
structure Fields.Hold (fields : Fields) (room : Nat) (members : List (String × Json)) : Prop where
  room_eq : fields.room = room
  get?_eq : ∀ {name value}, (name, value) ∈ members → fields.get? name = some value

theorem Fields.Hold.required {fields : Fields} {room : Nat} {members : List (String × Json)}
    (h : fields.Hold room members) {α : Type} {decode : Decoder α} {name : String} {value : Json}
    {a : α} (hvalue : decode room value = some a) (hmem : (name, value) ∈ members) :
    fields.required name decode = some a := by
  rw [Fields.required, h.get?_eq hmem, h.room_eq]
  exact hvalue

theorem Fields.Hold.withDefault {fields : Fields} {room : Nat} {members : List (String × Json)}
    (h : fields.Hold room members) {α : Type} {decode : Decoder α} {name : String} {value : Json}
    {a default : α} (hvalue : decode room value = some a) (hmem : (name, value) ∈ members) :
    fields.withDefault name decode default = some a := by
  rw [Fields.withDefault, h.get?_eq hmem, h.room_eq]
  exact hvalue

theorem hold_reverse {members : List (String × Json)} (hnodup : (members.map Prod.fst).Nodup)
    (room : Nat) : Fields.Hold { room := room, given := members.reverse } room members := by
  refine ⟨rfl, fun hmem => lookup_of_mem ?_ (List.mem_reverse.mpr hmem)⟩
  rw [List.map_reverse]
  exact (List.reverse_perm _).nodup_iff.mpr hnodup

/-- A record with each of its fields once gives all of them. -/
theorem record_ofMembers (names : List String) (members : List (String × Json))
    (hnames : members.map Prod.fst = names) (hnodup : names.Nodup) (room : Nat) :
    ∃ fields, record names (room + 1) (.ofMembers members) = some fields ∧
      fields.Hold room members := by
  subst hnames
  have hgiven := givenFields?_of_nodup (fun m hm => List.mem_map_of_mem hm) hnodup
  refine ⟨_, ?_, hold_reverse hnodup room⟩
  rw [ofMembers_eq, record, hgiven]
  rfl

/-- So does a record that shares its object with another, if no other members are there. -/
theorem mixedRecord_ofMembers (names : List String) (members : List (String × Json))
    (hnames : members.map Prod.fst = names) (hnodup : names.Nodup) (room : Nat) :
    ∃ fields, mixedRecord names (room + 1) (.ofMembers members) = some fields ∧
      fields.Hold room members := by
  subst hnames
  have hgiven := givenFields?_of_nodup (fun m hm => List.mem_map_of_mem hm) hnodup
  have hothers : otherMembers (members.map Prod.fst)
      (members.map fun m => (some m.1, m.2)) = [] := by
    rw [otherMembers, List.filter_eq_nil_iff]
    intro m hm
    obtain ⟨n, hn, rfl⟩ := List.mem_map.mp hm
    have hname : n.1 ∈ members.map Prod.fst := List.mem_map_of_mem hn
    simpa using hname
  refine ⟨_, ?_, hold_reverse hnodup room⟩
  rw [ofMembers_eq, mixedRecord, hothers, hgiven]
  rfl

end Json

/-! ## Identities and instants -/

theorem Json.word_ofWord (room : Nat) (w : UInt64) : Json.word room (.ofWord w) = some w := by
  rw [Json.ofWord, Json.word, wordOfInt?_toNat]

theorem Json.signedWord_ofSignedWord (room : Nat) (w : Int64) :
    Json.signedWord room (.ofSignedWord w) = some w := by
  rw [Json.ofSignedWord, Json.signedWord, signedWordOfInt?_toInt]

theorem Json.flag_bool (room : Nat) (b : Bool) : Json.flag room (.bool b) = some b := rfl

theorem Json.text_ofString (room : Nat) (s : String) : Json.text room (.ofString s) = some s := rfl

theorem CommentId.ofJson?_toJson (room : Nat) (id : CommentId) :
    ofJson? room id.toJson = some id := by
  rw [ofJson?, toJson, Json.word_ofWord, Option.map_some]

theorem UserId.ofJson?_toJson (room : Nat) (id : UserId) : ofJson? room id.toJson = some id := by
  rw [ofJson?, toJson, Json.word_ofWord, Option.map_some]

theorem Instant.ofJson?_toJson {t : Instant} (h : t.IsRegular) (room : Nat) :
    ofJson? room t.toJson = some t := by
  rw [ofJson?, toJson, Json.ofString, Json.text, Option.bind_some, ofString?_text h]

theorem Kind.ofJson?_toJson (room : Nat) (kind : Kind) : ofJson? room kind.toJson = some kind := by
  cases kind <;> rfl

theorem Kind.mixedEnumeration_toJson (room : Nat) (kind : Kind) :
    Json.mixedEnumeration all name room kind.toJson = some kind := by
  cases kind <;> rfl

theorem Reference.ofJson?_toJson (room : Nat) (ref : Reference) :
    ofJson? (room + 1) ref.toJson = some ref := by
  obtain ⟨fields, hrecord, hfields⟩ := Json.record_ofMembers fieldNames
    [("kind", ref.kind.toJson), ("id", .ofWord ref.id)] rfl (by simp [fieldNames]) room
  have hkind : fields.required "kind" Kind.ofJson? = some ref.kind :=
    hfields.required (Kind.ofJson?_toJson room ref.kind) (by simp)
  have hid : fields.required "id" Json.word = some ref.id :=
    hfields.required (Json.word_ofWord room ref.id) (by simp)
  rw [ofJson?, toJson, hrecord]
  simp only [Option.bind_eq_bind, Option.bind_some, hkind, hid]

/-! ## Comments and commentables -/

theorem Comment.ofJson?_toJson (room : Nat) {c : Comment} (h : c.createdAt.IsRegular) :
    ofJson? (room + 2) c.toJson = some c := by
  obtain ⟨fields, hrecord, hfields⟩ := Json.record_ofMembers fieldNames [
      ("id", c.id.toJson),
      ("parent_id", c.parent.elim .null CommentId.toJson),
      ("commentable", c.commentable.toJson),
      ("user_id", c.user.toJson),
      ("score", .ofSignedWord c.score),
      ("hidden_by_commentable_user", .bool c.hidden),
      ("deleted", .bool c.deleted),
      ("created_at", c.createdAt.toJson)] rfl (by simp [fieldNames]) (room + 1)
  have hid : fields.required "id" CommentId.ofJson? = some c.id :=
    hfields.required (CommentId.ofJson?_toJson _ _) (by simp)
  have hparent : fields.withDefault "parent_id" (Json.nullable CommentId.ofJson?) none =
      some c.parent := by
    have hvalue : Json.nullable CommentId.ofJson? (room + 1)
        (c.parent.elim .null CommentId.toJson) = some c.parent := by
      cases c.parent with
      | none => rfl
      | some id =>
          change (CommentId.ofJson? (room + 1) id.toJson).map some = _
          rw [CommentId.ofJson?_toJson, Option.map_some]
    exact hfields.withDefault hvalue (by simp)
  have hcommentable : fields.required "commentable" Reference.ofJson? = some c.commentable :=
    hfields.required (Reference.ofJson?_toJson room c.commentable) (by simp)
  have huser : fields.required "user_id" UserId.ofJson? = some c.user :=
    hfields.required (UserId.ofJson?_toJson _ _) (by simp)
  have hscore : fields.withDefault "score" Json.signedWord 0 = some c.score :=
    hfields.withDefault (Json.signedWord_ofSignedWord _ _) (by simp)
  have hhidden : fields.withDefault "hidden_by_commentable_user" Json.flag false =
      some c.hidden :=
    hfields.withDefault (Json.flag_bool _ _) (by simp)
  have hdeleted : fields.withDefault "deleted" Json.flag false = some c.deleted :=
    hfields.withDefault (Json.flag_bool _ _) (by simp)
  have hcreated : fields.required "created_at" Instant.ofJson? = some c.createdAt :=
    hfields.required (Instant.ofJson?_toJson h _) (by simp)
  rw [ofJson?, toJson, hrecord]
  simp only [Option.bind_eq_bind, Option.bind_some, hid, hparent, hcommentable, huser, hscore,
    hhidden, hdeleted, hcreated]

theorem Commentable.ofJson?_toJson (room : Nat) (owner : Commentable) :
    ofJson? (room + 2) owner.toJson = some owner := by
  obtain ⟨fields, hrecord, hfields⟩ := Json.mixedRecord_ofMembers fieldNames [
      ("kind", owner.reference.kind.toJson),
      ("id", .ofWord owner.reference.id),
      ("user_id", owner.user.toJson),
      ("co_author_ids", .array (owner.coAuthors.map UserId.toJson)),
      ("any_comments_hidden", .bool owner.anyCommentsHidden),
      ("score", .ofSignedWord owner.score)] rfl (by simp [fieldNames]) (room + 1)
  have hkind : fields.required "kind" (Json.mixedEnumeration Kind.all Kind.name) =
      some owner.reference.kind :=
    hfields.required (Kind.mixedEnumeration_toJson _ _) (by simp)
  have hid : fields.required "id" Json.word = some owner.reference.id :=
    hfields.required (Json.word_ofWord _ _) (by simp)
  have huser : fields.required "user_id" UserId.ofJson? = some owner.user :=
    hfields.required (UserId.ofJson?_toJson _ _) (by simp)
  have hcoAuthors : fields.withDefault "co_author_ids" (Json.list UserId.ofJson?) [] =
      some owner.coAuthors :=
    hfields.withDefault (Json.list_map fun id _ => UserId.ofJson?_toJson room id) (by simp)
  have hhidden : fields.withDefault "any_comments_hidden" Json.flag false =
      some owner.anyCommentsHidden :=
    hfields.withDefault (Json.flag_bool _ _) (by simp)
  have hscore : fields.withDefault "score" Json.signedWord 0 = some owner.score :=
    hfields.withDefault (Json.signedWord_ofSignedWord _ _) (by simp)
  rw [ofJson?, toJson, hrecord]
  simp only [Option.bind_eq_bind, Option.bind_some, hkind, hid, huser, hcoAuthors, hhidden, hscore]

/-! ## Snapshots -/

/-- A snapshot whose comments were made at instants that some text is read as.  By
`Instant.isRegular_iff` these are the instants of the days that are kept, with leap seconds at
the end of a minute only. -/
def Snapshot.IsSpelled (snapshot : Snapshot) : Prop :=
  ∀ c ∈ snapshot.comments, ∃ s, Instant.ofString? s = some c.createdAt

theorem Snapshot.ofJson?_toJson (room : Nat) {snapshot : Snapshot} (h : snapshot.IsSpelled) :
    ofJson? (room + 4) snapshot.toJson = some snapshot := by
  obtain ⟨fields, hrecord, hfields⟩ := Json.record_ofMembers fieldNames [
      ("schema_version", .ofString snapshot.schemaVersion),
      ("commentable", snapshot.commentable.toJson),
      ("comments", .array (snapshot.comments.map Comment.toJson))]
    rfl (by simp [fieldNames]) (room + 3)
  have hversion : fields.withDefault "schema_version" Json.text "1.0" =
      some snapshot.schemaVersion :=
    hfields.withDefault (Json.text_ofString _ _) (by simp)
  have hcommentable : fields.required "commentable" Commentable.ofJson? =
      some snapshot.commentable :=
    hfields.required (Commentable.ofJson?_toJson (room + 1) snapshot.commentable) (by simp)
  have hcomments : fields.withDefault "comments" (Json.list Comment.ofJson?) [] =
      some snapshot.comments := by
    have hvalue : Json.list Comment.ofJson? (room + 3)
        (.array (snapshot.comments.map Comment.toJson)) = some snapshot.comments :=
      Json.list_map fun c hc => Comment.ofJson?_toJson room ((Instant.isRegular_iff _).mpr (h c hc))
    exact hfields.withDefault hvalue (by simp)
  rw [ofJson?, toJson, hrecord]
  simp only [Option.bind_eq_bind, Option.bind_some, hversion, hcommentable, hcomments]

/-! ## Their texts -/

theorem CommentId.isPlain_toJson (id : CommentId) : id.toJson.IsPlain :=
  Json.isPlain_ofWord id.value

theorem UserId.isPlain_toJson (id : UserId) : id.toJson.IsPlain :=
  Json.isPlain_ofWord id.value

theorem Reference.isPlain_toJson (ref : Reference) : ref.toJson.IsPlain := by
  refine Json.isPlain_ofMembers ?_
  simp only [List.forall_mem_cons, List.not_mem_nil, false_implies, implies_true, and_true]
  exact ⟨rfl, Json.isPlain_ofWord ref.id⟩

theorem Comment.isPlain_toJson (c : Comment) : c.toJson.IsPlain := by
  have hparent : (c.parent.elim .null CommentId.toJson).IsPlain := by
    cases c.parent with
    | none => trivial
    | some id => exact id.isPlain_toJson
  refine Json.isPlain_ofMembers ?_
  simp only [List.forall_mem_cons, List.not_mem_nil, false_implies, implies_true, and_true]
  exact ⟨c.id.isPlain_toJson, hparent, c.commentable.isPlain_toJson, c.user.isPlain_toJson,
    Json.isPlain_ofSignedWord c.score, trivial, trivial, rfl⟩

theorem Commentable.isPlain_toJson (owner : Commentable) : owner.toJson.IsPlain := by
  have hcoAuthors : (Json.array (owner.coAuthors.map UserId.toJson)).IsPlain := by
    refine (Json.arePlain_iff _).mpr ?_
    rintro _ hmem
    obtain ⟨id, -, rfl⟩ := List.mem_map.mp hmem
    exact id.isPlain_toJson
  refine Json.isPlain_ofMembers ?_
  simp only [List.forall_mem_cons, List.not_mem_nil, false_implies, implies_true, and_true]
  exact ⟨rfl, Json.isPlain_ofWord _, owner.user.isPlain_toJson, hcoAuthors, trivial,
    Json.isPlain_ofSignedWord owner.score⟩

theorem Snapshot.isPlain_toJson (snapshot : Snapshot) : snapshot.toJson.IsPlain := by
  have hcomments : (Json.array (snapshot.comments.map Comment.toJson)).IsPlain := by
    refine (Json.arePlain_iff _).mpr ?_
    rintro _ hmem
    obtain ⟨c, -, rfl⟩ := List.mem_map.mp hmem
    exact c.isPlain_toJson
  refine Json.isPlain_ofMembers ?_
  simp only [List.forall_mem_cons, List.not_mem_nil, false_implies, implies_true, and_true]
  exact ⟨rfl, snapshot.commentable.isPlain_toJson, hcomments⟩

/-- A snapshot is read back from the bytes of every text that stands for its JSON value. -/
theorem Snapshot.read?_encode {snapshot : Snapshot} (h : snapshot.IsSpelled) {s : String}
    (hs : Json.ofText? s = some snapshot.toJson) :
    read? (Utf8.decode (Utf8.encode s)) = some snapshot := by
  have hjson : Json.read? (Utf8.decode (Utf8.encode s)) = some snapshot.toJson := by
    rw [Utf8.decode_encode]
    exact hs
  have hvalue : Json.decode? ofJson? snapshot.toJson = some snapshot :=
    ofJson?_toJson 123 h
  rw [read?, hjson, Option.bind_some, hvalue]

/-- A valid snapshot is read back from the bytes of its text. -/
theorem Snapshot.ofText_encode_text {snapshot : Snapshot} (hvalid : snapshot.validate = .ok ())
    (h : snapshot.IsSpelled) :
    ofText (Utf8.decode (Utf8.encode snapshot.text)) = .ok snapshot := by
  have hread := read?_encode h (s := snapshot.text) (Json.ofText?_pretty snapshot.isPlain_toJson)
  rw [ofText, hread]
  simp only [hvalid]
  rfl

/-! ## Snapshots that were read -/

/-- Each item of an array that is read comes from some value. -/
theorem Json.exists_of_mem_list {α : Type} {decode : Decoder α} {room : Nat} {value : Json}
    {items : List α} (h : list decode room value = some items) :
    ∀ item ∈ items, ∃ inside value, decode inside value = some item := by
  obtain ⟨⟨inside, values⟩, -, hitems⟩ := Option.bind_eq_some_iff.mp h
  replace hitems : values.mapM (decode inside) = some items := hitems
  clear h
  induction values generalizing items with
  | nil =>
      obtain rfl := Option.some.inj hitems
      simp
  | cons first values ih =>
      rw [List.mapM_cons] at hitems
      obtain ⟨item, hfirst, hitems⟩ := Option.bind_eq_some_iff.mp hitems
      obtain ⟨others, hothers, heq⟩ := Option.bind_eq_some_iff.mp hitems
      obtain rfl := Option.some.inj heq
      intro a ha
      rcases List.mem_cons.mp ha with rfl | ha
      · exact ⟨inside, first, hfirst⟩
      · exact ih hothers a ha

theorem Comment.exists_ofString?_of_ofJson? {room : Nat} {value : Json} {c : Comment}
    (h : ofJson? room value = some c) : ∃ s, Instant.ofString? s = some c.createdAt := by
  simp only [ofJson?, Option.bind_eq_bind, Option.bind_eq_some_iff, Option.some.injEq] at h
  obtain ⟨fields, -, id, -, parent, -, commentable, -, user, -, score, -, hidden, -, deleted, -,
    createdAt, hcreated, rfl⟩ := h
  obtain ⟨given, -, htext⟩ := Option.bind_eq_some_iff.mp hcreated
  obtain ⟨s, -, hs⟩ := Option.bind_eq_some_iff.mp htext
  exact ⟨s, hs⟩

/-- Comments that are read were made at instants that some text is read as, whether their
array was given or not. -/
theorem Snapshot.isSpelled_of_read? {cs : List (Option Char)} {snapshot : Snapshot}
    (h : read? cs = some snapshot) : snapshot.IsSpelled := by
  obtain ⟨value, -, hvalue⟩ := Option.bind_eq_some_iff.mp h
  simp only [Json.decode?, ofJson?, Option.bind_eq_bind, Option.bind_eq_some_iff,
    Option.some.injEq] at hvalue
  obtain ⟨fields, -, version, -, commentable, -, comments, hcomments, rfl⟩ := hvalue
  intro c hc
  rw [Json.Fields.withDefault] at hcomments
  split at hcomments
  · obtain ⟨room, item, hitem⟩ := Json.exists_of_mem_list hcomments c hc
    exact Comment.exists_ofString?_of_ofJson? hitem
  · obtain rfl := Option.some.inj hcomments
    cases hc

/-- A snapshot that is the same after it was written and read again, in either layout of its
text. -/
structure Snapshot.IsReadBack (snapshot : Snapshot) : Prop where
  compact : read? (Utf8.decode (Utf8.encode snapshot.toJson.compact)) = some snapshot
  pretty : read? (Utf8.decode (Utf8.encode snapshot.text)) = some snapshot

/-- The snapshots that survive are exactly those whose instants have a text, and every snapshot
that was itself read is among them. -/
theorem Snapshot.isReadBack_iff_isSpelled (snapshot : Snapshot) :
    (snapshot.IsReadBack ↔ snapshot.IsSpelled) ∧
      ∀ cs, read? cs = some snapshot → snapshot.IsReadBack := by
  have hback : snapshot.IsSpelled → snapshot.IsReadBack := by
    intro h
    exact {
      compact := read?_encode h (Json.ofText?_compact snapshot.isPlain_toJson)
      pretty := read?_encode h (Json.ofText?_pretty snapshot.isPlain_toJson) }
  exact ⟨⟨fun h => isSpelled_of_read? h.pretty, hback⟩, fun _ h => hback (isSpelled_of_read? h)⟩

/-- The largest numbers, a version that must be escaped, and a comment on another commentable in
a leap second of which only half a second has passed. -/
theorem Snapshot.isReadBack_of_leap_second :
    let snapshot : Snapshot :=
      { schemaVersion := "1.\"\\\u0001é\n"
        commentable := {
          reference := { kind := .podcastEpisode, id := 18446744073709551615 }
          user := { value := 0 }
          coAuthors := [{ value := 18446744073709551615 }, { value := 0 }]
          score := -9223372036854775808 }
        comments := [{
          id := { value := 18446744073709551615 }
          parent := some { value := 18446744073709551615 }
          commentable := { kind := .article, id := 0 }
          user := { value := 1 }
          score := 9223372036854775807
          hidden := true
          deleted := true
          createdAt := { second := 1483228799, nano := 1500000000 } }] }
    snapshot.IsSpelled ∧ read? (snapshot.text.toList.map some) = some snapshot ∧
      snapshot.IsReadBack := by
  intro snapshot
  have hregular : ({ second := 1483228799, nano := 1500000000 } : Instant).IsRegular :=
    ⟨by decide, by decide, by decide⟩
  have hspelled : snapshot.IsSpelled := by
    intro c hc
    rw [List.mem_singleton.mp hc]
    exact (Instant.isRegular_iff _).mp hregular
  have hback := (isReadBack_iff_isSpelled snapshot).1.mpr hspelled
  have hread : read? (snapshot.text.toList.map some) = some snapshot := by
    rw [← Utf8.decode_encode]
    exact hback.pretty
  exact ⟨hspelled, hread, (isReadBack_iff_isSpelled snapshot).2 _ hread⟩

/-! ## Snapshots as their texts tell them -/

/-- The comment that the written form tells. -/
def Comment.asWritten (c : Comment) : Comment :=
  { c with createdAt := c.createdAt.asWritten }

namespace Snapshot

/-- A snapshot whose comments were made on days that are kept. -/
def InRange (snapshot : Snapshot) : Prop :=
  ∀ c ∈ snapshot.comments, c.createdAt.InRange

/-- The snapshot that the written form tells. -/
def asWritten (snapshot : Snapshot) : Snapshot :=
  { snapshot with comments := snapshot.comments.map Comment.asWritten }

theorem isSpelled_asWritten {snapshot : Snapshot} (h : snapshot.InRange) :
    snapshot.asWritten.IsSpelled := by
  intro c hc
  obtain ⟨d, hd, rfl⟩ := List.mem_map.mp hc
  exact (Instant.isRegular_iff _).mp (Instant.isRegular_asWritten (h d hd))

/-- The snapshots that are the same as their written form tells are the spelled ones. -/
theorem asWritten_eq_self_iff {snapshot : Snapshot} (h : snapshot.InRange) :
    snapshot.asWritten = snapshot ↔ snapshot.IsSpelled := by
  refine ⟨fun hsame => hsame ▸ isSpelled_asWritten h, fun hspelled => ?_⟩
  have hcomment : ∀ c ∈ snapshot.comments, c.asWritten = id c := by
    intro c hc
    have hsame := ((Instant.isRegular_iff _).mpr (hspelled c hc)).asWritten_eq
    simp only [Comment.asWritten, hsame, id]
  have hcomments : snapshot.comments.map Comment.asWritten = snapshot.comments :=
    (List.map_congr_left hcomment).trans (List.map_id _)
  rw [asWritten, hcomments]

theorem text_asWritten {snapshot : Snapshot} (h : snapshot.InRange) :
    snapshot.asWritten.text = snapshot.text := by
  have hcomment : ∀ c ∈ snapshot.comments, c.asWritten.toJson = c.toJson := by
    intro c hc
    have htext := Instant.text_asWritten (h c hc)
    simp only [Comment.toJson, Comment.asWritten, Instant.toJson, htext]
  have hcomments : (snapshot.comments.map Comment.asWritten).map Comment.toJson =
      snapshot.comments.map Comment.toJson := by
    rw [List.map_map]
    exact List.map_congr_left hcomment
  simp only [text, toJson, asWritten, hcomments]

theorem validate_asWritten (snapshot : Snapshot) :
    snapshot.asWritten.validate = snapshot.validate := by
  have hstray : snapshot.asWritten.stray? = snapshot.stray?.map Comment.asWritten := List.find?_map
  rw [validate, validate, hstray]
  cases snapshot.stray? <;> rfl

/-- What is read for the text of a snapshot. -/
def reread (snapshot : Snapshot) : Except Fault Snapshot :=
  ofText (Utf8.decode (Utf8.encode snapshot.text))

/-- A valid snapshot is read back from its text up to the leap seconds inside a minute. -/
theorem reread_eq {snapshot : Snapshot} (hvalid : snapshot.validate = .ok ())
    (h : snapshot.InRange) : snapshot.reread = .ok snapshot.asWritten := by
  rw [reread, ← text_asWritten h]
  exact ofText_encode_text (snapshot.validate_asWritten.trans hvalid) (isSpelled_asWritten h)

end Snapshot

end Discussion
