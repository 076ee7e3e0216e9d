import Discussion.Proofs.Commentable.Text
import Discussion.Proofs.Disk.Path
import Discussion.Store.Basic

/-!
# The files of a store

Each commentable has a file name of its own, for it is read back from its text, and a name under
which its snapshot is written first that no snapshot bears.
-/

namespace Discussion

theorem utf8ByteSize_le (s : String) : s.utf8ByteSize ≤ 4 * s.toList.length := by
  have hbytes : s.utf8ByteSize = (s.toList.flatMap String.utf8EncodeChar).length := by
    rw [String.utf8ByteSize, ← String.utf8Encode_toList, List.utf8Encode, List.size_toByteArray]
  rw [hbytes]
  induction s.toList with
  | nil => simp
  | cons c cs ih =>
      have hc : (String.utf8EncodeChar c).length ≤ 4 := by
        rw [String.length_utf8EncodeChar]
        exact c.utf8Size_le_four
      rw [List.flatMap_cons, List.length_append, List.length_cons]
      omega

namespace Reference

theorem no_slash_text (ref : Reference) : '/' ∉ ref.text.toList := by
  have hkind : '/' ∉ ref.kind.name.toList := by
    cases ref.kind <;> decide
  have hnumeral : '/' ∉ numeral ref.id.toNat := by
    intro hmem
    have hdigit := isDigit_of_mem_numeral hmem
    cases hdigit
  rw [toList_text, List.mem_append, List.mem_cons]
  rintro (hmem | hmem | hmem)
  · exact hkind hmem
  · cases hmem
  · exact hnumeral hmem

theorem length_text_le (ref : Reference) : ref.text.toList.length ≤ 36 := by
  have hkind : ref.kind.name.toList.length ≤ 15 := by
    cases ref.kind <;> decide
  have hsize : ref.id.toNat < 10 ^ 20 := Nat.lt_trans ref.id.toNat_lt (by decide)
  have hnumeral : (numeral ref.id.toNat).length ≤ 20 := length_numeral_le (by decide) hsize
  rw [toList_text, List.length_append, List.length_cons]
  omega

end Reference

namespace Store

theorem toList_fileName (ref : Reference) :
    (fileName ref).toList = ref.text.toList ++ ['.', 'j', 's', 'o', 'n'] := by
  simp [fileName, String.toList_append]

theorem toList_tempName (ref : Reference) :
    (tempName ref).toList =
      '.' :: (ref.text.toList ++ ['.', 'j', 's', 'o', 'n', '.', 't', 'm', 'p']) := by
  simp [tempName, String.toList_append]

/-- The text of a commentable begins with a letter. -/
theorem head?_fileName (ref : Reference) : (fileName ref).toList.head? ≠ some '.' := by
  rw [toList_fileName, Reference.toList_text]
  cases ref.kind <;> simp [Kind.name]

/-- A text of a few characters without slashes can be a name. -/
theorem isName_of_length {name : String} (hslash : '/' ∉ name.toList)
    (hlong : 3 ≤ name.toList.length) (hshort : name.toList.length ≤ 63) : IsName name := by
  have hne : ∀ other : String, other.toList.length < 3 → name ≠ other := by
    rintro other hother rfl
    omega
  have hsize := utf8ByteSize_le name
  refine ⟨hne "" (by decide), hslash, hne "." (by decide), hne ".." (by decide), ?_⟩
  rw [maxNameBytes]
  omega

theorem isName_snapshots : IsName "snapshots" :=
  ⟨by decide, by decide, by decide, by decide, by decide⟩

theorem isName_fileName (ref : Reference) : IsName (fileName ref) := by
  have hlength := ref.length_text_le
  refine isName_of_length ?_ ?_ ?_
  · simp [toList_fileName, ref.no_slash_text]
  · simp [toList_fileName]
  · rw [toList_fileName, List.length_append]
    simp only [List.length_cons, List.length_nil]
    omega

theorem isName_tempName (ref : Reference) : IsName (tempName ref) := by
  have hlength := ref.length_text_le
  refine isName_of_length ?_ ?_ ?_
  · simp [toList_tempName, ref.no_slash_text]
  · simp [toList_tempName]
  · rw [toList_tempName, List.length_cons, List.length_append]
    simp only [List.length_cons, List.length_nil]
    omega

theorem fileName_injective {a b : Reference} (h : fileName a = fileName b) : a = b := by
  have hlist : (fileName a).toList = (fileName b).toList := congrArg String.toList h
  rw [toList_fileName, toList_fileName] at hlist
  exact Reference.text_injective (String.toList_inj.mp (List.append_cancel_right hlist))

theorem fileName_ne_tempName (a b : Reference) : fileName a ≠ tempName b := by
  intro h
  refine head?_fileName a ?_
  rw [h, toList_tempName]
  rfl

theorem isSnapshotName_fileName (ref : Reference) : isSnapshotName (fileName ref) = true := by
  have hsuffix : ['.', 'j', 's', 'o', 'n'] <:+ (fileName ref).toList := by
    rw [toList_fileName]
    exact ⟨ref.text.toList, rfl⟩
  simp [isSnapshotName, head?_fileName, hsuffix]

end Store

/-- References are read back from their texts, so the snapshots of different commentables have
different file names, and none of these is a name under which a snapshot is written first.  What
is read is spelled by a kind, a mark and a number, and all other texts are refused. -/
theorem Reference.read_iff_isSpelled :
    (∀ ref, read ref.text = .ok ref) ∧ Function.Injective Store.fileName ∧
      (∀ ref other, Store.fileName ref ≠ Store.tempName other) ∧
        ∀ s, (∀ ref, read s = .ok ref ↔ IsSpelled s ref) ∧
          ((∀ ref, ¬IsSpelled s ref) → ∃ refusal, read s = .error (.invalidArgument refusal)) := by
  refine ⟨read_text, fun _ _ h => Store.fileName_injective h, Store.fileName_ne_tempName,
    fun s => ⟨fun _ => read_eq_ok_iff, fun h => ?_⟩⟩
  exact exists_refusal_of_read fun ref hread => h ref (read_eq_ok_iff.mp hread)

end Discussion
