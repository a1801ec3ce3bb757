import Mathlib.Tactic.Lemma
import Preferences.Text.Bytes

/-!
# Texts and their bytes

A text is read back from its bytes in UTF-8, and only from them. Texts are ordered by their
characters. Their bytes have the same order, since what decides between two characters decides
between the bytes of one and the bytes of the other, whatever follows. Main statements:
`Utf8.decode_eq_ok_iff` and `utf8_lt_of_compare`.
-/

namespace Preferences

/-! ## Texts from bytes -/

/-- The bytes of a text are decoded as the text. -/
lemma Utf8.decode_utf8 (s : String) : Utf8.decode (utf8 s) = .ok s := by
  have bytes : (⟨(utf8 s).toArray⟩ : ByteArray) = s.toByteArray := by simp [utf8]
  have text : String.fromUTF8? s.toByteArray = some s := by
    rw [String.fromUTF8?, dif_pos s.isValidUTF8]
    rfl
  rw [Utf8.decode, bytes, text]

/-- Bytes that are decoded as a text are its bytes. -/
lemma Utf8.eq_utf8_of_decode {bs : Bytes} {s : String} (h : Utf8.decode bs = .ok s) :
    bs = utf8 s := by
  rw [Utf8.decode] at h
  split at h
  next text found =>
    cases h
    rw [String.fromUTF8?] at found
    split at found
    · cases found
      rfl
    · cases found
  next => cases h

/-- No two texts have the same bytes. -/
lemma utf8_inj {s t : String} (h : utf8 s = utf8 t) : s = t := by
  have same := Utf8.decode_utf8 s
  rw [h, Utf8.decode_utf8 t] at same
  cases same
  rfl

/-- Bytes are decoded as a text exactly if they are its bytes. -/
lemma Utf8.decode_eq_ok_iff {bs : Bytes} {s : String} : Utf8.decode bs = .ok s ↔ bs = utf8 s :=
  ⟨Utf8.eq_utf8_of_decode, fun same => same ▸ Utf8.decode_utf8 s⟩

/-! ## Order -/

/-- The bytes of a text are those of its characters in turn. -/
lemma utf8_eq_flatMap (s : String) : utf8 s = s.toList.flatMap String.utf8EncodeChar := by
  have bytes (cs : List Char) : utf8 (String.ofList cs) = cs.flatMap String.utf8EncodeChar := by
    simp [utf8, String.ofList, List.utf8Encode]
  rw [← bytes, String.ofList_toList]

/-- The bytes of texts in a row are those of each. -/
lemma utf8_append (s t : String) : utf8 (s ++ t) = utf8 s ++ utf8 t := by
  rw [utf8_eq_flatMap, utf8_eq_flatMap, utf8_eq_flatMap, String.toList_append, List.flatMap_append]

/-- The bytes of a lesser character come first. -/
lemma utf8EncodeChar_lt {c d : Char} (less : c < d) (bs bs' : Bytes) :
    String.utf8EncodeChar c ++ bs < String.utf8EncodeChar d ++ bs' := by
  have less : c.val.toNat < d.val.toNat := UInt32.lt_iff_toNat_lt.1 less
  have bound : d.val.toNat < 0x110000 := by
    have valid : d.val.toNat < 0xd800 ∨ 0xdfff < d.val.toNat ∧ d.val.toNat < 0x110000 := d.valid
    omega
  rw [String.utf8EncodeChar, String.utf8EncodeChar]
  generalize c.val.toNat = n at *
  generalize d.val.toNat = m at *
  repeat' split
  -- the first byte that differs decides: it is less, or it is the same and a later one decides
  all_goals
    simp only [List.cons_append, List.nil_append, List.cons_lt_cons_iff, UInt8.lt_iff_toNat_lt,
      ← UInt8.toNat_inj, UInt8.toNat_ofNat']
    repeat
      first
        | exact .inl (by omega)
        | refine Decidable.or_iff_not_imp_left.2 fun _ => (fun same => ⟨same, ?_⟩) (by omega)

/-- The order of characters is that of their bytes. -/
lemma flatMap_utf8EncodeChar_lt {cs ds : List Char} (less : cs < ds) :
    cs.flatMap String.utf8EncodeChar < ds.flatMap String.utf8EncodeChar := by
  induction cs generalizing ds with
  | nil =>
    cases ds with
    | nil => exact absurd less (List.lt_irrefl _)
    | cons d ds =>
      obtain ⟨b, bs, bytes⟩ := List.exists_cons_of_ne_nil (String.utf8EncodeChar_ne_nil (c := d))
      rw [List.flatMap_cons, bytes]
      exact List.nil_lt_cons _ _
  | cons c cs ih =>
    cases ds with
    | nil => exact absurd less (List.not_lt_nil _)
    | cons d ds =>
      rw [List.flatMap_cons, List.flatMap_cons]
      rcases List.cons_lt_cons_iff.1 less with first | ⟨rfl, later⟩
      · exact utf8EncodeChar_lt first _ _
      · exact List.append_left_lt (ih later)

/-- A text that comes before another has the lesser bytes. -/
theorem utf8_lt_of_compare {s t : String} (less : compare s t = .lt) : utf8 s < utf8 t := by
  have less : s < t :=
    (compareOfLessAndEq_eq_lt (x := s) (y := t)).1 less
  rw [utf8_eq_flatMap, utf8_eq_flatMap]
  exact flatMap_utf8EncodeChar_lt less

end Preferences
