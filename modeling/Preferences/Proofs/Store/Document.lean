import Preferences.Proofs.Files.Disk
import Preferences.Proofs.Shape.Container
import Preferences.Store.PreferenceFile

/-!
# Preference files read back

A stored value is read back from its printed object, in any layout, and all values of a store from
the text of its preference file. Main statement: `PreferenceFile.parse_render`.
-/

namespace Preferences

open Json

variable {l : Layout} {level : Nat}

/-! ## Stored values -/

namespace Value

/-- The tag of a kind is read as the kind. -/
lemma reads_kindTag (depth : Nat) (k : Primitive) :
    Reads (kindTag depth) (stringChars k.label) k := by
  intro blanks rest hb stops
  have named : variantName (Primitive.all.map Primitive.label) (stringChars k.label ++ rest) =
      .ok (k.label, rest) := by
    have known : k.label ∈ Primitive.all.map Primitive.label := by cases k <;> decide
    exact reads_textAs (if_pos known) [] rest Blanks.nil stops
  obtain ⟨ds, quote⟩ := stringChars_append k.label rest
  rw [quote] at named
  rw [List.append_assoc, quote, kindTag, variant, skipSpace_append hb _ (by decide)]
  simp only [bind, Except.bind, named]
  cases k <;> rfl

/-- A payload is read back by the reader of its kind. -/
lemma reads_payloadOf (l : Layout) (level : Nat) (v : Value) :
    Reads (payloadOf v.kind) (v.payload.render l level) v := by
  intro blanks rest hb stops
  cases v with
  | long n =>
    rw [kind, payloadOf, payload, render, numberChars, wire, reads_word (by decide) n _ _ hb stops]
    rfl
  | int n =>
    rw [kind, payloadOf, payload, render, numberChars, wire, reads_word (by decide) n _ _ hb stops]
    rfl
  | bool b =>
    rw [kind, payloadOf, payload, reads_flag b l level _ _ hb stops]
    rfl
  | string s =>
    rw [kind, payloadOf, payload, render, reads_text s _ _ hb stops]
    rfl

/-- A member with the key of a slot is found first. -/
lemma nextSlot_cons (plain : l.Plain) (slot : Slot) (fuel : Nat) (first : Bool) (j : Json)
    (ms : List (String × Json)) (rest : List Char) :
    nextSlot (fuel + 1) first (renderMembers l level first ((slot.key, j) :: ms) ++ rest) =
      .ok (some slot, l.colon ++ j.render l (level + 1) ++
        (renderMembers l level false ms ++ rest)) := by
  rw [nextSlot, nextMember_cons plain]
  simp only [bind, Except.bind, if_true, textKey_stringChars]
  cases slot <;> rfl

/-- Without members no slot is found. -/
lemma nextSlot_nil (plain : l.Plain) (fuel : Nat) (first : Bool) (rest : List Char) :
    nextSlot (fuel + 1) first (renderMembers l level first [] ++ rest) =
      .ok (none, '\x7d' :: rest) := by
  rw [nextSlot, nextMember_nil plain]
  rfl

/-- A stored value is read back from its members. -/
lemma ofObject_renderMembers (plain : l.Plain) (depth : Nat) (v : Value) (rest : List Char) :
    ofObject depth (renderMembers l level true
      [(Slot.kind.key, .string v.kind.label), (Slot.payload.key, v.payload)] ++ rest) =
      .ok (v, '\x7d' :: rest) := by
  obtain ⟨cs, tagColon, tag⟩ := colon_reads plain (reads_kindTag depth v.kind)
    (stops_renderMembers plain level [(Slot.payload.key, v.payload)] rest)
  obtain ⟨ds, payloadColon, taken⟩ := colon_reads plain (reads_payloadOf l (level + 1) v)
    (stops_renderMembers plain level [] rest)
  rw [ofObject, nextSlot_cons plain]
  simp only [bind, Except.bind, render, tagColon, tag, furtherSlot, nextSlot_cons plain,
    payloadColon, taken, finish, nextSlot_nil plain]
  rfl

/-- A stored value is read back from its printed object. -/
lemma reads_toJson (plain : l.Plain) (depth : Nat) (v : Value) :
    Reads (Value.read (depth + 1)) (v.toJson.render l level) v :=
  reads_aggregate (ofObject_renderMembers plain depth v)

end Value

/-! ## Preference files -/

namespace PreferenceFile

/-- The values of a preference file are read back from its printed object. -/
lemma reads_toJson (plain : l.Plain) (values : Table String Value) :
    Reads (shape.read maxDepth) ((toJson values).render l level) (version, values, ()) := by
  have number : Reads ((Shape.word .nat32).read (maxDepth - 1))
      ((number (.int (Value.wire version (by decide)))).render l (level + 1)) version :=
    reads_word (by decide) version
  have stored : ∀ v : Shape.stored.Val,
      Reads (Shape.stored.read (maxDepth - 2)) ((Value.toJson v).render l (level + 2)) v :=
    Value.reads_toJson plain (maxDepth - 3)
  have table : Reads ((Shape.table .stored).read (maxDepth - 1))
      ((object (values.entries.map fun e => (e.1, e.2.toJson))).render l (level + 1)) values :=
    reads_table plain stored values
  refine reads_record plain (.fill plain (.here number)
    (.fill plain (.there ?_ (.here table)) .nil)) fun cs => rfl
  decide

/-- The text of a preference file is not blank. -/
lemma allBlank_render (values : Table String Value) : allBlank (render values) = false := by
  have brace : isBlank '\x7b' = false := by decide
  rw [allBlank, render, pretty, String.toList_ofList, toJson, Json.render, List.all_cons, brace]
  rfl

/-- All values of a store are read back from the text of its preference file. -/
theorem parse_render (values : Table String Value) : parse (render values) = .ok values := by
  have whole : shape.parse (render values) = .ok (version, values, ()) := by
    rw [Shape.parse, render, pretty, String.toList_ofList]
    exact readWhole_of_reads (reads_toJson Layout.pretty_plain values)
  rw [parse, allBlank_render, whole]
  rfl

variable {d d' : Disk} {p : Path} {values : Table String Value}

/-- Values are loaded from a file that has their text. -/
lemma load_of_readText (h : d.readText p = .ok (render values)) : load d p = .ok values := by
  rw [load, h]
  exact parse_render values

/-- What it takes to save a preference file, and what comes of it. -/
lemma save_eq_ok : save d p values = .ok d' ↔
    ∃ parent e, p.parent? = some parent ∧ d.ensureDirectories parent = .ok e ∧
      e.tryScratch parent = .ok () ∧ e.replaceFile p (utf8 (render values)) = .ok d' := by
  rw [save]
  constructor
  case mp =>
    intro h
    split at h
    · cases h
    next parent above =>
      split at h
      · cases h
      next e made =>
        split at h
        · cases h
        next tried =>
          split at h
          · cases h
          next written =>
            cases h
            exact ⟨parent, e, above, made, tried, written⟩
  case mpr =>
    rintro ⟨parent, e, above, made, tried, written⟩
    rw [above]
    simp only [made, tried, written]

/-- A saved file holds the text of its values. -/
lemma readText_save (h : save d p values = .ok d') : d'.readText p = .ok (render values) := by
  obtain ⟨_, _, _, _, _, written⟩ := save_eq_ok.1 h
  exact Disk.readText_replaceFile written

/-- A write that fails leaves every file as it was. -/
lemma grown_of_write {e : StoreError} (h : write d p values = (.error e, d')) : d.Grown d' := by
  rw [write, save] at h
  cases above : p.parent? with
  | none =>
    rw [above] at h
    cases h
    exact .refl d
  | some parent =>
    have grown := Disk.Grown.left_ensureDirectories d parent
    rw [above] at h
    dsimp only at h
    rcases made : d.ensureDirectories parent with ⟨fault, d₁⟩ | d₁
    · rw [made] at h grown
      cases h
      exact grown
    · rw [made] at h grown
      dsimp only at h
      cases tried : d₁.tryScratch parent with
      | error fault =>
        rw [tried] at h
        cases h
        exact grown
      | ok _ =>
        rw [tried] at h
        dsimp only at h
        cases written : d₁.replaceFile p (utf8 (render values)) with
        | error fault =>
          rw [written] at h
          cases h
          exact grown
        | ok d₂ =>
          rw [written] at h
          cases h

/-- Whether a save succeeds does not depend on the values. -/
lemma save_other (h : save d p values = .ok d') (others : Table String Value) :
    ∃ e, save d p others = .ok e := by
  obtain ⟨parent, e, above, made, tried, written⟩ := save_eq_ok.1 h
  obtain ⟨place, aims, granted, -⟩ := Disk.replaceFile_eq_ok.1 written
  exact ⟨_, save_eq_ok.2 ⟨parent, e, above, made, tried,
    Disk.replaceFile_eq_ok.2 ⟨place, aims, granted, rfl⟩⟩⟩

/-- What was saved once can be saved again. -/
lemma save_again (h : save d p values = .ok d') (others : Table String Value) :
    ∃ e, save d' p others = .ok e := by
  obtain ⟨parent, e, above, _, tried, written⟩ := save_eq_ok.1 h
  obtain ⟨place, aims, granted, rfl⟩ := Disk.replaceFile_eq_ok.1 written
  obtain ⟨d'', again⟩ := aims.replaceFile granted (utf8 (render others))
  exact ⟨d'', save_eq_ok.2 ⟨parent, _, above,
    Disk.ensureDirectories_parent aims.putFile.located above, aims.tryScratch tried, again⟩⟩

end PreferenceFile

end Preferences
