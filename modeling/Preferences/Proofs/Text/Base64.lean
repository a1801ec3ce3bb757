import Preferences.Proofs.Outcome
import Preferences.Proofs.Text.Utf8
import Preferences.Text.Base64

/-!
# Base64 read back

A byte string is read back from its base64 text. Texts of base64 are ASCII, so the decoder sees one
byte for every symbol; full groups are undone one by one, and the last group by the number of its
padding signs. Where a text is read at all, every group of it is the one that its bytes are written
as, so each byte string has one text. Main statements: `Base64.decode_encode` and
`Base64.decode_eq_ok_iff`.
-/

namespace Preferences

/-- The byte of an ASCII character. -/
def asciiByte (c : Char) : UInt8 := UInt8.ofNat c.toNat

/-- An ASCII text has a byte for every character. -/
lemma utf8_ofList_ascii {cs : List Char} (ascii : ∀ c ∈ cs, c.toNat < 128) :
    utf8 (String.ofList cs) = cs.map asciiByte := by
  rw [utf8_eq_flatMap, String.toList_ofList]
  induction cs with
  | nil => rfl
  | cons c cs ih =>
    have single : String.utf8EncodeChar c = [asciiByte c] := by
      have small : c.val ≤ 127 := by
        rw [UInt32.le_iff_toNat_le]
        exact Nat.le_of_lt_succ (ascii c List.mem_cons_self)
      exact String.utf8EncodeChar_eq_singleton (Char.utf8Size_eq_one_iff.2 small)
    rw [List.flatMap_cons, single, ih fun d hd => ascii d (List.mem_cons_of_mem c hd)]
    rfl

namespace Base64

/-- The symbols are ASCII, have their values and are not the padding sign. -/
lemma symbol_spec {n : Nat} (h : n < 64) :
    (symbol n).toNat < 128 ∧ valueOf? (asciiByte (symbol n)) = some n ∧
      asciiByte (symbol n) ≠ pad := by
  revert n
  decide +kernel

/-- Three bytes are written as four symbols, which give them back, and bytes that are zero leave
unused bits clear. -/
lemma group_eq (a b c : UInt8) : ∃ w x y z, w < 64 ∧ x < 64 ∧ y < 64 ∧ z < 64 ∧
    group a b c = [symbol w, symbol x, symbol y, symbol z] ∧ ungroup w x y z = [a, b, c] ∧
    (c = 0 → y % 4 = 0 ∧ z = 0) ∧ (b = 0 ∧ c = 0 → x % 16 = 0 ∧ y = 0) := by
  have ha := a.toNat_lt
  have hb := b.toNat_lt
  have hc := c.toNat_lt
  refine ⟨_, _, _, _, ?_, ?_, ?_, ?_, rfl, ?_, ?_, ?_⟩
  · omega
  · omega
  · omega
  · omega
  · rw [ungroup]
    simp only [List.cons.injEq, and_true]
    refine ⟨UInt8.toNat_inj.1 ?_, UInt8.toNat_inj.1 ?_, UInt8.toNat_inj.1 ?_⟩
    · rw [UInt8.toNat_ofNat']
      omega
    · rw [UInt8.toNat_ofNat']
      omega
    · rw [UInt8.toNat_ofNat']
      omega
  · rintro rfl
    simp only [UInt8.toNat_zero] at *
    omega
  · rintro ⟨rfl, rfl⟩
    simp only [UInt8.toNat_zero] at *
    omega

/-- A symbol at the end of a text is read as its value. -/
lemma lastSymbols_symbol {n : Nat} (h : n < 64) (offset index : Nat) (bs : Bytes) :
    lastSymbols offset index none (asciiByte (symbol n) :: bs) =
      (lastSymbols offset (index + 1) none bs).map fun p => (n :: p.1, p.2) := by
  obtain ⟨-, value, notPad⟩ := symbol_spec h
  rw [lastSymbols, if_neg notPad]
  simp only [value]
  cases lastSymbols offset (index + 1) none bs <;> rfl

/-- Four symbols at the end give three bytes. -/
lemma lastGroup_four {w x y z : Nat} (hw : w < 64) (hx : x < 64) (hy : y < 64) (hz : z < 64)
    (offset : Nat) :
    lastGroup offset ([symbol w, symbol x, symbol y, symbol z].map asciiByte) =
      .ok (ungroup w x y z) := by
  simp only [lastGroup, List.map_cons, List.map_nil, lastSymbols_symbol, hw, hx, hy, hz]
  rfl

/-- Three symbols and a padding at the end give two bytes, if the unused bits are clear. -/
lemma lastGroup_three {w x y : Nat} (hw : w < 64) (hx : x < 64) (hy : y < 64) (unused : y % 4 = 0)
    (offset : Nat) :
    lastGroup offset ([symbol w, symbol x, symbol y, '='].map asciiByte) =
      .ok ((ungroup w x y 0).take 2) := by
  have padding : lastSymbols offset 3 none [asciiByte '='] = .ok ([], some 3) := rfl
  simp only [lastGroup, List.map_cons, List.map_nil, lastSymbols_symbol, hw, hx, hy, padding]
  exact if_neg fun used => used unused

/-- Two symbols and two paddings at the end give one byte, if the unused bits are clear. -/
lemma lastGroup_two {w x : Nat} (hw : w < 64) (hx : x < 64) (unused : x % 16 = 0) (offset : Nat) :
    lastGroup offset ([symbol w, symbol x, '=', '='].map asciiByte) =
      .ok ((ungroup w x 0 0).take 1) := by
  have padding : lastSymbols offset 2 none [asciiByte '=', asciiByte '='] = .ok ([], some 2) := rfl
  simp only [lastGroup, List.map_cons, List.map_nil, lastSymbols_symbol, hw, hx, padding]
  exact if_neg fun used => used unused

/-- Four symbols before others give three bytes. -/
lemma groups_four {w x y z : Nat} (hw : w < 64) (hx : x < 64) (hy : y < 64) (hz : z < 64)
    (offset : Nat) {bs : Bytes} (more : bs ≠ []) :
    groups offset ([symbol w, symbol x, symbol y, symbol z].map asciiByte ++ bs) =
      (groups (offset + 4) bs).map (ungroup w x y z ++ ·) := by
  obtain ⟨b, bs, rfl⟩ := List.exists_cons_of_ne_nil more
  simp only [List.map_cons, List.map_nil, List.cons_append, List.nil_append]
  rw [groups]
  simp only [symbolAt, symbol_spec, hw, hx, hy, hz, bind, Except.bind]
  cases groups (offset + 4) (b :: bs) <;> rfl

/-- Bytes are not written as nothing. -/
lemma encodeChars_ne_nil {bs : Bytes} (nonempty : bs ≠ []) : encodeChars bs ≠ [] := by
  cases bs using encodeChars.fun_cases with
  | case1 => exact absurd rfl nonempty
  | case2 | case3 | case4 => simp [encodeChars, group]

/-- The bytes of what is encoded are read back group by group. -/
lemma groups_encodeChars {bs : Bytes} (nonempty : bs ≠ []) (offset : Nat) :
    groups offset ((encodeChars bs).map asciiByte) = .ok bs := by
  induction bs using encodeChars.induct generalizing offset with
  | case1 => exact absurd rfl nonempty
  | case2 a =>
    obtain ⟨w, x, y, z, hw, hx, hy, hz, symbols, bytes, first, second⟩ := group_eq a 0 0
    obtain ⟨-, rfl⟩ := first rfl
    obtain ⟨unused, rfl⟩ := second ⟨rfl, rfl⟩
    have last := lastGroup_two hw hx unused offset
    rw [bytes] at last
    rw [encodeChars, symbols]
    exact last
  | case3 a b =>
    obtain ⟨w, x, y, z, hw, hx, hy, hz, symbols, bytes, first, -⟩ := group_eq a b 0
    obtain ⟨unused, rfl⟩ := first rfl
    have last := lastGroup_three hw hx hy unused offset
    rw [bytes] at last
    rw [encodeChars, symbols]
    exact last
  | case4 a b c rest ih =>
    obtain ⟨w, x, y, z, hw, hx, hy, hz, symbols, bytes, -, -⟩ := group_eq a b c
    rw [encodeChars, symbols]
    -- the last group is read apart, even when it is full
    by_cases more : rest = []
    · subst more
      have last := lastGroup_four hw hx hy hz offset
      rw [bytes] at last
      exact last
    · have further : (encodeChars rest).map asciiByte ≠ [] := by
        simpa using encodeChars_ne_nil more
      rw [List.map_append, groups_four hw hx hy hz offset further, ih more, bytes]
      rfl

/-- Bytes are written in ASCII. -/
lemma ascii_encodeChars (bs : Bytes) : ∀ c ∈ encodeChars bs, c.toNat < 128 := by
  have symbols (a b c : UInt8) : ∀ d ∈ group a b c, d.toNat < 128 := by
    obtain ⟨w, x, y, z, hw, hx, hy, hz, symbols, -⟩ := group_eq a b c
    simp [symbols, symbol_spec, hw, hx, hy, hz]
  have padding : '='.toNat < 128 := by decide
  induction bs using encodeChars.induct with
  | case1 => simp [encodeChars]
  | case2 a =>
    intro d known
    rcases List.mem_append.1 known with symbol | signs
    · exact symbols a 0 0 d (List.mem_of_mem_take symbol)
    · rw [List.eq_of_mem_replicate (n := 2) signs]
      exact padding
  | case3 a b =>
    intro d known
    rcases List.mem_append.1 known with symbol | signs
    · exact symbols a b 0 d (List.mem_of_mem_take symbol)
    · rw [List.mem_singleton.1 signs]
      exact padding
  | case4 a b c rest ih =>
    intro d known
    rcases List.mem_append.1 known with symbol | later
    · exact symbols a b c d symbol
    · exact ih d later

/-- Bytes are written as groups of four. -/
lemma length_encodeChars (bs : Bytes) : (encodeChars bs).length % 4 = 0 := by
  induction bs using encodeChars.induct with
  | case1 | case2 | case3 => simp [encodeChars, group]
  | case4 a b c rest ih =>
    rw [encodeChars, List.length_append]
    show (4 + (encodeChars rest).length) % 4 = 0
    omega

/-- A byte string is read back from its base64 text. -/
theorem decode_encode (bs : Bytes) : decode (encode bs) = .ok bs := by
  by_cases empty : bs = []
  · subst empty
    rfl
  · have bytes : utf8 (encode bs) = (encodeChars bs).map asciiByte :=
      utf8_ofList_ascii (ascii_encodeChars bs)
    have whole : (utf8 (encode bs)).length % 4 = 0 := by
      rw [bytes, List.length_map, length_encodeChars]
    have read := groups_encodeChars empty 0
    rw [← bytes] at read
    cases first : utf8 (encode bs) with
    | nil =>
      rw [bytes, List.map_eq_nil_iff] at first
      exact absurd first (encodeChars_ne_nil empty)
    | cons b rest =>
      rw [first] at whole read
      have fits : ¬ (b :: rest).length % 4 = 1 := by
        rw [whole]
        decide
      rw [decode, first]
      dsimp only
      rw [if_neg fun strange => fits strange.1]
      exact read

example : decode "Zm9vYg==" = .ok [0x66, 0x6f, 0x6f, 0x62] := by cbv

/-! ## Texts that are read -/

/-- A byte with a value is the symbol of that value. -/
lemma symbol_of_valueOf? {b : UInt8} {n : Nat} (h : valueOf? b = some n) :
    n < 64 ∧ asciiByte (symbol n) = b := by
  have all : ∀ k < 256, ∀ n ∈ valueOf? (UInt8.ofNat k),
      n < 64 ∧ asciiByte (symbol n) = UInt8.ofNat k := by decide +kernel
  have this := all b.toNat b.toNat_lt n
  rw [UInt8.ofNat_toNat] at this
  exact this h

/-- The three bytes of a number are written as its four sextets. -/
lemma group_of_total {n : Nat} (small : n < 16777216) :
    group (UInt8.ofNat (n / 65536)) (UInt8.ofNat (n / 256)) (UInt8.ofNat n) =
      [symbol (n / 262144), symbol (n / 4096 % 64), symbol (n / 64 % 64), symbol (n % 64)] := by
  have sum : n / 65536 % 256 * 65536 + n / 256 % 256 * 256 + n % 256 = n := by omega
  simp only [group, UInt8.toNat_ofNat', Nat.reducePow, sum]

/-- A multiple of 256 leaves a byte of zero. -/
lemma ofNat_eq_zero {n : Nat} (whole : n % 256 = 0) : UInt8.ofNat n = 0 := by
  refine UInt8.toNat_inj.1 ?_
  rw [UInt8.toNat_ofNat']
  exact whole

/-- The bytes of a group of symbols are written as that group. Bits that are not set leave the last
bytes zero. -/
lemma group_ungroup {w x y z : Nat} (hw : w < 64) (hx : x < 64) (hy : y < 64) (hz : z < 64) :
    ∃ a b c, ungroup w x y z = [a, b, c] ∧
      group a b c = [symbol w, symbol x, symbol y, symbol z] ∧
      (y % 4 = 0 ∧ z = 0 → c = 0) ∧ (x % 16 = 0 ∧ y = 0 ∧ z = 0 → b = 0 ∧ c = 0) := by
  refine ⟨_, _, _, rfl, (group_of_total (by omega)).trans ?_, ?_, ?_⟩
  · have first : (w * 262144 + x * 4096 + y * 64 + z) / 262144 = w := by omega
    have second : (w * 262144 + x * 4096 + y * 64 + z) / 4096 % 64 = x := by omega
    have third : (w * 262144 + x * 4096 + y * 64 + z) / 64 % 64 = y := by omega
    have fourth : (w * 262144 + x * 4096 + y * 64 + z) % 64 = z := by omega
    rw [first, second, third, fourth]
  · intro unused
    exact ofNat_eq_zero (by omega)
  · intro unused
    exact ⟨ofNat_eq_zero (by omega), ofNat_eq_zero (by omega)⟩

/-- The bytes of the symbols of values. -/
def symbolBytes (ns : List Nat) : Bytes := ns.map fun n => asciiByte (symbol n)

/-- A group of four symbols is how its three bytes are written, before whatever follows. -/
lemma encode_ungroup {w x y z : Nat} (hw : w < 64) (hx : x < 64) (hy : y < 64) (hz : z < 64)
    (rest : Bytes) : (encodeChars (ungroup w x y z ++ rest)).map asciiByte =
      symbolBytes [w, x, y, z] ++ (encodeChars rest).map asciiByte := by
  obtain ⟨a, b, c, bytes, symbols, -, -⟩ := group_ungroup hw hx hy hz
  rw [bytes]
  show (group a b c ++ encodeChars rest).map asciiByte = _
  rw [List.map_append, symbols]
  rfl

/-- The two bytes of three symbols are written as these again, with a padding. -/
lemma encode_ungroup_three {w x y : Nat} (hw : w < 64) (hx : x < 64) (hy : y < 64)
    (unused : y % 4 = 0) : (encodeChars ((ungroup w x y 0).take 2)).map asciiByte =
      symbolBytes [w, x, y] ++ [pad] := by
  obtain ⟨a, b, c, bytes, symbols, zero, -⟩ := group_ungroup hw hx hy (z := 0) (by decide)
  obtain rfl := zero ⟨unused, rfl⟩
  rw [bytes]
  show ((group a b 0).take 3 ++ ['=']).map asciiByte = _
  rw [symbols]
  rfl

/-- The byte of two symbols is written as these again, with two paddings. -/
lemma encode_ungroup_two {w x : Nat} (hw : w < 64) (hx : x < 64) (unused : x % 16 = 0) :
    (encodeChars ((ungroup w x 0 0).take 1)).map asciiByte = symbolBytes [w, x] ++ [pad, pad] := by
  obtain ⟨a, b, c, bytes, symbols, -, zero⟩ :=
    group_ungroup hw hx (y := 0) (z := 0) (by decide) (by decide)
  obtain ⟨rfl, rfl⟩ := zero ⟨unused, rfl, rfl⟩
  rw [bytes]
  show ((group a 0 0).take 2 ++ ['=', '=']).map asciiByte = _
  rw [symbols]
  rfl

/-- After the first padding sign there is nothing but padding signs. -/
lemma lastSymbols_padding {offset index p : Nat} {bs : Bytes} {ns : List Nat} {q : Option Nat}
    (h : lastSymbols offset index (some p) bs = .ok (ns, q)) :
    ns = [] ∧ bs = .replicate bs.length pad := by
  induction bs generalizing index with
  | nil =>
    cases h
    exact ⟨rfl, rfl⟩
  | cons b bs ih =>
    rw [lastSymbols] at h
    split at h
    next padding =>
      split at h
      · cases h
      · obtain ⟨none, rest⟩ := ih h
        rw [List.length_cons, List.replicate_succ, ← rest, padding]
        exact ⟨none, rfl⟩
    next => cases h

/-- The last group is symbols and then padding signs. -/
lemma lastSymbols_eq_ok {offset index : Nat} {bs : Bytes} {ns : List Nat} {q : Option Nat}
    (h : lastSymbols offset index none bs = .ok (ns, q)) :
    (∀ n ∈ ns, n < 64) ∧ ∃ k, bs = symbolBytes ns ++ .replicate k pad := by
  induction bs generalizing index ns with
  | nil =>
    cases h
    exact ⟨nofun, 0, rfl⟩
  | cons b bs ih =>
    rw [lastSymbols] at h
    split at h
    next padding =>
      split at h
      · cases h
      -- behind one padding sign there are only others
      · obtain ⟨rfl, rest⟩ := lastSymbols_padding h
        refine ⟨nofun, bs.length + 1, ?_⟩
        rw [List.replicate_succ, ← rest, padding]
        rfl
    next =>
      dsimp only at h
      cases value : valueOf? b with
      | none =>
        rw [value] at h
        cases h
      | some n =>
        rw [value] at h
        cases more : lastSymbols offset (index + 1) none bs with
        | error fault =>
          rw [more] at h
          cases h
        | ok out =>
          rw [more] at h
          cases h
          obtain ⟨small, k, rest⟩ := ih more
          obtain ⟨below, symbol⟩ := symbol_of_valueOf? value
          refine ⟨List.forall_mem_cons.2 ⟨below, small⟩, k, ?_⟩
          rw [symbolBytes, List.map_cons, symbol, rest]
          rfl

/-- The last group, of at most four bytes, is how its bytes are written. -/
lemma lastGroup_eq_ok {offset : Nat} {bytes bs : Bytes} (short : bytes.length ≤ 4)
    (h : lastGroup offset bytes = .ok bs) : (encodeChars bs).map asciiByte = bytes := by
  obtain ⟨⟨ns, q⟩, read, h⟩ := bind_eq_ok.1 h
  obtain ⟨small, k, rfl⟩ := lastSymbols_eq_ok read
  have size : (symbolBytes ns ++ List.replicate k pad).length = ns.length + k := by
    rw [List.length_append, symbolBytes, List.length_map, List.length_replicate]
  rw [size] at short h
  -- the cases are those of the decoder: none or one symbol, two, three, and all four
  rcases ns with _ | ⟨w, _ | ⟨x, _ | ⟨y, _ | ⟨z, ns⟩⟩⟩⟩
  · cases h
  · cases h
  · dsimp only [List.length_cons, List.length_nil] at h
    split at h
    · cases h
    next full =>
      split at h
      · cases h
      next unused =>
        cases h
        obtain rfl : k = 2 := by omega
        exact encode_ungroup_two (small w (by simp)) (small x (by simp)) (by omega)
  · dsimp only [List.length_cons, List.length_nil] at h
    split at h
    · cases h
    next full =>
      split at h
      · cases h
      next unused =>
        cases h
        obtain rfl : k = 1 := by omega
        exact encode_ungroup_three (small w (by simp)) (small x (by simp)) (small y (by simp))
          (by omega)
  · cases h
    simp only [List.length_cons] at short
    obtain rfl : k = 0 := by omega
    obtain rfl : ns = [] := List.eq_nil_of_length_eq_zero (by omega)
    exact encode_ungroup (small w (by simp)) (small x (by simp)) (small y (by simp))
      (small z (by simp)) []

/-- A symbol that is read as a value is the one for it. -/
lemma symbolAt_eq_ok {offset n : Nat} {b : UInt8} (h : symbolAt offset b = .ok n) :
    n < 64 ∧ asciiByte (symbol n) = b := by
  rw [symbolAt] at h
  split at h
  next value =>
    cases h
    exact symbol_of_valueOf? value
  next => cases h

/-- What is read group by group is how its bytes are written. -/
lemma groups_eq_ok {offset : Nat} {bytes bs : Bytes} (h : groups offset bytes = .ok bs) :
    (encodeChars bs).map asciiByte = bytes := by
  fun_induction groups offset bytes generalizing bs with
  | case1 offset a b c d e rest ih =>
    obtain ⟨w, first, h⟩ := bind_eq_ok.1 h
    obtain ⟨x, second, h⟩ := bind_eq_ok.1 h
    obtain ⟨y, third, h⟩ := bind_eq_ok.1 h
    obtain ⟨z, fourth, h⟩ := bind_eq_ok.1 h
    obtain ⟨tail, read, h⟩ := bind_eq_ok.1 h
    cases h
    obtain ⟨hw, rfl⟩ := symbolAt_eq_ok first
    obtain ⟨hx, rfl⟩ := symbolAt_eq_ok second
    obtain ⟨hy, rfl⟩ := symbolAt_eq_ok third
    obtain ⟨hz, rfl⟩ := symbolAt_eq_ok fourth
    rw [encode_ungroup hw hx hy hz, ih read]
    rfl
  | case2 offset bytes few =>
    refine lastGroup_eq_ok ?_ h
    rcases bytes with _ | ⟨a, _ | ⟨b, _ | ⟨c, _ | ⟨d, _ | ⟨e, rest⟩⟩⟩⟩⟩
    · simp
    · simp
    · simp
    · simp
    · simp
    · exact absurd rfl (few a b c d e rest)

/-- A text is read as the bytes whose base64 text it is, and no other text is read. -/
theorem decode_eq_ok_iff {s : String} {bs : Bytes} : decode s = .ok bs ↔ s = encode bs := by
  constructor
  · intro read
    have bytes : utf8 (encode bs) = (encodeChars bs).map asciiByte :=
      utf8_ofList_ascii (ascii_encodeChars bs)
    refine utf8_inj ?_
    rw [bytes]
    rw [decode] at read
    split at read
    next empty =>
      cases read
      exact empty
    next =>
      dsimp only at read
      split at read
      · cases read
      · exact (groups_eq_ok read).symm
  · rintro rfl
    exact decode_encode bs

end Base64

end Preferences
