import ReplicaWatch.Text.Utf8

/-!
# UTF-8

`Encodes` is the format: which bytes stand for the character with a number. Writing follows it
(`encodes_utf8EncodeChar`), and reading decides it, character by character (`Encodes.decodeChar`,
`encodes_of_decodeChar`). So bytes are read as a text exactly if they are its bytes (`decodeUtf8_eq_ok_iff`).

The format keeps the order: texts compare byte by byte as they compare character by character
(`encodeUtf8_lt_iff`).
-/

namespace ReplicaWatch.Text

/-! ## The bytes of a character -/

/-- **The bytes that stand for the character with a number.** -/
inductive Encodes (n : Nat) : List UInt8 → Prop
  | one {a : UInt8} : n < 0x80 → a.toNat = n → Encodes n [a]
  | two {a b : UInt8} : 0x80 ≤ n → n < 0x800 → a.toNat = 0xC0 + n / 0x40 → b.toNat = 0x80 + n % 0x40 →
      Encodes n [a, b]
  | three {a b c : UInt8} : 0x800 ≤ n → n < 0x10000 → a.toNat = 0xE0 + n / 0x1000 →
      b.toNat = 0x80 + n / 0x40 % 0x40 → c.toNat = 0x80 + n % 0x40 → Encodes n [a, b, c]
  | four {a b c d : UInt8} : 0x10000 ≤ n → n < 0x110000 → a.toNat = 0xF0 + n / 0x40000 →
      b.toNat = 0x80 + n / 0x1000 % 0x40 → c.toNat = 0x80 + n / 0x40 % 0x40 → d.toNat = 0x80 + n % 0x40 →
      Encodes n [a, b, c, d]

variable {c : Char} {m n w : Nat} {b : UInt8} {bs cs rest bytes : List UInt8} {s t : String}

/-- The numbers of characters: those of surrogate halves are left out. -/
theorem toNat_valid (c : Char) : c.toNat < 0xD800 ∨ 0xDFFF < c.toNat ∧ c.toNat < 0x110000 := c.valid

theorem toNat_ofNat (h : n < 0xD800 ∨ 0xDFFF < n ∧ n < 0x110000) : (Char.ofNat n).toNat = n := by
  have hv : n.isValidChar := h
  unfold Char.ofNat
  rw [dif_pos hv]
  rfl

/-- A character is written as the format says. -/
theorem encodes_utf8EncodeChar (c : Char) : Encodes c.toNat (String.utf8EncodeChar c) := by
  have hc : c.val.toNat = c.toNat := rfl
  have hvalid := toNat_valid c
  unfold String.utf8EncodeChar
  simp only [hc]
  split
  · exact .one (by omega) (by rw [UInt8.toNat_ofNat']; omega)
  split
  · exact .two (by omega) (by omega) (by rw [UInt8.toNat_ofNat']; omega) (by rw [UInt8.toNat_ofNat']; omega)
  split
  · exact .three (by omega) (by omega) (by rw [UInt8.toNat_ofNat']; omega) (by rw [UInt8.toNat_ofNat']; omega)
      (by rw [UInt8.toNat_ofNat']; omega)
  · exact .four (by omega) (by omega) (by rw [UInt8.toNat_ofNat']; omega) (by rw [UInt8.toNat_ofNat']; omega)
      (by rw [UInt8.toNat_ofNat']; omega) (by rw [UInt8.toNat_ofNat']; omega)

/-- A character has one spelling in bytes. -/
theorem Encodes.unique (h : Encodes n bs) (h' : Encodes n cs) : bs = cs := by
  have byte {a a' : UInt8} {k : Nat} (ha : a.toNat = k) (ha' : a'.toNat = k) : a = a' :=
    UInt8.toNat_inj.mp (ha.trans ha'.symm)
  cases h with
  | one hn ha =>
    cases h' with
    | one _ ha' => rw [byte ha ha']
    | two | three | four => omega
  | two hn _ ha hb =>
    cases h' with
    | two _ _ ha' hb' => rw [byte ha ha', byte hb hb']
    | one | three | four => omega
  | three _ _ ha hb hc =>
    cases h' with
    | three _ _ ha' hb' hc' => rw [byte ha ha', byte hb hb', byte hc hc']
    | one | two | four => omega
  | four _ _ ha hb hc hd =>
    cases h' with
    | four _ _ ha' hb' hc' hd' => rw [byte ha ha', byte hb hb', byte hc hc', byte hd hd']
    | one | two | three => omega

theorem utf8EncodeChar_eq_iff : String.utf8EncodeChar c = bs ↔ Encodes c.toNat bs :=
  ⟨fun h => h ▸ encodes_utf8EncodeChar c, (encodes_utf8EncodeChar c).unique⟩

/-! ## Reading a character -/

theorem continues_iff : continues b = true ↔ 0x80 ≤ b.toNat ∧ b.toNat < 0xC0 := by
  simp [continues]
  omega

/-- Which bytes may stand second: exactly those that keep a character in its range. -/
theorem seconds_iff {a : UInt8} : seconds a b = true ↔ 0x80 ≤ b.toNat ∧ b.toNat < 0xC0 ∧
    (a.toNat = 0xE0 → 0xA0 ≤ b.toNat) ∧ (a.toNat = 0xED → b.toNat < 0xA0) ∧
    (a.toNat = 0xF0 → 0x90 ≤ b.toNat) ∧ (a.toNat = 0xF4 → b.toNat < 0x90) := by
  unfold seconds
  dsimp only
  split
  · simp; omega
  split
  · simp; omega
  split
  · simp; omega
  split
  · simp; omega
  · rw [continues_iff]
    omega

/-- **A character is read from its bytes**, whatever follows them. -/
theorem Encodes.decodeChar (h : Encodes c.toNat (b :: bs)) (rest : List UInt8) :
    decodeChar b (bs ++ rest) = .ok (c, bs.length + 1) := by
  have hvalid := toNat_valid c
  have hchar {k : Nat} (hk : k = c.toNat) : Char.ofNat k = c := by rw [hk, Char.ofNat_toNat]
  unfold Text.decodeChar
  cases h with
  | one hn ha =>
    simp only [ha]
    rw [if_pos (by omega), hchar rfl]
    rfl
  | @two _ x hn hn' ha hx =>
    have hcont : continues x = true := continues_iff.mpr (by rw [hx]; omega)
    simp only [List.cons_append, List.nil_append, payload, ha, hx, hcont, if_true]
    rw [if_neg (by omega), if_pos (by simp; omega), hchar (by omega)]
    rfl
  | @three _ x y hn hn' ha hx hy =>
    have hsec : seconds b x = true := seconds_iff.mpr (by rw [ha, hx]; omega)
    have hcont : continues y = true := continues_iff.mpr (by rw [hy]; omega)
    simp only [List.cons_append, List.nil_append, payload, ha, hx, hy, hsec, hcont, Bool.not_true,
      Bool.false_eq_true, if_false]
    rw [if_neg (by omega), if_neg (by simp; omega), if_pos (by simp; omega), hchar (by omega)]
    rfl
  | @four _ x y z hn hn' ha hx hy hz =>
    have hsec : seconds b x = true := seconds_iff.mpr (by rw [ha, hx]; omega)
    have hcont : continues y = true := continues_iff.mpr (by rw [hy]; omega)
    have hcont' : continues z = true := continues_iff.mpr (by rw [hz]; omega)
    simp only [List.cons_append, List.nil_append, payload, ha, hx, hy, hz, hsec, hcont, hcont', Bool.not_true,
      Bool.false_eq_true, if_false]
    rw [if_neg (by omega), if_neg (by simp; omega), if_neg (by simp; omega), if_pos (by simp; omega),
      hchar (by omega)]
    rfl

/-- **What is read as a character are its bytes.** -/
theorem encodes_of_decodeChar (h : decodeChar b rest = .ok (c, w)) :
    ∃ bs after, rest = bs ++ after ∧ Encodes c.toNat (b :: bs) ∧ w = bs.length + 1 := by
  have hbyte := b.toNat_lt
  unfold decodeChar at h
  dsimp only at h
  split at h
  · rename_i hb
    cases h
    exact ⟨[], rest, rfl, .one (by rw [toNat_ofNat]; omega; omega) (by rw [toNat_ofNat]; omega), rfl⟩
  split at h
  · rename_i hb
    simp only [Bool.and_eq_true, decide_eq_true_eq] at hb
    split at h
    · cases h
    · rename_i x after
      split at h
      · rename_i hx
        cases h
        have hx := continues_iff.mp hx
        simp only [payload]
        refine ⟨[x], after, rfl, .two ?_ ?_ ?_ ?_, rfl⟩
        all_goals
          rw [toNat_ofNat (by omega)]
          omega
      · cases h
  split at h
  · rename_i hb
    simp only [Bool.and_eq_true, decide_eq_true_eq] at hb
    split at h
    · cases h
    · split at h <;> cases h
    · rename_i x y after
      split at h
      · cases h
      rename_i hx
      split at h
      · cases h
      rename_i hy
      cases h
      have hx := seconds_iff.mp (by simpa using hx)
      have hy := continues_iff.mp (by simpa using hy)
      simp only [payload]
      refine ⟨[x, y], after, rfl, .three ?_ ?_ ?_ ?_ ?_, rfl⟩
      all_goals
        rw [toNat_ofNat (by omega)]
        omega
  split at h
  · rename_i hb
    simp only [Bool.and_eq_true, decide_eq_true_eq] at hb
    split at h
    · cases h
    · split at h <;> cases h
    · split at h
      · cases h
      split at h <;> cases h
    · rename_i x y z after
      split at h
      · cases h
      rename_i hx
      split at h
      · cases h
      rename_i hy
      split at h
      · cases h
      rename_i hz
      cases h
      have hx := seconds_iff.mp (by simpa using hx)
      have hy := continues_iff.mp (by simpa using hy)
      have hz := continues_iff.mp (by simpa using hz)
      simp only [payload]
      refine ⟨[x, y, z], after, rfl, .four ?_ ?_ ?_ ?_ ?_ ?_, rfl⟩
      all_goals
        rw [toNat_ofNat (by omega)]
        omega
  · cases h

/-! ## Whole texts -/

theorem toList_loop (a : ByteArray) (i : Nat) (before : List UInt8) :
    ByteArray.toList.loop a i before = before.reverse ++ a.data.toList.drop i := by
  unfold ByteArray.toList.loop
  split
  · rename_i hi
    have hi : i < a.data.toList.length := hi
    have hget : a.get! i = a.data.toList[i] := getElem!_pos a.data i hi
    rw [toList_loop a (i + 1) (a.get! i :: before), List.reverse_cons, List.append_assoc, hget,
      List.drop_eq_getElem_cons hi]
    rfl
  · rename_i hi
    rw [List.drop_eq_nil_of_le (Nat.not_lt.mp hi), List.append_nil]
termination_by a.size - i

/-- The bytes of a text are those of its characters, in their order. -/
theorem encodeUtf8_eq_flatMap (s : String) : encodeUtf8 s = s.toList.flatMap String.utf8EncodeChar := by
  unfold encodeUtf8 ByteArray.toList
  rw [toList_loop, String.toUTF8_eq_toByteArray, ← String.utf8Encode_toList, List.utf8Encode,
    List.toList_data_toByteArray]
  rfl

/-- The bytes that belong to a character read before are passed over. -/
theorem decodeFrom_append (bs rest : List UInt8) (index : Nat) :
    decodeFrom index bs.length (bs ++ rest) = decodeFrom (index + bs.length) 0 rest := by
  induction bs generalizing index with
  | nil => rfl
  | cons b bs ih =>
    rw [List.length_cons, List.cons_append, decodeFrom, ih]
    congr 1
    omega

/-- Characters are read from their bytes. -/
theorem decodeFrom_flatMap (cs : List Char) (index : Nat) :
    decodeFrom index 0 (cs.flatMap String.utf8EncodeChar) = .ok cs := by
  induction cs generalizing index with
  | nil => rfl
  | cons c cs ih =>
    obtain ⟨b, bs, hbs⟩ := List.exists_cons_of_ne_nil (String.utf8EncodeChar_ne_nil (c := c))
    have hc : Encodes c.toNat (b :: bs) := utf8EncodeChar_eq_iff.mp hbs
    rw [List.flatMap_cons, hbs, List.cons_append, decodeFrom, hc.decodeChar]
    simp only [Nat.add_sub_cancel]
    rw [decodeFrom_append, ih]
    rfl

/-- Where characters are read, they begin with one that is read from its bytes. -/
theorem exists_of_decodeFrom {ds : List Char} {index : Nat} (h : decodeFrom index 0 (b :: rest) = .ok ds) :
    ∃ c cs bs after, ds = c :: cs ∧ rest = bs ++ after ∧ Encodes c.toNat (b :: bs) ∧
      decodeFrom (index + 1 + bs.length) 0 after = .ok cs := by
  rw [decodeFrom] at h
  split at h
  · cases h
  · rename_i c width hchar
    obtain ⟨bs, after, rfl, hc, rfl⟩ := encodes_of_decodeChar hchar
    rw [Nat.add_sub_cancel, decodeFrom_append] at h
    cases hafter : decodeFrom (index + 1 + bs.length) 0 after with
    | error e =>
      rw [hafter] at h
      cases h
    | ok cs =>
      rw [hafter] at h
      cases h
      exact ⟨c, cs, bs, after, rfl, rfl, hc, hafter⟩

/-- What is read as characters are their bytes. -/
theorem eq_flatMap_of_decodeFrom {cs : List Char} {index : Nat} (h : decodeFrom index 0 bytes = .ok cs) :
    bytes = cs.flatMap String.utf8EncodeChar := by
  induction cs generalizing bytes index with
  | nil =>
    cases bytes with
    | nil => rfl
    | cons b rest =>
      obtain ⟨_, _, _, _, hnil, -⟩ := exists_of_decodeFrom h
      cases hnil
  | cons c cs ih =>
    cases bytes with
    | nil => cases h
    | cons b rest =>
      obtain ⟨_, _, bs, after, hcons, rfl, hc, hafter⟩ := exists_of_decodeFrom h
      cases hcons
      rw [List.flatMap_cons, utf8EncodeChar_eq_iff.mpr hc, ← ih hafter]
      rfl

/-- **Bytes are a text exactly if they are the bytes of one**, and then they are read as that text. -/
theorem decodeUtf8_eq_ok_iff : decodeUtf8 bytes = .ok s ↔ bytes = encodeUtf8 s := by
  unfold decodeUtf8
  rw [encodeUtf8_eq_flatMap]
  constructor
  · intro h
    cases hcs : decodeFrom 0 0 bytes with
    | error e =>
      rw [hcs] at h
      cases h
    | ok cs =>
      rw [hcs] at h
      cases h
      rw [String.toList_ofList]
      exact eq_flatMap_of_decodeFrom hcs
  · rintro rfl
    rw [decodeFrom_flatMap]
    exact congrArg Except.ok (String.ofList_toList)

/-! ## The order of texts -/

/-- The bytes of a smaller character come first, whatever follows them. -/
theorem Encodes.lt (h : m < n) (hm : Encodes m bs) (hn : Encodes n cs) (xs ys : List UInt8) :
    bs ++ xs < cs ++ ys := by
  cases hm <;> cases hn
  all_goals
    simp only [List.cons_append, List.nil_append, List.cons_lt_cons_iff, UInt8.lt_iff_toNat_lt, ← UInt8.toNat_inj]
    omega

theorem flatMap_lt_of_lt {cs ds : List Char} (h : cs < ds) :
    cs.flatMap String.utf8EncodeChar < ds.flatMap String.utf8EncodeChar := by
  induction cs generalizing ds with
  | nil =>
    obtain ⟨d, ds, rfl⟩ : ∃ d rest, ds = d :: rest :=
      List.exists_cons_of_ne_nil fun hnil => List.not_lt_nil _ (hnil ▸ h)
    obtain ⟨b, bs, hbs⟩ := List.exists_cons_of_ne_nil (String.utf8EncodeChar_ne_nil (c := d))
    rw [List.flatMap_cons, hbs]
    exact List.nil_lt_cons _ _
  | cons c cs ih =>
    match ds with
    | [] => exact absurd h (List.not_lt_nil _)
    | d :: ds =>
      rw [List.flatMap_cons, List.flatMap_cons]
      rcases List.cons_lt_cons_iff.mp h with hlt | ⟨rfl, hlt⟩
      · exact (encodes_utf8EncodeChar c).lt hlt (encodes_utf8EncodeChar d) _ _
      · exact List.append_left_lt (ih hlt)

/-- **Texts compare byte by byte as they compare character by character.** -/
theorem encodeUtf8_lt_iff : encodeUtf8 s < encodeUtf8 t ↔ s < t := by
  have mono {s t : String} (h : s < t) : encodeUtf8 s < encodeUtf8 t := by
    rw [encodeUtf8_eq_flatMap, encodeUtf8_eq_flatMap]
    exact flatMap_lt_of_lt h
  refine ⟨fun h => Decidable.byContradiction fun hle => ?_, mono⟩
  by_cases hlt : t < s
  · exact List.lt_asymm h (mono hlt)
  · rw [String.le_antisymm hlt hle] at h
    exact List.lt_irrefl _ h

theorem encodeUtf8_le_iff : encodeUtf8 s ≤ encodeUtf8 t ↔ s ≤ t := by
  rw [← List.not_lt, encodeUtf8_lt_iff]
  rfl

end ReplicaWatch.Text
