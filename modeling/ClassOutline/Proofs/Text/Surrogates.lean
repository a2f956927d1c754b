import ClassOutline.Text.Utf16

/-!
# Surrogates and characters

Which characters a sequence of code units gives, said without a reader (`Reads`): a high unit and
the low one right after it give the character above U+FFFF that they stand for, any other surrogate
gives U+FFFD, and any other unit gives its own character. Main statements: that is what is read
(`reads_iff`); every text is read back from its units (`decode_encode`); and the units of texts are
just those in which every surrogate is half of a pair (`paired_encode`, `encode_decode`).
-/

namespace ClassOutline.Text.Utf16

variable {unit high low : UInt16} {units : List UInt16} {text : List Char}

/-! ## What is read -/

/-- A unit that is no character on its own. -/
def IsSurrogate (unit : UInt16) : Prop :=
  isHigh unit = true ∨ isLow unit = true

/-- The unit is high, and the first one after it is low. -/
def LeadsPair (unit : UInt16) (units : List UInt16) : Prop :=
  isHigh unit = true ∧ ∃ low ∈ units.head?, isLow low = true

/-- The characters that a sequence of units gives. -/
inductive Reads : List UInt16 → List Char → Prop where
  | nil : Reads [] []
  | pair {high low : UInt16} {units : List UInt16} {c : Char} {text : List Char}
      (high_isHigh : isHigh high = true) (low_isLow : isLow low = true)
      (toNat_eq : c.toNat = 0x10000 + (high.toNat - 0xD800) * 0x400 + (low.toNat - 0xDC00))
      (rest : Reads units text) : Reads (high :: low :: units) (c :: text)
  | plain {unit : UInt16} {units : List UInt16} {c : Char} {text : List Char}
      (plain : ¬IsSurrogate unit) (toNat_eq : c.toNat = unit.toNat)
      (rest : Reads units text) : Reads (unit :: units) (c :: text)
  | replaced {unit : UInt16} {units : List UInt16} {text : List Char}
      (surrogate : IsSurrogate unit) (single : ¬LeadsPair unit units)
      (rest : Reads units text) : Reads (unit :: units) ('\ufffd' :: text)

/-! ## Numbers of characters -/

theorem isHigh_iff : isHigh unit = true ↔ 0xD800 ≤ unit.toNat ∧ unit.toNat < 0xDC00 := by
  simp [isHigh]

theorem isLow_iff : isLow unit = true ↔ 0xDC00 ≤ unit.toNat ∧ unit.toNat < 0xE000 := by
  simp [isLow]

theorem isSurrogate_iff : IsSurrogate unit ↔ 0xD800 ≤ unit.toNat ∧ unit.toNat < 0xE000 := by
  rw [IsSurrogate, isHigh_iff, isLow_iff]
  omega

theorem toNat_valid (c : Char) : c.toNat < 0xD800 ∨ 0xDFFF < c.toNat ∧ c.toNat < 0x110000 :=
  c.valid

theorem toNat_charOfNat {n : Nat} (h : n.isValidChar) : (Char.ofNat n).toNat = n := by
  rw [Char.ofNat, dif_pos h]
  rfl

theorem toNat_join (hhigh : isHigh high = true) (hlow : isLow low = true) :
    (join high low).toNat = 0x10000 + (high.toNat - 0xD800) * 0x400 + (low.toNat - 0xDC00) := by
  rw [isHigh_iff] at hhigh
  rw [isLow_iff] at hlow
  refine toNat_charOfNat (.inr ?_)
  omega

theorem alone_of_isSurrogate (h : IsSurrogate unit) : alone unit = '\ufffd' := by
  have hor : (isHigh unit || isLow unit) = true := by simpa [IsSurrogate] using h
  rw [alone, if_pos hor]

theorem toNat_alone (h : ¬IsSurrogate unit) : (alone unit).toNat = unit.toNat := by
  have hor : ¬(isHigh unit || isLow unit) = true := by simpa [IsSurrogate] using h
  rw [isSurrogate_iff] at h
  have hlt := unit.toNat_lt
  rw [alone, if_neg hor]
  refine toNat_charOfNat ?_
  unfold Nat.isValidChar
  omega

/-! ## The reader -/

theorem decode_pair (hhigh : isHigh high = true) (hlow : isLow low = true) :
    decode (high :: low :: units) = join high low :: decode units := by
  simp [decode, hhigh, hlow]

theorem decode_single (h : ¬LeadsPair unit units) :
    decode (unit :: units) = alone unit :: decode units := by
  cases units with
  | nil => rfl
  | cons next units =>
    have hpair : ¬(isHigh unit && isLow next) = true := by simpa [LeadsPair] using h
    rw [decode, if_neg hpair]

theorem not_leadsPair (h : ¬IsSurrogate unit) : ¬LeadsPair unit units :=
  fun hpair => h (.inl hpair.1)

theorem Reads.single (h : ¬LeadsPair unit units) (hrest : Reads units text) :
    Reads (unit :: units) (alone unit :: text) := by
  by_cases hunit : IsSurrogate unit
  · rw [alone_of_isSurrogate hunit]
    exact .replaced hunit h hrest
  · exact .plain hunit (toNat_alone hunit) hrest

theorem reads_decode (units : List UInt16) : Reads units (decode units) := by
  induction units using decode.induct with
  | case1 => exact .nil
  | case2 unit => exact .single (by simp [LeadsPair]) .nil
  | case3 high low rest hpair ih =>
    obtain ⟨hhigh, hlow⟩ := Bool.and_eq_true_iff.mp hpair
    rw [decode_pair hhigh hlow]
    exact .pair hhigh hlow (toNat_join hhigh hlow) ih
  | case4 unit next rest hpair ih =>
    have hsingle : ¬LeadsPair unit (next :: rest) := by simpa [LeadsPair] using hpair
    rw [decode_single hsingle]
    exact .single hsingle ih

/-- The characters that units give are those that decoding gives. -/
theorem reads_iff : Reads units text ↔ decode units = text := by
  constructor
  · intro h
    induction h with
    | nil => rfl
    | pair hhigh hlow htoNat _ ih =>
      rw [decode_pair hhigh hlow, ih]
      rw [← toNat_join hhigh hlow, Char.toNat_inj] at htoNat
      rw [htoNat]
    | plain hunit htoNat _ ih =>
      rw [decode_single (not_leadsPair hunit), ih]
      rw [← toNat_alone hunit, Char.toNat_inj] at htoNat
      rw [htoNat]
    | replaced hunit hsingle _ ih => rw [decode_single hsingle, ih, alone_of_isSurrogate hunit]
  · rintro rfl
    exact reads_decode units

/-! ## Reading what was written -/

theorem encodeChar_of_lt {c : Char} (h : c.toNat < 0x10000) :
    encodeChar c = [UInt16.ofNat c.toNat] ∧ (UInt16.ofNat c.toNat).toNat = c.toNat ∧
      ¬IsSurrogate (UInt16.ofNat c.toNat) := by
  have htoNat : (UInt16.ofNat c.toNat).toNat = c.toNat := UInt16.toNat_ofNat_of_lt' h
  refine ⟨if_pos h, htoNat, ?_⟩
  rw [isSurrogate_iff, htoNat]
  have := toNat_valid c
  omega

/-- A character above U+FFFF is written as a pair that stands for it. -/
theorem exists_encodeChar_of_le {c : Char} (h : 0x10000 ≤ c.toNat) :
    ∃ high low, encodeChar c = [high, low] ∧ isHigh high = true ∧ isLow low = true ∧
      c.toNat = 0x10000 + (high.toNat - 0xD800) * 0x400 + (low.toNat - 0xDC00) := by
  have hvalid := toNat_valid c
  have hhigh : (UInt16.ofNat (0xD800 + (c.toNat - 0x10000) / 0x400)).toNat =
      0xD800 + (c.toNat - 0x10000) / 0x400 := UInt16.toNat_ofNat_of_lt' (by show _ < 65536; omega)
  have hlow : (UInt16.ofNat (0xDC00 + (c.toNat - 0x10000) % 0x400)).toNat =
      0xDC00 + (c.toNat - 0x10000) % 0x400 := UInt16.toNat_ofNat_of_lt' (by show _ < 65536; omega)
  refine ⟨_, _, if_neg (by omega), ?_, ?_, ?_⟩
  · rw [isHigh_iff, hhigh]
    omega
  · rw [isLow_iff, hlow]
    omega
  · rw [hhigh, hlow]
    omega

/-- A character that was written is read, whatever follows. -/
theorem decode_encodeChar_append (c : Char) (units : List UInt16) :
    decode (encodeChar c ++ units) = c :: decode units := by
  rw [← reads_iff]
  by_cases h : c.toNat < 0x10000
  · obtain ⟨hunits, htoNat, hplain⟩ := encodeChar_of_lt h
    rw [hunits]
    exact .plain hplain htoNat.symm (reads_decode units)
  · obtain ⟨high, low, hunits, hhigh, hlow, htoNat⟩ :=
      exists_encodeChar_of_le (Nat.le_of_not_lt h)
    rw [hunits]
    exact .pair hhigh hlow htoNat (reads_decode units)

/-- Characters are read as they were written. -/
theorem decode_encode (text : List Char) : decode (encode text) = text := by
  induction text with
  | nil => rfl
  | cons c text ih =>
    rw [encode, List.flatMap_cons, decode_encodeChar_append]
    rw [encode] at ih
    rw [ih]

/-! ## Units in pairs -/

/-- Every surrogate is half of a pair: right after a high unit stands a low one, and right before a
low unit a high one. -/
def Paired (units : List UInt16) : Prop :=
  ∀ before unit after, units = before ++ unit :: after →
    (isHigh unit = true → ∃ low ∈ after.head?, isLow low = true) ∧
      (isLow unit = true → ∃ high ∈ before.getLast?, isHigh high = true)

theorem Paired.leadsPair (h : Paired (unit :: units)) (hhigh : isHigh unit = true) :
    LeadsPair unit units :=
  ⟨hhigh, (h [] unit units rfl).1 hhigh⟩

theorem Paired.not_isLow (h : Paired (unit :: units)) : ¬isLow unit = true := by
  intro hlow
  simpa using (h [] unit units rfl).2 hlow

/-- A place between two units that are no pair leaves pairs on both sides whole. -/
theorem Paired.of_append (front : List UInt16) (h : Paired (front ++ units))
    (hlast : ∀ last ∈ front.getLast?, ¬isHigh last = true) : Paired units := by
  rintro before unit after rfl
  obtain ⟨hhigh, hlow⟩ := h (front ++ before) unit after (List.append_assoc ..).symm
  refine ⟨hhigh, fun hunit => ?_⟩
  obtain ⟨last, hmem, hlast'⟩ := hlow hunit
  rw [List.getLast?_append, Option.mem_def, Option.or_eq_some_iff] at hmem
  rcases hmem with hmem | ⟨-, hmem⟩
  · exact ⟨last, hmem, hlast'⟩
  · exact absurd hlast' (hlast last hmem)

/-- Pairs stay pairs if other pairs follow. -/
theorem Paired.append {front : List UInt16} (hfront : Paired front) (h : Paired units) :
    Paired (front ++ units) := by
  intro before unit after hsplit
  rcases List.append_eq_append_iff.mp hsplit with ⟨middle, rfl, rfl⟩ | ⟨middle, rfl, hafter⟩
  · obtain ⟨hhigh, hlow⟩ := h middle unit after rfl
    refine ⟨hhigh, fun hunit => ?_⟩
    obtain ⟨last, hmem, hlast⟩ := hlow hunit
    exact ⟨last, by rw [List.getLast?_append, hmem]; rfl, hlast⟩
  · cases middle with
    | nil =>
      -- the unit is the first one after `front`
      subst hafter
      obtain ⟨hhigh, hlow⟩ := h [] unit after rfl
      refine ⟨hhigh, fun hunit => ?_⟩
      simpa using hlow hunit
    | cons first middle =>
      rw [List.cons_append, List.cons.injEq] at hafter
      obtain ⟨rfl, rfl⟩ := hafter
      obtain ⟨hhigh, hlow⟩ := hfront before unit middle rfl
      refine ⟨fun hunit => ?_, hlow⟩
      obtain ⟨next, hmem, hnext⟩ := hhigh hunit
      exact ⟨next, by rw [List.head?_append, hmem]; rfl, hnext⟩

theorem paired_singleton (h : ¬IsSurrogate unit) : Paired [unit] := by
  intro before unit' after hsplit
  cases before with
  | nil =>
    obtain ⟨rfl, rfl⟩ : unit = unit' ∧ [] = after := by simpa using hsplit
    exact ⟨fun hhigh => absurd (.inl hhigh) h, fun hlow => absurd (.inr hlow) h⟩
  | cons first before => simp at hsplit

theorem paired_pair (hhigh : isHigh high = true) (hlow : isLow low = true) :
    Paired [high, low] := by
  intro before unit after hsplit
  match before with
  | [] =>
    obtain ⟨rfl, rfl⟩ : high = unit ∧ [low] = after := by simpa using hsplit
    refine ⟨fun _ => ⟨low, rfl, hlow⟩, fun hlow' => ?_⟩
    rw [not_isLow_of_isHigh hhigh] at hlow'
    cases hlow'
  | [first] =>
    obtain ⟨rfl, rfl, rfl⟩ : high = first ∧ low = unit ∧ [] = after := by simpa using hsplit
    refine ⟨fun hhigh' => ?_, fun _ => ⟨high, rfl, hhigh⟩⟩
    rw [not_isLow_of_isHigh hhigh'] at hlow
    cases hlow
  | first :: second :: before => simp at hsplit

/-- What is written has no lone surrogates. -/
theorem paired_encode (text : List Char) : Paired (encode text) := by
  induction text with
  | nil =>
    intro before unit after hsplit
    simp [encode] at hsplit
  | cons c text ih =>
    rw [encode, List.flatMap_cons]
    refine Paired.append ?_ ih
    by_cases h : c.toNat < 0x10000
    · obtain ⟨hunits, -, hplain⟩ := encodeChar_of_lt h
      rw [hunits]
      exact paired_singleton hplain
    · obtain ⟨high, low, hunits, hhigh, hlow, -⟩ := exists_encodeChar_of_le (Nat.le_of_not_lt h)
      rw [hunits]
      exact paired_pair hhigh hlow

theorem encodeChar_alone (h : ¬IsSurrogate unit) : encodeChar (alone unit) = [unit] := by
  have hlt : (alone unit).toNat < 0x10000 := by
    rw [toNat_alone h]
    exact unit.toNat_lt
  rw [(encodeChar_of_lt hlt).1, toNat_alone h, UInt16.ofNat_toNat]

theorem encodeChar_join (hhigh : isHigh high = true) (hlow : isLow low = true) :
    encodeChar (join high low) = [high, low] := by
  have htoNat := toNat_join hhigh hlow
  obtain ⟨high', low', hunits, hhigh', hlow', htoNat'⟩ :=
    exists_encodeChar_of_le (c := join high low) (by omega)
  rw [isHigh_iff] at hhigh hhigh'
  rw [isLow_iff] at hlow hlow'
  -- both pairs stand for one number, which fixes its ten high and its ten low bits
  have hhigh_eq : high'.toNat = high.toNat := by omega
  have hlow_eq : low'.toNat = low.toNat := by omega
  rw [hunits, UInt16.toNat_inj.mp hhigh_eq, UInt16.toNat_inj.mp hlow_eq]

/-- Units without lone surrogates are those of the text that they give. -/
theorem encode_decode {units : List UInt16} (h : Paired units) : encode (decode units) = units := by
  have hsingle : ∀ {unit : UInt16} {units : List UInt16}, Paired (unit :: units) →
      ¬LeadsPair unit units → ¬IsSurrogate unit ∧ Paired units := by
    intro unit units h hpair
    have hhigh : ¬isHigh unit = true := fun hhigh => hpair (h.leadsPair hhigh)
    refine ⟨not_or.mpr ⟨hhigh, h.not_isLow⟩, h.of_append [unit] ?_⟩
    simpa using hhigh
  induction units using decode.induct with
  | case1 => rfl
  | case2 unit =>
    obtain ⟨hunit, -⟩ := hsingle h (by simp [LeadsPair])
    simp [decode, encode, encodeChar_alone hunit]
  | case3 high low rest hpair ih =>
    obtain ⟨hhigh, hlow⟩ := Bool.and_eq_true_iff.mp hpair
    have hrest : Paired rest := by
      refine h.of_append [high, low] fun last hlast hhigh' => ?_
      obtain rfl : low = last := by simpa using hlast
      rw [not_isLow_of_isHigh hhigh'] at hlow
      cases hlow
    rw [decode_pair hhigh hlow, encode, List.flatMap_cons, encodeChar_join hhigh hlow]
    exact congrArg ([high, low] ++ ·) (ih hrest)
  | case4 unit next rest hpair ih =>
    have hlone : ¬LeadsPair unit (next :: rest) := by simpa [LeadsPair] using hpair
    obtain ⟨hunit, hrest⟩ := hsingle h hlone
    rw [decode_single hlone, encode, List.flatMap_cons, encodeChar_alone hunit]
    exact congrArg ([unit] ++ ·) (ih hrest)

end ClassOutline.Text.Utf16
