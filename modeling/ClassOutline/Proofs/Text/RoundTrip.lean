import ClassOutline.Proofs.Text.Forms
import Mathlib.Data.List.Basic

/-!
# Texts and their bytes

What the bytes of a text are, character by character (`encode_eq_flatMap`). Every text is read back
from its bytes (`decode_encode`), and the bytes of texts are told from all others that can be read
(`Canonical`): no zero byte, no form longer than needed but that of NUL, no surrogate without its
other half. Main statement: canonical bytes are exactly the bytes of the text that they are read as,
so no two of them are read as the same text (`canonical_iff_encode`).
-/

namespace ClassOutline.Text.ModifiedUtf8

/-! ## The form of a unit -/

variable {unit : UInt16}

theorem encodeUnit_one (h : 0 < unit.toNat ∧ unit.toNat < 0x80) :
    encodeUnit unit = [UInt8.ofNat unit.toNat] :=
  if_pos h

theorem encodeUnit_two (h : ¬(0 < unit.toNat ∧ unit.toNat < 0x80)) (hlt : unit.toNat < 0x800) :
    encodeUnit unit =
      [UInt8.ofNat (0xC0 + unit.toNat / 0x40), UInt8.ofNat (0x80 + unit.toNat % 0x40)] :=
  (if_neg h).trans (if_pos hlt)

theorem encodeUnit_three (hle : 0x800 ≤ unit.toNat) :
    encodeUnit unit =
      [UInt8.ofNat (0xE0 + unit.toNat / 0x1000), UInt8.ofNat (0x80 + unit.toNat / 0x40 % 0x40),
        UInt8.ofNat (0x80 + unit.toNat % 0x40)] :=
  (if_neg (by omega)).trans (if_neg (Nat.not_lt_of_le hle))

theorem toNat_byte {n : Nat} (h : n < 0x100) : (UInt8.ofNat n).toNat = n :=
  UInt8.toNat_ofNat_of_lt' h

/-- A unit is written in a form, and that is read as the unit. -/
theorem exists_form_encodeUnit (unit : UInt16) :
    ∃ form : Form, form.bytes = encodeUnit unit ∧ form.unit = unit := by
  have hlt := unit.toNat_lt
  by_cases hone : 0 < unit.toNat ∧ unit.toNat < 0x80
  · have ha := toNat_byte (show unit.toNat < 0x100 by omega)
    refine ⟨.one (UInt8.ofNat unit.toNat) ⟨Nat.zero_le _, by omega⟩, (encodeUnit_one hone).symm, ?_⟩
    rw [← UInt16.toNat_inj, Form.toNat_unit]
    simp only [Form.value, payload, ha]
    omega
  by_cases htwo : unit.toNat < 0x800
  · have ha := toNat_byte (show 0xC0 + unit.toNat / 0x40 < 0x100 by omega)
    have hb := toNat_byte (show 0x80 + unit.toNat % 0x40 < 0x100 by omega)
    refine ⟨.two (UInt8.ofNat (0xC0 + unit.toNat / 0x40)) (UInt8.ofNat (0x80 + unit.toNat % 0x40))
      ⟨by omega, by omega⟩ ⟨by omega, by omega⟩, (encodeUnit_two hone htwo).symm, ?_⟩
    rw [← UInt16.toNat_inj, Form.toNat_unit]
    simp only [Form.value, payload, ha, hb]
    omega
  · have ha := toNat_byte (show 0xE0 + unit.toNat / 0x1000 < 0x100 by omega)
    have hb := toNat_byte (show 0x80 + unit.toNat / 0x40 % 0x40 < 0x100 by omega)
    have hc := toNat_byte (show 0x80 + unit.toNat % 0x40 < 0x100 by omega)
    refine ⟨.three (UInt8.ofNat (0xE0 + unit.toNat / 0x1000))
      (UInt8.ofNat (0x80 + unit.toNat / 0x40 % 0x40)) (UInt8.ofNat (0x80 + unit.toNat % 0x40))
      ⟨by omega, by omega⟩ ⟨by omega, by omega⟩ ⟨by omega, by omega⟩,
      (encodeUnit_three (Nat.le_of_not_lt htwo)).symm, ?_⟩
    rw [← UInt16.toNat_inj, Form.toNat_unit]
    simp only [Form.value, payload, ha, hb, hc]
    omega

/-- Units are written in forms, one for each. -/
theorem exists_forms_encodeUnit (units : List UInt16) :
    ∃ forms : List Form, forms.flatMap Form.bytes = units.flatMap encodeUnit ∧
      forms.map Form.unit = units ∧ ∀ form ∈ forms, form.bytes = encodeUnit form.unit := by
  induction units with
  | nil => exact ⟨[], rfl, rfl, by simp⟩
  | cons unit units ih =>
    obtain ⟨form, hbytes, rfl⟩ := exists_form_encodeUnit unit
    obtain ⟨forms, hall, rfl, hmem⟩ := ih
    refine ⟨form :: forms, ?_, rfl, List.forall_mem_cons.mpr ⟨hbytes, hmem⟩⟩
    rw [List.flatMap_cons, List.flatMap_cons, hbytes, hall]

/-- A text is read as it was written. -/
theorem decode_encode (text : String) : decode (encode text) = .ok text := by
  obtain ⟨forms, hbytes, hunits, -⟩ := exists_forms_encodeUnit (Utf16.encode text.toList)
  rw [encode, ← hbytes, decode_flatMap, hunits, Utf16.decode_encode, String.ofList_toList]

/-! ## The bytes of a character -/

/-- The three bytes of a number of up to 16 bits. -/
def threeBytes (n : Nat) : List UInt8 :=
  [UInt8.ofNat (0xE0 + n / 0x1000), UInt8.ofNat (0x80 + n / 0x40 % 0x40),
    UInt8.ofNat (0x80 + n % 0x40)]

/-- The bytes of a character, said without code units: two for NUL, one to three for the others up
to U+FFFF, and for a character above three for each half of its pair. -/
def charBytes (c : Char) : List UInt8 :=
  if c.toNat = 0 then [0xC0, 0x80]
  else if c.toNat < 0x80 then [UInt8.ofNat c.toNat]
  else if c.toNat < 0x800 then
    [UInt8.ofNat (0xC0 + c.toNat / 0x40), UInt8.ofNat (0x80 + c.toNat % 0x40)]
  else if c.toNat < 0x10000 then threeBytes c.toNat
  else
    threeBytes (0xD800 + (c.toNat - 0x10000) / 0x400) ++
      threeBytes (0xDC00 + (c.toNat - 0x10000) % 0x400)

theorem flatMap_encodeChar_of_lt {c : Char} (h : c.toNat < 0x10000) :
    (Utf16.encodeChar c).flatMap encodeUnit = charBytes c := by
  obtain ⟨hunits, htoNat, -⟩ := Utf16.encodeChar_of_lt h
  rw [hunits, List.flatMap_singleton, charBytes]
  split
  · rename_i hzero
    rw [hzero]
    rfl
  split
  · rw [encodeUnit_one (by omega), htoNat]
  split
  · rw [encodeUnit_two (by omega) (by omega), htoNat]
  · rw [encodeUnit_three (by omega), htoNat, threeBytes]

theorem flatMap_encodeChar_of_le {c : Char} (h : 0x10000 ≤ c.toNat) :
    (Utf16.encodeChar c).flatMap encodeUnit = charBytes c := by
  obtain ⟨high, low, hunits, hhigh, hlow, htoNat⟩ := Utf16.exists_encodeChar_of_le h
  rw [Utf16.isHigh_iff] at hhigh
  rw [Utf16.isLow_iff] at hlow
  have hhigh' : 0xD800 + (c.toNat - 0x10000) / 0x400 = high.toNat := by omega
  have hlow' : 0xDC00 + (c.toNat - 0x10000) % 0x400 = low.toNat := by omega
  rw [hunits, List.flatMap_cons, List.flatMap_singleton, encodeUnit_three (by omega),
    encodeUnit_three (by omega), charBytes, if_neg (by omega), if_neg (by omega),
    if_neg (by omega), if_neg (by omega), hhigh', hlow', threeBytes, threeBytes]

/-- A text is written character by character. -/
theorem encode_eq_flatMap (text : String) : encode text = text.toList.flatMap charBytes := by
  rw [encode, Utf16.encode, List.flatMap_assoc]
  refine List.flatMap_congr fun c _ => ?_
  by_cases h : c.toNat < 0x10000
  · exact flatMap_encodeChar_of_lt h
  · exact flatMap_encodeChar_of_le (Nat.le_of_not_lt h)

/-! ## Shortest forms -/

/-- No form of the same number has fewer bytes. -/
def Form.Shortest (form : Form) : Prop :=
  ∀ other : Form, other.value = form.value → form.bytes.length ≤ other.bytes.length

/-- The number and the length fix the bytes. -/
theorem Form.bytes_eq_of_value {form form' : Form} (hvalue : form.value = form'.value)
    (hlength : form.bytes.length = form'.bytes.length) : form.bytes = form'.bytes := by
  cases form with
  | one a first =>
    cases form' with
    | one a' first' => exact congrArg (fun a => [a]) (UInt8.toNat_inj.mp hvalue)
    | two | three => simp [bytes] at hlength
  | two a b first second =>
    cases form' with
    | two a' b' first' second' =>
      simp only [value, payload, InRange] at hvalue first second first' second'
      obtain rfl : a = a' := UInt8.toNat_inj.mp (by omega)
      obtain rfl : b = b' := UInt8.toNat_inj.mp (by omega)
      rfl
    | one | three => simp [bytes] at hlength
  | three a b c first second third =>
    cases form' with
    | three a' b' c' first' second' third' =>
      simp only [value, payload, InRange] at hvalue first second third first' second' third'
      obtain rfl : a = a' := UInt8.toNat_inj.mp (by omega)
      obtain rfl : b = b' := UInt8.toNat_inj.mp (by omega)
      obtain rfl : c = c' := UInt8.toNat_inj.mp (by omega)
      rfl
    | one | two => simp [bytes] at hlength

/-- A unit is written in as few bytes as it can be, but for NUL in one byte. -/
theorem length_encodeUnit_le (form : Form) (h : form.bytes ≠ [0]) :
    (encodeUnit form.unit).length ≤ form.bytes.length := by
  have htoNat := form.toNat_unit
  by_cases hone : 0 < form.unit.toNat ∧ form.unit.toNat < 0x80
  · rw [encodeUnit_one hone]
    exact List.length_pos_iff.mpr form.bytes_ne_nil
  cases form with
  | one a first =>
    -- a number of seven bits that does not fit one byte is zero
    have ha := first.2
    have hzero : a.toNat = 0 := by
      simp only [Form.value, payload] at htoNat
      omega
    exact absurd (congrArg (fun a => [a]) (UInt8.toNat_inj.mp hzero)) h
  | two a b first second =>
    have htwo : (Form.two a b first second).unit.toNat < 0x800 := by
      have ha := first.2
      have hb := second.2
      simp only [Form.value, payload] at htoNat
      omega
    rw [encodeUnit_two hone htwo]
    simp [Form.bytes]
  | three a b c first second third =>
    by_cases htwo : (Form.three a b c first second third).unit.toNat < 0x800
    · rw [encodeUnit_two hone htwo]
      simp [Form.bytes]
    · rw [encodeUnit_three (Nat.le_of_not_lt htwo)]
      simp [Form.bytes]

theorem zero_notMem_encodeUnit (unit : UInt16) : 0 ∉ encodeUnit unit := by
  have hlt := unit.toNat_lt
  have hbyte : ∀ n, 0 < n → n < 0x100 → ¬0 = UInt8.ofNat n := by
    intro n hpos hlt hzero
    have htoNat := toNat_byte hlt
    rw [← hzero] at htoNat
    exact Nat.ne_of_lt hpos htoNat
  by_cases hone : 0 < unit.toNat ∧ unit.toNat < 0x80
  · rw [encodeUnit_one hone, List.mem_singleton]
    exact hbyte _ hone.1 (by omega)
  by_cases htwo : unit.toNat < 0x800
  · rw [encodeUnit_two hone htwo, List.mem_cons, List.mem_singleton, not_or]
    exact ⟨hbyte _ (by omega) (by omega), hbyte _ (by omega) (by omega)⟩
  · rw [encodeUnit_three (Nat.le_of_not_lt htwo), List.mem_cons, List.mem_cons, List.mem_singleton,
      not_or, not_or]
    exact ⟨hbyte _ (by omega) (by omega), hbyte _ (by omega) (by omega),
      hbyte _ (by omega) (by omega)⟩

/-! ## Canonical bytes -/

/-- The bytes are those of forms, none of them a zero byte or longer than needed but for the two
bytes of NUL, and every surrogate is half of a pair. -/
def Canonical (bytes : List UInt8) : Prop :=
  ∃ forms : List Form, bytes = forms.flatMap Form.bytes ∧ 0 ∉ bytes ∧
    (∀ form ∈ forms, form.Shortest ∨ form.bytes = [0xC0, 0x80]) ∧
    Utf16.Paired (forms.map Form.unit)

/-- Both ways to write NUL. -/
theorem Form.unit_eq_zero_of_bytes {form : Form}
    (h : form.bytes = [0] ∨ form.bytes = [0xC0, 0x80]) : form.unit = 0 := by
  cases form with
  | one a first =>
    obtain rfl : a = 0 := by simpa [bytes] using h
    rfl
  | two a b first second =>
    obtain ⟨rfl, rfl⟩ : a = 0xC0 ∧ b = 0x80 := by simpa [bytes] using h
    rfl
  | three a b c first second third => simp [bytes] at h

/-- The form of a unit is a shortest one, or the two bytes of NUL. -/
theorem Form.shortest_or_of_bytes_eq {form : Form} (h : form.bytes = encodeUnit form.unit) :
    form.Shortest ∨ form.bytes = [0xC0, 0x80] := by
  by_cases hzero : form.unit = 0
  · right
    rw [h, hzero]
    rfl
  · left
    intro other hvalue
    have hunit : other.unit = form.unit := congrArg UInt16.ofNat hvalue
    rw [h, ← hunit]
    refine length_encodeUnit_le other fun hother => hzero ?_
    rw [← hunit, unit_eq_zero_of_bytes (.inl hother)]

/-- A unit is written in its shortest form, and NUL in two bytes. -/
theorem Form.bytes_eq_encodeUnit {form : Form} (hne : form.bytes ≠ [0])
    (h : form.Shortest ∨ form.bytes = [0xC0, 0x80]) : form.bytes = encodeUnit form.unit := by
  obtain ⟨written, hbytes, hunit⟩ := exists_form_encodeUnit form.unit
  have hvalue : written.value = form.value := by rw [← toNat_unit, ← toNat_unit, hunit]
  rcases h with hshortest | hnul
  · rw [← hbytes]
    refine bytes_eq_of_value hvalue.symm (Nat.le_antisymm (hshortest written hvalue) ?_)
    rw [hbytes]
    exact length_encodeUnit_le form hne
  · rw [hnul, unit_eq_zero_of_bytes (.inr hnul)]
    rfl

/-- What is written is canonical. -/
theorem canonical_encode (text : String) : Canonical (encode text) := by
  obtain ⟨forms, hbytes, hunits, hforms⟩ := exists_forms_encodeUnit (Utf16.encode text.toList)
  refine ⟨forms, hbytes.symm, fun hzero => ?_, fun form hform => ?_, ?_⟩
  · obtain ⟨unit, -, hunit⟩ := List.mem_flatMap.mp hzero
    exact zero_notMem_encodeUnit unit hunit
  · exact Form.shortest_or_of_bytes_eq (hforms form hform)
  · rw [hunits]
    exact Utf16.paired_encode text.toList

/-- Canonical bytes are what some text is written in. -/
theorem Canonical.exists_text {bytes : List UInt8} (h : Canonical bytes) :
    ∃ text, decode bytes = .ok text ∧ encode text = bytes := by
  obtain ⟨forms, rfl, hzero, hforms, hpaired⟩ := h
  refine ⟨_, decode_flatMap forms, ?_⟩
  rw [encode, String.toList_ofList, Utf16.encode_decode hpaired, List.flatMap_map]
  refine List.flatMap_congr fun form hform => ?_
  refine (Form.bytes_eq_encodeUnit (fun hbytes => hzero ?_) (hforms form hform)).symm
  exact List.mem_flatMap.mpr ⟨form, hform, by rw [hbytes]; exact List.mem_singleton_self 0⟩

/-- The bytes of a text are those of its characters, and the text is read back from them. The bytes
that texts have are those that are canonical, and they are the bytes of the text that they are read
as; two that are read as the same text are the same. -/
theorem canonical_iff_encode :
    (∀ text, encode text = text.toList.flatMap charBytes ∧ decode (encode text) = .ok text) ∧
    (∀ bytes, Canonical bytes ↔ ∃ text, decode bytes = .ok text ∧ encode text = bytes) ∧
    ∀ bytes bytes', Canonical bytes → Canonical bytes' → decode bytes = decode bytes' →
      bytes = bytes' := by
  refine ⟨fun text => ⟨encode_eq_flatMap text, decode_encode text⟩,
    fun bytes => ⟨Canonical.exists_text, ?_⟩, ?_⟩
  · rintro ⟨text, -, rfl⟩
    exact canonical_encode text
  · intro bytes bytes' h h' heq
    obtain ⟨text, htext, rfl⟩ := h.exists_text
    obtain ⟨text', htext', rfl⟩ := h'.exists_text
    rw [htext, htext', Except.ok.injEq] at heq
    rw [heq]

end ClassOutline.Text.ModifiedUtf8
