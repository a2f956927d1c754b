import ClassOutline.Proofs.Text.Surrogates
import ClassOutline.Text.ModifiedUtf8
import Mathlib.Order.Bounds.Defs

/-!
# The grammar of modified UTF-8

Byte strings as sequences of forms (`Form`), each with its bytes and its number. Main statement
(`decode_eq_forms`): exactly the sequences of forms are read, and as the characters that their
numbers give as code units; where a byte string is no such sequence, the reported offset is the
length of the longest beginning that some sequence of forms starts with.
-/

namespace ClassOutline.Text.ModifiedUtf8

/-! ## Forms -/

def InRange (low high : Nat) (byte : UInt8) : Prop :=
  low ≤ byte.toNat ∧ byte.toNat ≤ high

/-- What the byte says beyond being one of those from `low` on. -/
def payload (low : Nat) (byte : UInt8) : Nat :=
  byte.toNat - low

/-- One, two or three bytes in which a unit is written. -/
inductive Form where
  | one (a : UInt8) (first : InRange 0x00 0x7F a)
  | two (a b : UInt8) (first : InRange 0xC0 0xDF a) (second : InRange 0x80 0xBF b)
  | three (a b c : UInt8) (first : InRange 0xE0 0xEF a) (second : InRange 0x80 0xBF b)
      (third : InRange 0x80 0xBF c)

namespace Form

def bytes : Form → List UInt8
  | one a _ => [a]
  | two a b _ _ => [a, b]
  | three a b c _ _ _ => [a, b, c]

/-- The number of 7, 11 or 16 bits that the form holds. -/
def value : Form → Nat
  | one a _ => payload 0x00 a
  | two a b _ _ => payload 0xC0 a * 0x40 + payload 0x80 b
  | three a b c _ _ _ => payload 0xE0 a * 0x1000 + payload 0x80 b * 0x40 + payload 0x80 c

def unit (form : Form) : UInt16 := UInt16.ofNat form.value

theorem value_lt (form : Form) : form.value < 0x10000 := by
  cases form with
  | one a first =>
    obtain ⟨-, ha⟩ := first
    simp only [value, payload]
    omega
  | two a b first second =>
    obtain ⟨-, ha⟩ := first
    obtain ⟨-, hb⟩ := second
    simp only [value, payload]
    omega
  | three a b c first second third =>
    obtain ⟨-, ha⟩ := first
    obtain ⟨-, hb⟩ := second
    obtain ⟨-, hc⟩ := third
    simp only [value, payload]
    omega

theorem toNat_unit (form : Form) : form.unit.toNat = form.value :=
  UInt16.toNat_ofNat_of_lt' form.value_lt

theorem bytes_ne_nil (form : Form) : form.bytes ≠ [] := by
  cases form <;> simp [bytes]

/-- No form begins another one. -/
theorem eq_of_prefix {form form' : Form} (h : form.bytes <+: form'.bytes) : form = form' := by
  cases form <;> cases form' <;> simp only [bytes, List.cons_prefix_cons] at h <;>
    grind [InRange]

end Form

/-! ## Reading one form -/

theorem isContinuation_iff {byte : UInt8} :
    isContinuation byte = true ↔ InRange 0x80 0xBF byte := by
  simp only [isContinuation, InRange, Bool.and_eq_true, decide_eq_true_eq]
  omega

theorem toUInt16_eq_unit {a : UInt8} (first : InRange 0x00 0x7F a) :
    a.toUInt16 = (Form.one a first).unit := by
  apply UInt16.toNat_inj.mp
  rw [Form.toNat_unit, UInt8.toNat_toUInt16]
  rfl

theorem unitOfTwo_eq_unit {a b : UInt8} (first : InRange 0xC0 0xDF a)
    (second : InRange 0x80 0xBF b) : unitOfTwo a b = (Form.two a b first second).unit := by
  have hvalue : a.toNat % 0x20 * 0x40 + b.toNat % 0x40 = (Form.two a b first second).value := by
    obtain ⟨ha, ha'⟩ := id first
    obtain ⟨hb, hb'⟩ := id second
    simp only [Form.value, payload]
    omega
  rw [unitOfTwo, hvalue, Form.unit]

theorem unitOfThree_eq_unit {a b c : UInt8} (first : InRange 0xE0 0xEF a)
    (second : InRange 0x80 0xBF b) (third : InRange 0x80 0xBF c) :
    unitOfThree a b c = (Form.three a b c first second third).unit := by
  have hvalue : a.toNat % 0x10 * 0x1000 + b.toNat % 0x40 * 0x40 + c.toNat % 0x40 =
      (Form.three a b c first second third).value := by
    obtain ⟨ha, ha'⟩ := id first
    obtain ⟨hb, hb'⟩ := id second
    obtain ⟨hc, hc'⟩ := id third
    simp only [Form.value, payload]
    omega
  rw [unitOfThree, hvalue, Form.unit]

/-- A form that is written is read as its unit. -/
theorem unitsOnto_form_append (form : Form) (offset : Nat) (read : List UInt16)
    (rest : List UInt8) :
    unitsOnto offset read (form.bytes ++ rest) =
      unitsOnto (offset + form.bytes.length) (form.unit :: read) rest := by
  cases form with
  | one a first =>
    have ha : a.toNat < 0x80 := Nat.lt_succ_of_le first.2
    rw [Form.bytes, List.singleton_append, unitsOnto.eq_def]
    simp only [ha, if_true, toUInt16_eq_unit first]
    rfl
  | two a b first second =>
    have hcontinues := isContinuation_iff.mpr second
    obtain ⟨hlow, hhigh⟩ := id first
    have h80 : ¬a.toNat < 0x80 := by omega
    have hC0 : ¬a.toNat < 0xC0 := by omega
    have hE0 : a.toNat < 0xE0 := by omega
    rw [← unitOfTwo_eq_unit]
    simp [Form.bytes, unitsOnto, h80, hC0, hE0, hcontinues]
  | three a b c first second third =>
    have hsecond := isContinuation_iff.mpr second
    have hthird := isContinuation_iff.mpr third
    obtain ⟨hlow, hhigh⟩ := id first
    have h80 : ¬a.toNat < 0x80 := by omega
    have hC0 : ¬a.toNat < 0xC0 := by omega
    have hE0 : ¬a.toNat < 0xE0 := by omega
    have hF0 : a.toNat < 0xF0 := by omega
    rw [← unitOfThree_eq_unit]
    simp [Form.bytes, unitsOnto, h80, hC0, hE0, hF0, hsecond, hthird]

/-- The bytes fit some form up to `size`, and end there or fit no form any further. -/
structure Breaks (bytes : List UInt8) (size : Nat) : Prop where
  le_length : size ≤ bytes.length
  fits : ∃ form : Form, bytes.take size <+: form.bytes ∧ size < form.bytes.length
  ends : ∀ form : Form, bytes.take (size + 1) <+: form.bytes → size = bytes.length

theorem breaks_zero {a : UInt8} (rest : List UInt8)
    (h : InRange 0x80 0xBF a ∨ InRange 0xF0 0xFF a) : Breaks (a :: rest) 0 where
  le_length := Nat.zero_le _
  fits := ⟨.one 0 (by simp [InRange]), by simp [Form.bytes]⟩
  ends := by
    intro form hform
    cases form <;> simp only [Form.bytes, List.take_succ_cons, List.cons_prefix_cons] at hform <;>
      grind [InRange]

/-- After the first byte of a form there are only continuations. -/
theorem inRange_of_mem_tail {form : Form} {byte : UInt8} (h : byte ∈ form.bytes.tail) :
    InRange 0x80 0xBF byte := by
  cases form with
  | one a first => simp [Form.bytes] at h
  | two a b first second =>
    obtain rfl : byte = b := by simpa [Form.bytes] using h
    exact second
  | three a b c first second third =>
    have hmem : byte = b ∨ byte = c := by simpa [Form.bytes] using h
    rcases hmem with rfl | rfl
    · exact second
    · exact third

/-- A form that was begun breaks where no continuation follows. -/
theorem breaks_of_prefix (form : Form) {a : UInt8} (fit : List UInt8) {rest : List UInt8}
    (hfit : a :: fit <+: form.bytes) (hlt : (a :: fit).length < form.bytes.length)
    (hnext : ∀ next ∈ rest.head?, ¬isContinuation next = true) :
    Breaks (a :: fit ++ rest) (a :: fit).length where
  le_length := by simp
  fits := ⟨form, by rwa [List.take_left], hlt⟩
  ends := by
    intro form' hform'
    cases rest with
    | nil => simp
    | cons next rest =>
      rw [List.take_length_add_append, List.take_succ_cons, List.take_zero] at hform'
      obtain ⟨after, hbytes⟩ := hform'
      have hmem : next ∈ form'.bytes.tail := by
        rw [← hbytes]
        simp
      exact absurd (isContinuation_iff.mpr (inRange_of_mem_tail hmem)) (hnext next rfl)

theorem breaks_one {a : UInt8} {rest : List UInt8} (ha : InRange 0xC0 0xEF a)
    (hnext : ∀ next ∈ rest.head?, ¬isContinuation next = true) : Breaks (a :: rest) 1 := by
  have h80 : InRange 0x80 0xBF 0x80 := ⟨by decide, by decide⟩
  by_cases htwo : a.toNat ≤ 0xDF
  · exact breaks_of_prefix (.two a 0x80 ⟨ha.1, htwo⟩ h80) [] (by simp [Form.bytes])
      (by simp [Form.bytes]) hnext
  · exact breaks_of_prefix (.three a 0x80 0x80 ⟨Nat.lt_of_not_le htwo, ha.2⟩ h80 h80) []
      (by simp [Form.bytes]) (by simp [Form.bytes]) hnext

theorem breaks_two {a b : UInt8} {rest : List UInt8} (ha : InRange 0xE0 0xEF a)
    (hb : InRange 0x80 0xBF b) (hnext : ∀ next ∈ rest.head?, ¬isContinuation next = true) :
    Breaks (a :: b :: rest) 2 := by
  have h80 : InRange 0x80 0xBF 0x80 := ⟨by decide, by decide⟩
  exact breaks_of_prefix (.three a b 0x80 ha hb h80) [b] (by simp [Form.bytes])
    (by simp [Form.bytes]) hnext

/-- The bytes start with a form, or reading them ends where they break. -/
def StartsOrBreaks (bytes : List UInt8) : Prop :=
  (∃ (form : Form) (rest : List UInt8), bytes = form.bytes ++ rest) ∨
    ∃ size, Breaks bytes size ∧
      ∀ offset read, unitsOnto offset read bytes = .error (offset + size)

theorem startsOrBreaks_two {a : UInt8} (first : InRange 0xC0 0xDF a) (rest : List UInt8) :
    StartsOrBreaks (a :: rest) := by
  obtain ⟨hlow, hhigh⟩ := id first
  have h80 : ¬a.toNat < 0x80 := by omega
  have hC0 : ¬a.toNat < 0xC0 := by omega
  have hE0 : a.toNat < 0xE0 := by omega
  have first' : InRange 0xC0 0xEF a := ⟨hlow, by omega⟩
  match rest with
  | [] =>
    refine .inr ⟨1, breaks_one first' (by simp), fun offset read => ?_⟩
    simp [unitsOnto, h80, hC0, hE0]
  | b :: rest =>
    by_cases hb : isContinuation b = true
    · exact .inl ⟨.two a b first (isContinuation_iff.mp hb), rest, rfl⟩
    · refine .inr ⟨1, breaks_one first' (by simpa using hb), fun offset read => ?_⟩
      simp [unitsOnto, h80, hC0, hE0, hb]

theorem startsOrBreaks_three {a : UInt8} (first : InRange 0xE0 0xEF a) (rest : List UInt8) :
    StartsOrBreaks (a :: rest) := by
  obtain ⟨hlow, hhigh⟩ := id first
  have h80 : ¬a.toNat < 0x80 := by omega
  have hC0 : ¬a.toNat < 0xC0 := by omega
  have hE0 : ¬a.toNat < 0xE0 := by omega
  have hF0 : a.toNat < 0xF0 := by omega
  have first' : InRange 0xC0 0xEF a := ⟨by omega, hhigh⟩
  match rest with
  | [] =>
    refine .inr ⟨1, breaks_one first' (by simp), fun offset read => ?_⟩
    simp [unitsOnto, h80, hC0, hE0, hF0]
  | [b] =>
    by_cases hb : isContinuation b = true
    · refine .inr ⟨2, breaks_two first (isContinuation_iff.mp hb) (by simp),
        fun offset read => ?_⟩
      simp [unitsOnto, h80, hC0, hE0, hF0, hb]
    · refine .inr ⟨1, breaks_one first' (by simpa using hb), fun offset read => ?_⟩
      simp [unitsOnto, h80, hC0, hE0, hF0, hb]
  | b :: c :: rest =>
    by_cases hb : isContinuation b = true
    · by_cases hc : isContinuation c = true
      · exact .inl ⟨.three a b c first (isContinuation_iff.mp hb) (isContinuation_iff.mp hc),
          rest, rfl⟩
      · refine .inr ⟨2, breaks_two first (isContinuation_iff.mp hb) (by simpa using hc),
          fun offset read => ?_⟩
        simp [unitsOnto, h80, hC0, hE0, hF0, hb, hc]
    · refine .inr ⟨1, breaks_one first' (by simpa using hb), fun offset read => ?_⟩
      simp [unitsOnto, h80, hC0, hE0, hF0, hb]

/-- Bytes, if there are any, start with a form or break before the end of one. -/
theorem startsOrBreaks {bytes : List UInt8} (hne : bytes ≠ []) : StartsOrBreaks bytes := by
  obtain ⟨a, rest, rfl⟩ := List.exists_cons_of_ne_nil hne
  have hlt := a.toNat_lt
  by_cases h80 : a.toNat < 0x80
  · exact .inl ⟨.one a ⟨Nat.zero_le _, by omega⟩, rest, rfl⟩
  by_cases hC0 : a.toNat < 0xC0
  · refine .inr ⟨0, breaks_zero rest (.inl ⟨by omega, by omega⟩), fun offset read => ?_⟩
    rw [unitsOnto.eq_def]
    simp only [h80, hC0, if_true, if_false]
    rfl
  by_cases hE0 : a.toNat < 0xE0
  · exact startsOrBreaks_two ⟨by omega, by omega⟩ rest
  by_cases hF0 : a.toNat < 0xF0
  · exact startsOrBreaks_three ⟨by omega, by omega⟩ rest
  · refine .inr ⟨0, breaks_zero rest (.inr ⟨by omega, by omega⟩), fun offset read => ?_⟩
    rw [unitsOnto.eq_def]
    simp only [h80, hC0, hE0, hF0, if_false]
    rfl

/-! ## Sequences of forms -/

/-- Forms whose bytes begin with those of other forms begin with these forms. -/
theorem exists_append_of_prefix {forms forms' : List Form} {rest : List UInt8}
    (h : forms.flatMap Form.bytes ++ rest <+: forms'.flatMap Form.bytes) :
    ∃ more, forms' = forms ++ more ∧ rest <+: more.flatMap Form.bytes := by
  induction forms generalizing forms' with
  | nil => exact ⟨forms', rfl, h⟩
  | cons form forms ih =>
    rw [List.flatMap_cons, List.append_assoc] at h
    cases forms' with
    | nil =>
      have hnil := List.prefix_nil.mp h
      exact absurd (List.append_eq_nil_iff.mp hnil).1 form.bytes_ne_nil
    | cons form' forms' =>
      rw [List.flatMap_cons] at h
      obtain rfl : form = form' := by
        have hform := (List.prefix_append form.bytes _).trans h
        have hform' := List.prefix_append form'.bytes (forms'.flatMap Form.bytes)
        rcases List.prefix_or_prefix_of_prefix hform hform' with hle | hle
        · exact Form.eq_of_prefix hle
        · exact (Form.eq_of_prefix hle).symm
      obtain ⟨more, rfl, hrest⟩ := ih ((List.prefix_append_right_inj _).mp h)
      exact ⟨more, rfl, hrest⟩

theorem unitsOnto_flatMap_append (forms : List Form) (offset : Nat) (read : List UInt16)
    (rest : List UInt8) :
    unitsOnto offset read (forms.flatMap Form.bytes ++ rest) =
      unitsOnto (offset + (forms.flatMap Form.bytes).length) ((forms.map Form.unit).reverse ++ read)
        rest := by
  induction forms generalizing offset read with
  | nil => simp
  | cons form forms ih =>
    rw [List.flatMap_cons, List.append_assoc, unitsOnto_form_append, ih, List.length_append,
      Nat.add_assoc]
    simp

theorem units_flatMap_append (forms : List Form) (rest : List UInt8) :
    units (forms.flatMap Form.bytes ++ rest) =
      unitsOnto (forms.flatMap Form.bytes).length (forms.map Form.unit).reverse rest := by
  rw [units, unitsOnto_flatMap_append, Nat.zero_add, List.append_nil]

/-- Forms are read as their units. -/
theorem units_flatMap (forms : List Form) :
    units (forms.flatMap Form.bytes) = .ok (forms.map Form.unit) := by
  have hunits := units_flatMap_append forms []
  rw [List.append_nil] at hunits
  rw [hunits, unitsOnto, List.reverse_reverse]

/-- Bytes are those of forms, or break after those of some forms. -/
theorem exists_forms (bytes : List UInt8) :
    (∃ forms : List Form, bytes = forms.flatMap Form.bytes) ∨
      ∃ (forms : List Form) (rest : List UInt8) (size : Nat),
        bytes = forms.flatMap Form.bytes ++ rest ∧ rest ≠ [] ∧ Breaks rest size ∧
          ∀ offset read, unitsOnto offset read rest = .error (offset + size) := by
  induction hlength : bytes.length using Nat.strongRecOn generalizing bytes with
  | _ length ih =>
    by_cases hne : bytes = []
    · exact .inl ⟨[], hne⟩
    rcases startsOrBreaks hne with ⟨form, rest, rfl⟩ | ⟨size, hbreaks, herror⟩
    · have hpos := List.length_pos_iff.mpr form.bytes_ne_nil
      rw [List.length_append] at hlength
      rcases ih rest.length (by omega) rest rfl with ⟨forms, rfl⟩ | ⟨forms, rest, size, rfl, hrest⟩
      · exact .inl ⟨form :: forms, rfl⟩
      · exact .inr ⟨form :: forms, rest, size, by rw [List.flatMap_cons, List.append_assoc], hrest⟩
    · exact .inr ⟨[], bytes, size, rfl, hne, hbreaks, herror⟩

/-! ## Plain texts -/

/-- Of plain bytes each is a unit, so these need not be taken apart. -/
theorem units_of_isPlain {bytes : List UInt8} (h : isPlain bytes = true) :
    units bytes = .ok (bytes.map UInt8.toUInt16) := by
  have honto : ∀ offset read, unitsOnto offset read bytes =
      .ok (read.reverse ++ bytes.map UInt8.toUInt16) := by
    induction bytes with
    | nil => simp [unitsOnto]
    | cons byte bytes ih =>
      intro offset read
      rw [isPlain, List.all_cons, Bool.and_eq_true, Bool.and_eq_true, decide_eq_true_eq] at h
      rw [unitsOnto.eq_def]
      simp only [h.1.2, if_true, ih h.2]
      simp
  exact honto 0 []

/-- Bytes as units are the characters with their numbers. -/
theorem decode_map_toUInt16 (bytes : List UInt8) :
    Utf16.decode (bytes.map UInt8.toUInt16) = bytes.map fun byte => Char.ofNat byte.toNat := by
  rw [← Utf16.reads_iff]
  induction bytes with
  | nil => exact .nil
  | cons byte bytes ih =>
    have hlt := byte.toNat_lt
    refine .plain ?_ ?_ ih
    · rw [Utf16.isSurrogate_iff, UInt8.toNat_toUInt16]
      omega
    · rw [UInt8.toNat_toUInt16]
      exact Utf16.toNat_charOfNat (.inl (by omega))

/-- Plain texts could be taken apart into units like all others. -/
theorem decode_eq (bytes : List UInt8) :
    decode bytes = (units bytes).map fun read => String.ofList (Utf16.decode read) := by
  unfold decode
  split
  · rename_i hplain
    rw [units_of_isPlain hplain, Except.map, decode_map_toUInt16]
  · simp only [Utf16.decodeOnto_eq, List.reverse_nil, List.nil_append]

theorem decode_flatMap (forms : List Form) :
    decode (forms.flatMap Form.bytes) =
      .ok (String.ofList (Utf16.decode (forms.map Form.unit))) := by
  rw [decode_eq, units_flatMap, Except.map]

/-- Bytes can be decoded where they are those of forms. -/
theorem decode_eq_ok_iff {bytes : List UInt8} :
    (∃ text, decode bytes = .ok text) ↔ ∃ forms : List Form, bytes = forms.flatMap Form.bytes := by
  constructor
  · rintro ⟨text, htext⟩
    rcases exists_forms bytes with hforms | ⟨forms, rest, size, rfl, -, -, herror⟩
    · exact hforms
    · rw [decode_eq, units_flatMap_append, herror] at htext
      cases htext
  · rintro ⟨forms, rfl⟩
    exact ⟨_, decode_flatMap forms⟩

/-! ## Where reading fails -/

/-- There is a text whose bytes begin with these. -/
def Extensible (bytes : List UInt8) : Prop :=
  ∃ more text, decode (bytes ++ more) = .ok text

/-- Bytes begin a text where they begin a sequence of forms. -/
theorem extensible_iff {bytes : List UInt8} :
    Extensible bytes ↔ ∃ forms : List Form, bytes <+: forms.flatMap Form.bytes := by
  simp only [Extensible, decode_eq_ok_iff]
  constructor
  · rintro ⟨more, forms, hforms⟩
    exact ⟨forms, more, hforms⟩
  · rintro ⟨forms, more, hforms⟩
    exact ⟨more, forms, hforms⟩

/-- The bytes stop after the first and before the last byte of a form. -/
def StopsInside (bytes : List UInt8) : Prop :=
  ∃ (forms : List Form) (form : Form) (size : Nat), 0 < size ∧ size < form.bytes.length ∧
    bytes = forms.flatMap Form.bytes ++ form.bytes.take size

/-- Bytes that go beyond a break begin no text. -/
theorem Breaks.not_extensible {rest : List UInt8} {size n : Nat} (h : Breaks rest size)
    (hlt : size < n) (hle : n ≤ rest.length) : ¬Extensible (rest.take n) := by
  rw [extensible_iff]
  rintro ⟨forms, hforms⟩
  have hfit : rest.take (size + 1) <+: forms.flatMap Form.bytes := by
    have htake : rest.take (size + 1) = (rest.take n).take (size + 1) := by
      rw [List.take_take, Nat.min_eq_left hlt]
    rw [htake]
    exact (List.take_prefix _ _).trans hforms
  have hlength : (rest.take (size + 1)).length = size + 1 := List.length_take_of_le (by omega)
  cases forms with
  | nil =>
    rw [List.flatMap_nil, List.prefix_nil] at hfit
    simp [hfit] at hlength
  | cons form forms =>
    rw [List.flatMap_cons] at hfit
    rcases List.prefix_or_prefix_of_prefix hfit (List.prefix_append form.bytes _) with hle' | hle'
    · have := h.ends form hle'
      omega
    · have hlength' := hle'.length_le
      by_cases hsize : form.bytes.length ≤ size
      · -- a whole form would stand where another one is not complete yet
        obtain ⟨form', hfit', hlt'⟩ := h.fits
        have hshort : form.bytes <+: rest.take size := by
          refine List.prefix_of_prefix_length_le (hle'.trans (List.take_prefix _ _))
            (List.take_prefix _ _) ?_
          rwa [List.length_take_of_le h.le_length]
        rw [Form.eq_of_prefix (hshort.trans hfit')] at hsize
        omega
      · have heq := hle'.eq_of_length (by omega)
        have := h.ends form (heq ▸ List.prefix_rfl)
        omega

/-- The offset that is reported is the length of the longest beginning that a text can have. -/
theorem Breaks.isGreatest (forms : List Form) {rest : List UInt8} {size : Nat}
    (h : Breaks rest size) :
    IsGreatest {n | n ≤ (forms.flatMap Form.bytes ++ rest).length ∧
      Extensible ((forms.flatMap Form.bytes ++ rest).take n)}
        ((forms.flatMap Form.bytes).length + size) := by
  constructor
  · obtain ⟨form, hfit, -⟩ := h.fits
    refine ⟨by simpa using h.le_length, extensible_iff.mpr ⟨forms ++ [form], ?_⟩⟩
    rw [List.take_length_add_append, List.flatMap_append, List.flatMap_singleton]
    exact (List.prefix_append_right_inj _).mpr hfit
  · rintro n ⟨hle, hextensible⟩
    rw [List.length_append] at hle
    refine Nat.le_of_not_lt fun hlt => ?_
    obtain ⟨m, rfl⟩ : ∃ m, n = (forms.flatMap Form.bytes).length + m :=
      Nat.exists_eq_add_of_le (by omega)
    rw [List.take_length_add_append, extensible_iff] at hextensible
    obtain ⟨forms', hforms'⟩ := hextensible
    obtain ⟨more, -, hrest⟩ := exists_append_of_prefix hforms'
    exact h.not_extensible (by omega) (by omega) (extensible_iff.mpr ⟨more, hrest⟩)

theorem StopsInside.extensible {bytes : List UInt8} (h : StopsInside bytes) : Extensible bytes := by
  obtain ⟨forms, form, size, -, -, rfl⟩ := h
  refine extensible_iff.mpr ⟨forms ++ [form], ?_⟩
  rw [List.flatMap_append, List.flatMap_singleton]
  exact (List.prefix_append_right_inj _).mpr (List.take_prefix _ _)

theorem Breaks.stopsInside {rest : List UInt8} (forms : List Form) (hne : rest ≠ [])
    (h : Breaks rest rest.length) : StopsInside (forms.flatMap Form.bytes ++ rest) := by
  obtain ⟨form, hfit, hlt⟩ := h.fits
  rw [List.take_length] at hfit
  refine ⟨forms, form, rest.length, List.length_pos_iff.mpr hne, hlt, ?_⟩
  rw [← List.prefix_iff_eq_take.mp hfit]

/-- Exactly the bytes of sequences of forms are read, and as the characters that the numbers of the
forms give as code units. Where reading fails, the offset is the length of the longest beginning
that the bytes of a text can have, which is all of the bytes if they stop inside a form. -/
theorem decode_eq_forms (bytes : List UInt8) :
    ((∃ text, decode bytes = .ok text) ↔ ∃ forms : List Form, bytes = forms.flatMap Form.bytes) ∧
    (∀ (forms : List Form) (text : String), bytes = forms.flatMap Form.bytes →
      (decode bytes = .ok text ↔ Utf16.Reads (forms.map Form.unit) text.toList)) ∧
    ∀ offset, decode bytes = .error offset →
      IsGreatest {n | n ≤ bytes.length ∧ Extensible (bytes.take n)} offset ∧
        (offset = bytes.length ↔ StopsInside bytes) := by
  refine ⟨decode_eq_ok_iff, ?_, fun offset hoffset => ?_⟩
  · rintro forms text rfl
    rw [decode_flatMap, Utf16.reads_iff, Except.ok.injEq, ← String.toList_inj,
      String.toList_ofList]
  · rcases exists_forms bytes with hforms | ⟨forms, rest, size, rfl, hne, hbreaks, herror⟩
    · obtain ⟨text, htext⟩ := decode_eq_ok_iff.mpr hforms
      rw [htext] at hoffset
      cases hoffset
    · rw [decode_eq, units_flatMap_append, herror, Except.map, Except.error.injEq] at hoffset
      subst hoffset
      have hgreatest := hbreaks.isGreatest forms
      refine ⟨hgreatest, fun hend => ?_, fun hstops => ?_⟩
      · rw [List.length_append, Nat.add_left_cancel_iff] at hend
        subst hend
        exact hbreaks.stopsInside forms hne
      · refine Nat.le_antisymm hgreatest.1.1 (hgreatest.2 ⟨Nat.le_refl _, ?_⟩)
        rw [List.take_length]
        exact hstops.extensible

end ClassOutline.Text.ModifiedUtf8
