import ClassOutline.Text.Split

/-!
# Byte offsets in texts

A place in a text can be told by the number of bytes before it, as the text is written in UTF-8.
Between characters, and only there, the text can be cut (`OnBoundary`). A character below 128 is one
byte that occurs in no other character (`mem_utf8EncodeChar_iff`), so where the byte is found, there
is the character, and the text can be cut in front of it and behind it.
-/

namespace ClassOutline.Text

/-! ## Offsets -/

def utf8 (chars : List Char) : List UInt8 :=
  chars.flatMap String.utf8EncodeChar

def width (chars : List Char) : Nat :=
  (utf8 chars).length

/-- The offset is not behind the end of the text, and not inside a character. -/
structure OnBoundary (text : String) (offset : Nat) : Prop where
  le : offset ≤ text.utf8ByteSize
  valid : String.Pos.Raw.IsValid text ⟨offset⟩

def byteAt? (text : String) (offset : Nat) : Option UInt8 :=
  (utf8 text.toList)[offset]?

def firstByte? (byte : UInt8) (text : String) : Option Nat :=
  (utf8 text.toList).findIdx? (· == byte)

def lastByte? (byte : UInt8) (text : String) : Option Nat :=
  ((utf8 text.toList).reverse.findIdx? (· == byte)).map (text.utf8ByteSize - 1 - ·)

/-- The part of a text from one offset to another, if both are offsets between characters. -/
def cut? (text : String) (first last : Nat) : Option String :=
  if h : first ≤ last ∧
      String.Pos.Raw.IsValid text ⟨first⟩ ∧ String.Pos.Raw.IsValid text ⟨last⟩ then
    some (text.extract (text.pos ⟨first⟩ h.2.1) (text.pos ⟨last⟩ h.2.2))
  else none

/-! ## Characters and bytes -/

section Bytes

variable {a c : Char} {byte : UInt8}

/-- A character of seven bits is one byte. -/
theorem utf8EncodeChar_of_lt (h : a.toNat < 128) : String.utf8EncodeChar a = [a.toUInt8] := by
  have hle : a.val.toNat ≤ 127 := Nat.le_of_lt_succ h
  simp only [String.utf8EncodeChar, hle, if_true]
  rfl

/-- No byte of a character from 128 on is below 128. -/
theorem le_of_mem_utf8EncodeChar (h : 128 ≤ c.toNat) (hbyte : byte ∈ String.utf8EncodeChar c) :
    128 ≤ byte.toNat := by
  have hlt : ¬c.val.toNat ≤ 127 := Nat.not_le_of_gt h
  simp only [String.utf8EncodeChar, hlt, if_false] at hbyte
  split at hbyte
  · simp only [List.mem_cons, List.not_mem_nil, or_false] at hbyte
    rcases hbyte with rfl | rfl <;> simp only [UInt8.toNat_ofNat'] <;> omega
  · split at hbyte
    · simp only [List.mem_cons, List.not_mem_nil, or_false] at hbyte
      rcases hbyte with rfl | rfl | rfl <;> simp only [UInt8.toNat_ofNat'] <;> omega
    · simp only [List.mem_cons, List.not_mem_nil, or_false] at hbyte
      rcases hbyte with rfl | rfl | rfl | rfl <;> simp only [UInt8.toNat_ofNat'] <;> omega

theorem toNat_toUInt8 (h : a.toNat < 128) : a.toUInt8.toNat = a.toNat := by
  show a.val.toNat % 256 = a.val.toNat
  exact Nat.mod_eq_of_lt (Nat.lt_trans h (by decide))

theorem toUInt8_inj (ha : a.toNat < 128) (hc : c.toNat < 128) (h : a.toUInt8 = c.toUInt8) :
    a = c := by
  rw [Char.ext_iff, ← UInt32.toNat_inj]
  exact (toNat_toUInt8 ha).symm.trans ((congrArg UInt8.toNat h).trans (toNat_toUInt8 hc))

/-- The byte of a character below 128 occurs in that character only. -/
theorem mem_utf8EncodeChar_iff (ha : a.toNat < 128) :
    a.toUInt8 ∈ String.utf8EncodeChar c ↔ c = a := by
  constructor
  · intro hmem
    by_cases hc : c.toNat < 128
    · rw [utf8EncodeChar_of_lt hc, List.mem_singleton] at hmem
      exact (toUInt8_inj ha hc hmem).symm
    · have hle := le_of_mem_utf8EncodeChar (Nat.le_of_not_lt hc) hmem
      rw [toNat_toUInt8 ha] at hle
      omega
  · rintro rfl
    rw [utf8EncodeChar_of_lt ha]
    exact List.mem_singleton_self _

end Bytes

/-! ## Parts of a text -/

section Parts

variable {before middle after : List Char} {text : String} {offset : Nat}

theorem utf8_append (before after : List Char) :
    utf8 (before ++ after) = utf8 before ++ utf8 after :=
  List.flatMap_append

@[simp] theorem width_nil : width [] = 0 := rfl

theorem width_append (before after : List Char) :
    width (before ++ after) = width before + width after := by
  rw [width, utf8_append, List.length_append, width, width]

theorem utf8_cons_of_lt {a : Char} (ha : a.toNat < 128) (chars : List Char) :
    utf8 (a :: chars) = a.toUInt8 :: utf8 chars := by
  rw [utf8, List.flatMap_cons, utf8EncodeChar_of_lt ha]
  rfl

theorem width_cons_of_lt {a : Char} (ha : a.toNat < 128) (chars : List Char) :
    width (a :: chars) = width chars + 1 := by
  rw [width, utf8_cons_of_lt ha, List.length_cons, width]

theorem utf8ByteSize_eq (text : String) : text.utf8ByteSize = width text.toList := by
  rw [width, ← List.size_toByteArray, utf8, ← List.utf8Encode, String.utf8Encode_toList,
    String.size_toByteArray]

theorem utf8ByteSize_ofList (chars : List Char) :
    (String.ofList chars).utf8ByteSize = width chars := by
  rw [utf8ByteSize_eq, String.toList_ofList]

theorem eq_append_ofList (h : text.toList = before ++ after) :
    text = String.ofList before ++ String.ofList after := by
  rw [← String.ofList_append, ← h, String.ofList_toList]

/-- A text can be cut behind any of its beginnings. -/
theorem onBoundary_of_append (h : text.toList = before ++ after) :
    OnBoundary text (width before) := by
  refine ⟨?_, String.Pos.Raw.isValid_iff_exists_append.mpr ⟨_, _, eq_append_ofList h, ?_⟩⟩
  · rw [utf8ByteSize_eq, h, width_append]
    omega
  · rw [String.Pos.Raw.ext_iff, String.byteIdx_rawEndPos, utf8ByteSize_ofList]

/-- An offset on a boundary has whole characters before and after it. -/
theorem OnBoundary.exists_append (h : OnBoundary text offset) :
    ∃ before after, text.toList = before ++ after ∧ offset = width before := by
  obtain ⟨first, second, rfl, hoffset⟩ := String.Pos.Raw.isValid_iff_exists_append.mp h.valid
  rw [String.Pos.Raw.ext_iff, String.byteIdx_rawEndPos, utf8ByteSize_eq] at hoffset
  exact ⟨_, _, String.toList_append, hoffset⟩

/-- Between boundaries stands what was written there. -/
theorem cut?_of_append (h : text.toList = before ++ (middle ++ after)) :
    cut? text (width before) (width before + width middle) = some (String.ofList middle) := by
  have hfirst := onBoundary_of_append h
  have hlast := onBoundary_of_append (h.trans (List.append_assoc before middle after).symm)
  rw [width_append] at hlast
  have hsize : width before = (String.ofList before).toByteArray.size := by
    rw [String.size_toByteArray, utf8ByteSize_ofList]
  have hbytes : text.toByteArray = (String.ofList before).toByteArray ++
      ((String.ofList middle).toByteArray ++ (String.ofList after).toByteArray) := by
    rw [eq_append_ofList h, String.ofList_append, String.toByteArray_append,
      String.toByteArray_append]
  -- The two texts are compared by their bytes, of which `before` has as many as it is wide.
  rw [cut?, dif_pos ⟨Nat.le_add_right _ _, hfirst.valid, hlast.valid⟩, Option.some_inj,
    ← String.toByteArray_inj, String.toByteArray_extract, String.offset_pos, String.offset_pos,
    hbytes]
  refine (ByteArray.extract_append_size_add' (i := 0) hsize).trans ?_
  refine ByteArray.extract_append_eq_left ?_
  rw [String.size_toByteArray, utf8ByteSize_ofList]

/-! ## Finding bytes -/

/-- Where a character starts stands its first byte. -/
theorem byteAt?_of_append (h : text.toList = before ++ after) :
    byteAt? text (width before) = (utf8 after).head? := by
  rw [byteAt?, h, utf8_append, width, List.getElem?_append_right (Nat.le_refl _), Nat.sub_self,
    List.head?_eq_getElem?]

variable {a : Char} (ha : a.toNat < 128)
include ha

theorem toUInt8_mem_utf8_iff {chars : List Char} : a.toUInt8 ∈ utf8 chars ↔ a ∈ chars := by
  simp only [utf8, List.mem_flatMap, mem_utf8EncodeChar_iff ha, exists_eq_right]

theorem findIdx?_eq_none {bytes : List UInt8} {chars : List Char}
    (hbytes : ∀ byte ∈ bytes, byte ∈ utf8 chars) (h : a ∉ chars) :
    bytes.findIdx? (· == a.toUInt8) = none := by
  rw [List.findIdx?_eq_none_iff]
  intro byte hbyte
  rw [beq_eq_false_iff_ne]
  rintro rfl
  exact h ((toUInt8_mem_utf8_iff ha).mp (hbytes _ hbyte))

theorem firstByte?_of_notMem (h : a ∉ text.toList) : firstByte? a.toUInt8 text = none :=
  findIdx?_eq_none ha (fun _ => id) h

/-- The first byte of a character below 128 is where the first such character is. -/
theorem firstByte?_of_append (h : text.toList = before ++ a :: after) (hbefore : a ∉ before) :
    firstByte? a.toUInt8 text = some (width before) := by
  rw [firstByte?, h, utf8_append, List.findIdx?_append, findIdx?_eq_none ha (fun _ => id) hbefore,
    utf8_cons_of_lt ha]
  simp [List.findIdx?_cons, width]

theorem lastByte?_of_notMem (h : a ∉ text.toList) : lastByte? a.toUInt8 text = none := by
  rw [lastByte?, findIdx?_eq_none ha (fun _ => List.mem_reverse.mp) h, Option.map_none]

/-- The last byte of a character below 128 is where the last such character is. -/
theorem lastByte?_of_append (h : text.toList = before ++ a :: after) (hafter : a ∉ after) :
    lastByte? a.toUInt8 text = some (width before) := by
  have hafter' : (utf8 after).reverse.findIdx? (· == a.toUInt8) = none :=
    findIdx?_eq_none ha (fun _ => List.mem_reverse.mp) hafter
  have hsize : text.utf8ByteSize - 1 - (utf8 after).length = width before := by
    rw [utf8ByteSize_eq, h, width_append, width_cons_of_lt ha, ← width]
    omega
  rw [lastByte?, h, utf8_append, utf8_cons_of_lt ha, List.reverse_append, List.reverse_cons,
    List.append_assoc, List.findIdx?_append, hafter']
  simp [List.findIdx?_cons, hsize]

theorem head?_utf8_eq_some_iff : (utf8 after).head? = some a.toUInt8 ↔ after.head? = some a := by
  cases after with
  | nil => simp [utf8]
  | cons c after =>
    have hne : String.utf8EncodeChar c ≠ [] := String.utf8EncodeChar_ne_nil
    obtain ⟨first, rest, hbytes⟩ := List.exists_cons_of_ne_nil hne
    rw [utf8, List.flatMap_cons, hbytes, List.cons_append, List.head?_cons, List.head?_cons,
      Option.some_inj, Option.some_inj]
    constructor
    · rintro rfl
      exact (mem_utf8EncodeChar_iff ha).mp (by rw [hbytes]; exact List.mem_cons_self)
    · rintro rfl
      rw [utf8EncodeChar_of_lt ha] at hbytes
      exact (List.head_eq_of_cons_eq hbytes).symm

theorem firstByte?_eq_zero_iff :
    firstByte? a.toUInt8 text = some 0 ↔ text.toList.head? = some a := by
  rw [firstByte?, ← head?_utf8_eq_some_iff ha]
  cases utf8 text.toList with
  | nil => simp
  | cons byte bytes => simp [List.findIdx?_cons]

end Parts

end ClassOutline.Text
