import ClassOutline.Proofs.Image.Determination
import ClassOutline.Proofs.Image.Signatures

/-!
# What stands in the entries of an outline

A method of a decoded outline stands in the place that its order tells, its descriptor describes
something and its signature is the one that belongs to it, and its position has one of three forms
(`Method.Sound`). Its numbers are those of the class file, although they are of another width there
(`Method.Exact`). Main statement: this is so for all methods of what is decoded, and in the map of
positions no two signatures have the same place (`Outline.entries_of_decode`).
-/

namespace ClassOutline

/-! ## Positions -/

/-- The positions that the method in place `index` of its class can have: none, its place alone, or
its place and a line number of 16 bits. -/
inductive Position.Allowed (index : Nat) : Position → Prop
  | absent : Allowed index ⟨-1, -1, false⟩
  | unlined {order : Int32} (place : order.toInt = index) : Allowed index ⟨-1, order, false⟩
  | lined {line order : Int32} (nonneg : 0 ≤ line.toInt) (small : line.toInt ≤ 65535)
      (place : order.toInt = index) : Allowed index ⟨line, order, true⟩

namespace Position.Allowed

variable {index : Nat} {position : Position}

/-- A position tells a line exactly if that is not negative. -/
theorem known_iff (h : Allowed index position) :
    position.known = true ↔ 0 ≤ position.line.toInt := by
  cases h with
  | absent => decide
  | unlined place => simp only [Bool.false_eq_true, false_iff]; decide
  | lined nonneg small place => simp only [nonneg]

/-- A place that is one is the method's own. -/
theorem order_eq (h : Allowed index position) (nonneg : 0 ≤ position.order.toInt) :
    position.order.toInt = index := by
  cases h with
  | absent => exact absurd nonneg (by decide)
  | unlined place => exact place
  | lined nonneg small place => exact place

/-- A position without a place is none at all. -/
theorem order_eq_neg_one_iff (h : Allowed index position) :
    position.order.toInt = -1 ↔ position = .absent := by
  constructor
  · intro horder
    cases h with
    | absent => rfl
    | unlined place => rw [place] at horder; omega
    | lined nonneg small place => rw [place] at horder; omega
  · rintro rfl
    decide

end Position.Allowed

/-- A line number is the same number in 32 bits. -/
theorem toInt_ofNat_toNat (line : UInt16) : (Int32.ofNat line.toNat).toInt = line.toNat := by
  have hlt := line.toNat_lt
  exact Int32.toInt_ofNat_of_lt (by omega)

namespace Position

theorem order_ofLines (order : Int32) (lines : List UInt16) :
    (ofLines order lines).order = order := by
  unfold ofLines
  cases lines.min? <;> rfl

theorem toInt_line_ofLines (order : Int32) (lines : List UInt16) :
    (ofLines order lines).line.toInt =
      (lines.min?.map fun line => (line.toNat : Int)).getD (-1) := by
  unfold ofLines
  cases lines.min? with
  | none => rfl
  | some line => exact toInt_ofNat_toNat line

theorem allowed_ofLines {index : Nat} {order : Int32} (place : order.toInt = index)
    (lines : List UInt16) : (ofLines order lines).Allowed index := by
  unfold ofLines
  cases lines.min? with
  | none => exact .unlined place
  | some line =>
    have hline := toInt_ofNat_toNat line
    have hlt := line.toNat_lt
    exact .lined (by omega) (by omega) place

end Position

/-! ## Methods -/

/-- What holds of the method in place `index` of an outline: it knows its place, its descriptor
describes something, its signature is made of its own name and descriptor, and its position is one
that a method in that place can have. -/
structure Method.Sound (index : Nat) (method : Method) : Prop where
  order : method.order.toInt = index
  described : ∃ described, MethodDescriptor.parse method.descriptor = .ok described
  signature : methodSignature method.name method.descriptor = .ok method.signature
  position : method.position.Allowed index

/-- The numbers of a method are those of the class file: the index of the method there, the least of
the line numbers that count, and the index once more if there is code. -/
structure Method.Exact (index : Nat) (info : Image.MethodInfo) (method : Method) : Prop where
  order : method.order.toInt = index
  line : method.position.line.toInt = (info.lines.min?.map fun line => (line.toNat : Int)).getD (-1)
  place : method.position.order.toInt = if info.HasCode then (index : Int) else -1

namespace Image

namespace MethodInfo

theorem lines_eq_nil_of_not_hasCode {info : MethodInfo} (h : ¬info.HasCode) : info.lines = [] := by
  rw [lines, lastCode?_eq_none_iff.mpr h, Option.bind_none]

variable {index : Nat} (small : index < 2 ^ 31) (info : MethodInfo)
include small

theorem allowed_position : (info.position (Int32.ofNat index)).Allowed index := by
  by_cases hcode : info.HasCode
  · rw [position_eq_of_hasCode hcode]
    exact Position.allowed_ofLines (Int32.toInt_ofNat_of_lt small) info.lines
  · rw [position_eq_of_not_hasCode hcode]
    exact .absent

/-- The numbers of a method are those of the class file. -/
theorem exact_method (pool : Pool) : (info.method pool index).Exact index info := by
  have hplace : (Int32.ofNat index).toInt = index := Int32.toInt_ofNat_of_lt small
  by_cases hcode : info.HasCode
  · have hposition := position_eq_of_hasCode hcode (Int32.ofNat index)
    refine ⟨hplace, ?_, ?_⟩
    · rw [method, hposition, Position.toInt_line_ofLines]
    · rw [method, hposition, Position.order_ofLines, hplace, if_pos hcode]
  · have hposition := position_eq_of_not_hasCode hcode (Int32.ofNat index)
    refine ⟨hplace, ?_, ?_⟩
    · rw [method, hposition, lines_eq_nil_of_not_hasCode hcode]
      rfl
    · rw [method, hposition, if_neg hcode]
      rfl

end MethodInfo

theorem index_lt {image : Image} {index : Nat} {info : MethodInfo}
    (h : image.methods.items[index]? = some info) : index < 2 ^ 31 := by
  obtain ⟨hindex, -⟩ := List.getElem?_eq_some_iff.mp h
  have hfits := image.methods.fits
  omega

theorem getElem?_methods_outline (image : Image) (index : Nat) :
    image.outline.methods[index]? =
      image.methods.items[index]?.map (MethodInfo.method image.pool index) := by
  rw [outline, List.getElem?_map, List.getElem?_zipIdx, Option.map_map, Nat.zero_add]
  rfl

end Image

/-! ## Decoded outlines -/

namespace Outline

variable {bytes : List UInt8} {outline : Outline}

/-- The methods that are decoded make sense. -/
theorem sound_of_decode (hdecode : (decode bytes).result = .ok outline) {index : Nat}
    {method : Method} (h : outline.methods[index]? = some method) : method.Sound index := by
  have hmem : method ∈ outline.methods := List.mem_of_getElem? h
  have hdescribed := exists_parse_of_mem hdecode hmem
  have hsignature := methodSignature_of_mem hdecode hmem
  obtain ⟨image, rest, -, -, rfl⟩ := Image.exists_valid_of_decode hdecode
  rw [Image.getElem?_methods_outline, Option.map_eq_some_iff] at h
  obtain ⟨info, hinfo, rfl⟩ := h
  have hsmall := Image.index_lt hinfo
  exact ⟨Int32.toInt_ofNat_of_lt hsmall, hdescribed, hsignature, info.allowed_position hsmall⟩

theorem exact_of_decode (hdecode : (decode bytes).result = .ok outline) :
    ∃ (image : Image) (rest : List UInt8), bytes = image.bytes ++ rest ∧
      outline.methods.length = image.methods.items.length ∧
      ∀ (index : Nat) (info : Image.MethodInfo) (method : Method),
        image.methods.items[index]? = some info →
        outline.methods[index]? = some method → method.Exact index info := by
  obtain ⟨image, rest, hbytes, -, rfl⟩ := Image.exists_valid_of_decode hdecode
  refine ⟨image, rest, hbytes, by simp [Image.outline], ?_⟩
  intro index info method hinfo hmethod
  rw [Image.getElem?_methods_outline, hinfo, Option.map_some] at hmethod
  obtain rfl := Option.some.inj hmethod
  exact info.exact_method (Image.index_lt hinfo) image.pool

/-- A place in the map is that of one method, so one signature only can have it. -/
theorem signature_eq_of_order_eq (hdecode : (decode bytes).result = .ok outline)
    {signature signature' : String} {position position' : Position}
    (h : outline.positions[signature]? = some position)
    (h' : outline.positions[signature']? = some position')
    (nonneg : 0 ≤ position.order.toInt) (same : position.order = position'.order) :
    signature = signature' := by
  obtain ⟨index, method, hmethod, rfl, rfl⟩ := exists_method_of_getElem?_positions h
  obtain ⟨index', method', hmethod', rfl, rfl⟩ := exists_method_of_getElem?_positions h'
  have horder := (sound_of_decode hdecode hmethod).position.order_eq nonneg
  rw [same] at horder nonneg
  have horder' := (sound_of_decode hdecode hmethod').position.order_eq nonneg
  have hindex : index = index' := by omega
  subst hindex
  rw [hmethod] at hmethod'
  rw [Option.some.inj hmethod']

/-- Of whatever is decoded: each method is sound in its place, and so its position is known exactly
if the line is one, and has no place exactly if it is the position of a method without code; no
number of the class file is changed by its new width; and in the map of positions, signatures with
the same place are the same. -/
theorem entries_of_decode (hdecode : (decode bytes).result = .ok outline) :
    (∀ (index : Nat) (method : Method), outline.methods[index]? = some method →
      method.Sound index) ∧
    (∀ method ∈ outline.methods,
      (method.position.known = true ↔ 0 ≤ method.position.line.toInt) ∧
      (method.position.order.toInt = -1 ↔ method.position = .absent)) ∧
    (∃ (image : Image) (rest : List UInt8), bytes = image.bytes ++ rest ∧
      outline.methods.length = image.methods.items.length ∧
      ∀ (index : Nat) (info : Image.MethodInfo) (method : Method),
        image.methods.items[index]? = some info →
        outline.methods[index]? = some method → method.Exact index info) ∧
    (Positions.decode bytes).result = .ok outline.positions ∧
    ∀ (signature signature' : String) (position position' : Position),
      outline.positions[signature]? = some position →
      outline.positions[signature']? = some position' →
      0 ≤ position.order.toInt → position.order = position'.order → signature = signature' := by
  refine ⟨fun index method h => sound_of_decode hdecode h, ?_, exact_of_decode hdecode, ?_, ?_⟩
  · intro method hmem
    obtain ⟨index, hindex⟩ := List.mem_iff_getElem?.mp hmem
    have hallowed := (sound_of_decode hdecode hindex).position
    exact ⟨hallowed.known_iff, hallowed.order_eq_neg_one_iff⟩
  · rw [Positions.result_decode, hdecode, Except.map]
  · intro signature signature' position position' h h' nonneg same
    exact signature_eq_of_order_eq hdecode h h' nonneg same

/-- A class file with three methods: two of one signature, the first without code, the second with
code but no lines, and one with the lines 65535 and 300. -/
def threeMethods : List UInt8 :=
  [0xCA, 0xFE, 0xBA, 0xBE, 0, 0, 0, 0x34, 0, 6,
    1, 0, 1, 0x66, 1, 0, 3, 0x28, 0x29, 0x56, 1, 0, 4, 0x43, 0x6F, 0x64, 0x65,
    1, 0, 15, 0x4C, 0x69, 0x6E, 0x65, 0x4E, 0x75, 0x6D, 0x62, 0x65, 0x72, 0x54, 0x61, 0x62, 0x6C,
    0x65, 1, 0, 1, 0x67,
    0, 0, 0, 0, 0, 0, 0, 0, 0, 0, 0, 3,
    4, 1, 0, 1, 0, 2, 0, 0,
    0, 1, 0, 1, 0, 2, 0, 1, 0, 3, 0, 0, 0, 12, 0, 1, 0, 1, 0, 0, 0, 0, 0, 0, 0, 0,
    0, 1, 0, 5, 0, 2, 0, 1, 0, 3, 0, 0, 0, 28, 0, 1, 0, 1, 0, 0, 0, 0, 0, 0, 0, 1,
    0, 4, 0, 0, 0, 10, 0, 2, 0, 0, 0xFF, 0xFF, 0, 4, 1, 44,
    0, 0]

def threeMethodsOutline : Outline where
  methods :=
    [{ order := 0, flags := .truncate 0x401, name := "f", descriptor := "()V",
       signature := "void f()", position := .absent },
      { order := 1, flags := .truncate 1, name := "f", descriptor := "()V",
        signature := "void f()", position := .unlined 1 },
      { order := 2, flags := .truncate 1, name := "g", descriptor := "()V",
        signature := "void g()", position := .ofLine 300 2 }]

theorem entries_of_decode_threeMethods :
    (decode threeMethods).result = .ok threeMethodsOutline ∧
      (∀ (index : Nat) (method : Method), threeMethodsOutline.methods[index]? = some method →
        method.Sound index) ∧
      (Positions.decode threeMethods).result = .ok threeMethodsOutline.positions := by
  have hdecode : (decode threeMethods).result = .ok threeMethodsOutline := by decide +kernel
  obtain ⟨hsound, -, -, hpositions, -⟩ := entries_of_decode hdecode
  exact ⟨hdecode, hsound, hpositions⟩

end Outline

end ClassOutline
