import ClassOutline.Descriptor.Reader

/-!
# The grammar of descriptors

Types and method descriptors as they are written (`Written`): what their characters are, what they
describe and how source code writes what they describe, each by recursion on the written form and
without a reader. Main statement: exactly the texts of written descriptors are read, each in one way
only, as what they describe (`parse_eq_ok_iff_written`).
-/

namespace ClassOutline

/-! ## Written types -/

namespace Written

/-- A class name as it is written: any characters but the one that ends it. -/
structure ClassName where
  chars : List Char
  unended : ';' ∉ chars
  deriving DecidableEq, Repr

/-- What an array type or any other type ends with. -/
inductive Element where
  | base (type : BaseType)
  | object (name : ClassName)
  deriving DecidableEq, Repr

/-- A type of values: any number of opening brackets, and what stands after them. -/
structure Field where
  dimensions : Nat
  element : Element
  deriving DecidableEq, Repr

inductive Result where
  | void
  | value (type : Field)
  deriving DecidableEq, Repr

/-! ## Their characters -/

def Element.chars : Element → List Char
  | base type => [type.code]
  | object name => 'L' :: (name.chars ++ [';'])

def Field.chars (type : Field) : List Char :=
  List.replicate type.dimensions '[' ++ type.element.chars

def Result.chars : Result → List Char
  | void => ['V']
  | value type => type.chars

/-- A method descriptor as it is written. A parenthesis in the return type would be the last one. -/
structure Descriptor where
  parameters : List Field
  result : Result
  closed : ')' ∉ result.chars
  deriving DecidableEq, Repr

def Descriptor.chars (descriptor : Descriptor) : List Char :=
  '(' :: (descriptor.parameters.flatMap Field.chars ++ ')' :: descriptor.result.chars)

def Descriptor.text (descriptor : Descriptor) : String :=
  String.ofList descriptor.chars

/-! ## What they describe -/

def ClassName.dotted (name : ClassName) : String :=
  String.ofList (name.chars.map fun c => if c = '/' then '.' else c)

def Element.type : Element → ElementType
  | base type => .base type
  | object name => .object name.dotted

def Field.type (type : Field) : FieldType :=
  ⟨type.element.type, type.dimensions⟩

def Result.type : Result → ReturnType
  | void => .void
  | value type => .value type.type

def Descriptor.described (descriptor : Descriptor) : MethodDescriptor :=
  ⟨descriptor.parameters.map Field.type, descriptor.result.type⟩

/-! ## How source code writes it -/

def Element.source : Element → String
  | base type => type.name
  | object name => name.dotted

/-- The type in source code, one pair of brackets for every dimension. -/
def Field.source (type : Field) : String :=
  type.element.source ++ String.join (List.replicate type.dimensions "[]")

def Result.source : Result → String
  | void => "void"
  | value type => type.source

def Descriptor.signature (descriptor : Descriptor) (name : String) : String :=
  descriptor.result.source ++ " " ++ name ++ "(" ++
    ",".intercalate (descriptor.parameters.map Field.source) ++ ")"

theorem Element.text_type (element : Element) : element.type.text = element.source := by
  cases element <;> rfl

theorem Field.text_type (type : Field) : type.type.text = type.source := by
  rw [FieldType.text, Field.source, Field.type, Element.text_type]

theorem Result.text_type (result : Result) : result.type.text = result.source := by
  cases result with
  | void => rfl
  | value type => exact type.text_type

theorem Descriptor.signature_described (descriptor : Descriptor) (name : String) :
    descriptor.described.signature name = descriptor.signature name := by
  have hparameters : descriptor.parameters.map (FieldType.text ∘ Field.type) =
      descriptor.parameters.map Field.source :=
    List.map_congr_left fun type _ => type.text_type
  rw [MethodDescriptor.signature, formatSignature, described, Result.text_type, List.map_map,
    hparameters, Descriptor.signature]

/-! ## Reading one type -/

/-- No type is written with one of the characters around it. -/
theorem code_ne (type : BaseType) :
    type.code ≠ 'L' ∧ type.code ≠ 'V' ∧ type.code ≠ '[' := by
  cases type <;> decide

/-- An element that is written is read, whatever stands behind it. -/
theorem Element.scan_chars_append (element : Element) (rest : List Char) :
    ElementType.scan (element.chars ++ rest) = .ok (element.type, rest) := by
  cases element with
  | base type =>
    have hcode : BaseType.ofCode? type.code = some type := BaseType.ofCode?_eq_some_iff.mpr rfl
    obtain ⟨hobject, hvoid, -⟩ := code_ne type
    simp [chars, ElementType.scan, Element.type, hobject, hvoid, hcode]
  | object name =>
    have hcut : Text.splitFirst ';' (name.chars ++ ';' :: rest) = some (name.chars, rest) :=
      Text.splitFirst_eq_some_iff.mpr ⟨rfl, name.unended⟩
    simp only [chars, List.cons_append, List.append_assoc, List.nil_append, ElementType.scan,
      if_true, hcut]
    rfl

/-- What is read of an element is one that is written. -/
theorem exists_element_of_scan {text rest : List Char} {type : ElementType}
    (h : ElementType.scan text = .ok (type, rest)) :
    ∃ element : Element, text = element.chars ++ rest ∧ type = element.type := by
  unfold ElementType.scan at h
  split at h
  · simp at h
  · rename_i c text
    split at h
    · rename_i hobject
      split at h
      · rename_i name after hcut
        obtain ⟨rfl, hname⟩ := Text.splitFirst_eq_some_iff.mp hcut
        obtain ⟨rfl, rfl⟩ := Prod.mk.inj (Except.ok.inj h)
        exact ⟨.object ⟨name, hname⟩, by simp [Element.chars, hobject], rfl⟩
      · simp at h
    · split at h
      · simp at h
      · split at h
        · rename_i base hcode
          obtain ⟨rfl, rfl⟩ := Prod.mk.inj (Except.ok.inj h)
          exact ⟨.base base, by rw [BaseType.ofCode?_eq_some_iff.mp hcode]; rfl, rfl⟩
        · simp at h

/-- A type that is written is read, whatever stands behind it. -/
theorem Field.scan_chars_append (type : Field) (rest : List Char) :
    FieldType.scan (type.chars ++ rest) = .ok (type.type, rest) := by
  have hbrackets : ∀ c ∈ List.replicate type.dimensions '[', (c == '[') = true := by simp
  have helement : (type.element.chars ++ rest).takeWhile (· == '[') = [] ∧
      (type.element.chars ++ rest).dropWhile (· == '[') = type.element.chars ++ rest := by
    cases type.element with
    | base base => simp [Element.chars, (code_ne base).2.2]
    | object name => simp [Element.chars]
  rw [chars, List.append_assoc, FieldType.scan, List.takeWhile_append_of_pos hbrackets,
    List.dropWhile_append_of_pos hbrackets, helement.1, helement.2, Element.scan_chars_append]
  simp [Field.type]

/-- What is read of a type is one that is written. -/
theorem exists_field_of_scan {text rest : List Char} {type : FieldType}
    (h : FieldType.scan text = .ok (type, rest)) :
    ∃ field : Field, text = field.chars ++ rest ∧ type = field.type := by
  unfold FieldType.scan at h
  split at h
  · simp at h
  · rename_i element after hscan
    obtain ⟨rfl, rfl⟩ := Prod.mk.inj (Except.ok.inj h)
    obtain ⟨written, hwritten, rfl⟩ := exists_element_of_scan hscan
    have hbrackets : text.takeWhile (· == '[') =
        List.replicate (text.takeWhile (· == '[')).length '[' := by
      refine List.eq_replicate_iff.mpr ⟨rfl, fun c hc => ?_⟩
      simpa using List.all_eq_true.mp List.all_takeWhile c hc
    refine ⟨⟨(text.takeWhile (· == '[')).length, written⟩, ?_, rfl⟩
    rw [Field.chars, ← hbrackets, List.append_assoc, ← hwritten, List.takeWhile_append_dropWhile]

/-! ## Reading types to the end -/

theorem scanAll_of_scan {text rest : List Char} {type : FieldType} (read : List FieldType)
    (h : FieldType.scan text = .ok (type, rest)) :
    FieldType.scanAll read text = FieldType.scanAll (type :: read) rest := by
  cases text with
  | nil => simp [FieldType.scan, ElementType.scan] at h
  | cons c text =>
    rw [FieldType.scanAll]
    split
    · rename_i hscan
      rw [h] at hscan
      cases hscan
    · rename_i hscan
      rw [h] at hscan
      obtain ⟨rfl, rfl⟩ := Prod.mk.inj (Except.ok.inj hscan)
      rfl

theorem scanAll_of_scan_error {c : Char} {text : List Char} {fault : DescriptorFault}
    (read : List FieldType) (h : FieldType.scan (c :: text) = .error fault) :
    FieldType.scanAll read (c :: text) = .error fault := by
  rw [FieldType.scanAll]
  split
  · rename_i hscan
    rw [← Except.error.inj (h.symm.trans hscan)]
  · rename_i hscan
    rw [h] at hscan
    cases hscan

/-- Types that are written one after another are read. -/
theorem scanAll_flatMap_chars (types : List Field) (read : List FieldType) :
    FieldType.scanAll read (types.flatMap Field.chars) =
      .ok (read.reverse ++ types.map Field.type) := by
  induction types generalizing read with
  | nil => simp [FieldType.scanAll]
  | cons type types ih =>
    rw [List.flatMap_cons, scanAll_of_scan read (type.scan_chars_append _), ih]
    simp

/-- What is read to the end of a text is types that are written there. -/
theorem exists_fields_of_scanAll {text : List Char} {read types : List FieldType}
    (h : FieldType.scanAll read text = .ok types) :
    ∃ fields : List Field, text = fields.flatMap Field.chars ∧
      types = read.reverse ++ fields.map Field.type := by
  induction read, text using FieldType.scanAll.induct with
  | case1 read =>
    rw [FieldType.scanAll] at h
    exact ⟨[], rfl, by simpa using (Except.ok.inj h).symm⟩
  | case2 read c text fault hscan =>
    rw [scanAll_of_scan_error read hscan] at h
    cases h
  | case3 read c text type rest hscan ih =>
    rw [scanAll_of_scan read hscan] at h
    obtain ⟨field, hfield, rfl⟩ := exists_field_of_scan hscan
    obtain ⟨fields, rfl, rfl⟩ := ih h
    exact ⟨field :: fields, by rw [hfield, List.flatMap_cons], by simp⟩

/-! ## Reading whole texts -/

/-- The texts of types are the field descriptors. -/
theorem fieldOfChars_eq_ok_iff {text : List Char} {type : FieldType} :
    FieldType.ofChars text = .ok type ↔
      ∃ field : Field, text = field.chars ∧ type = field.type := by
  constructor
  · intro h
    unfold FieldType.ofChars at h
    split at h
    · simp at h
    · rename_i hscan
      obtain rfl := Except.ok.inj h
      obtain ⟨field, hfield, rfl⟩ := exists_field_of_scan hscan
      exact ⟨field, by rw [hfield, List.append_nil], rfl⟩
    · simp at h
  · rintro ⟨field, rfl, rfl⟩
    have hscan := field.scan_chars_append []
    rw [List.append_nil] at hscan
    simp only [FieldType.ofChars, hscan]

/-- A type does not begin like the return type of a method that returns nothing. -/
theorem Field.head?_chars_ne (type : Field) : type.chars.head? ≠ some 'V' := by
  obtain ⟨dimensions, element⟩ := type
  cases dimensions with
  | zero =>
    cases element with
    | base type => simpa [chars, Element.chars] using (code_ne type).2.1
    | object name => simp [chars, Element.chars]
  | succ dimensions => simp [chars, List.replicate_succ]

theorem returnOfChars_of_head?_ne {text : List Char} (h : text.head? ≠ some 'V') :
    ReturnType.ofChars text = (FieldType.ofChars text).map .value := by
  unfold ReturnType.ofChars
  split
  · simp at h
  · simp at h
  · rfl

/-- The texts of results are the return types. -/
theorem returnOfChars_eq_ok_iff {text : List Char} {type : ReturnType} :
    ReturnType.ofChars text = .ok type ↔
      ∃ result : Result, text = result.chars ∧ type = result.type := by
  constructor
  · intro h
    unfold ReturnType.ofChars at h
    split at h
    · exact ⟨.void, rfl, (Except.ok.inj h).symm⟩
    · cases h
    · cases hfield : FieldType.ofChars text with
      | error fault => simp [hfield, Except.map] at h
      | ok read =>
        obtain rfl : .value read = type := by simpa [hfield, Except.map] using h
        obtain ⟨field, htext, rfl⟩ := fieldOfChars_eq_ok_iff.mp hfield
        exact ⟨.value field, htext, rfl⟩
  · rintro ⟨result, rfl, rfl⟩
    cases result with
    | void => rfl
    | value field =>
      have hfield := fieldOfChars_eq_ok_iff.mpr ⟨field, rfl, rfl⟩
      rw [Result.chars, returnOfChars_of_head?_ne field.head?_chars_ne, hfield, Except.map,
        Result.type]

/-- The texts of the grammar are the method descriptors. -/
theorem methodOfChars_eq_ok_iff {text : List Char} {method : MethodDescriptor} :
    MethodDescriptor.ofChars text = .ok method ↔
      ∃ descriptor : Descriptor, text = descriptor.chars ∧ method = descriptor.described := by
  constructor
  · intro h
    unfold MethodDescriptor.ofChars at h
    split at h
    · split at h
      · cases h
      · rename_i body parameters result hcut
        obtain ⟨rfl, hclosed⟩ := Text.splitLast_eq_some_iff.mp hcut
        cases hparameters : FieldType.scanAll [] parameters with
        | error fault =>
          rw [hparameters] at h
          cases h
        | ok types =>
          cases hresult : ReturnType.ofChars result with
          | error fault =>
            rw [hparameters, hresult] at h
            cases h
          | ok type =>
            rw [hparameters, hresult] at h
            obtain ⟨fields, rfl, rfl⟩ := exists_fields_of_scanAll hparameters
            obtain ⟨result, rfl, rfl⟩ := returnOfChars_eq_ok_iff.mp hresult
            exact ⟨⟨fields, result, hclosed⟩, rfl, (Except.ok.inj h).symm⟩
    · cases h
  · rintro ⟨⟨fields, result, hclosed⟩, rfl, rfl⟩
    have hcut : Text.splitLast ')' (fields.flatMap Field.chars ++ ')' :: result.chars) =
        some (fields.flatMap Field.chars, result.chars) :=
      Text.splitLast_eq_some_iff.mpr ⟨rfl, hclosed⟩
    have hresult := returnOfChars_eq_ok_iff.mpr ⟨result, rfl, rfl⟩
    simp only [Descriptor.chars, MethodDescriptor.ofChars, hcut, scanAll_flatMap_chars, hresult]
    rfl

/-! ## One way to write a text -/

theorem code_inj {first second : BaseType} (h : first.code = second.code) : first = second := by
  have hfirst : BaseType.ofCode? first.code = some first := BaseType.ofCode?_eq_some_iff.mpr rfl
  rw [h, BaseType.ofCode?_eq_some_iff.mpr rfl] at hfirst
  exact (Option.some.inj hfirst).symm

/-- An element can be written in one way only. -/
theorem Element.chars_inj {first second : Element} (h : first.chars = second.chars) :
    first = second := by
  cases first with
  | base type =>
    cases second with
    | base type' => rw [code_inj (List.head_eq_of_cons_eq h)]
    | object name => exact absurd (List.head_eq_of_cons_eq h) (code_ne type).1
  | object name =>
    cases second with
    | base type => exact absurd (List.head_eq_of_cons_eq h).symm (code_ne type).1
    | object name' =>
      obtain ⟨chars, unended⟩ := name
      obtain rfl : chars = name'.chars := List.append_cancel_right (List.tail_eq_of_cons_eq h)
      rfl

/-- Where texts begin with types, equal texts begin with equal types. Reading alone does not tell,
since names that differ may describe the same. -/
theorem Field.chars_append_inj {first second : Field} {rest rest' : List Char}
    (h : first.chars ++ rest = second.chars ++ rest') : first = second ∧ rest = rest' := by
  have hscan := first.scan_chars_append rest
  rw [h, second.scan_chars_append] at hscan
  obtain ⟨htype, rfl⟩ := Prod.mk.inj (Except.ok.inj hscan)
  refine ⟨?_, rfl⟩
  obtain ⟨dimensions, element⟩ := first
  obtain ⟨dimensions', element'⟩ := second
  obtain rfl : dimensions' = dimensions := congrArg FieldType.dimensions htype
  have hchars := List.append_cancel_left (List.append_cancel_right h)
  obtain rfl : element = element' := Element.chars_inj hchars
  rfl

example : ClassName.dotted ⟨['a', '/', 'b'], by decide⟩ =
    ClassName.dotted ⟨['a', '.', 'b'], by decide⟩ := by
  decide

theorem Field.chars_ne_nil (type : Field) : type.chars ≠ [] := by
  intro h
  have hscan := type.scan_chars_append []
  rw [h] at hscan
  cases hscan

/-- Types written one after another can be told apart. -/
theorem flatMap_chars_inj {first second : List Field}
    (h : first.flatMap Field.chars = second.flatMap Field.chars) : first = second := by
  induction first generalizing second with
  | nil =>
    cases second with
    | nil => rfl
    | cons type second =>
      rw [List.flatMap_cons] at h
      exact absurd (List.append_eq_nil_iff.mp h.symm).1 type.chars_ne_nil
  | cons type first ih =>
    cases second with
    | nil =>
      rw [List.flatMap_cons] at h
      exact absurd (List.append_eq_nil_iff.mp h).1 type.chars_ne_nil
    | cons type' second =>
      rw [List.flatMap_cons, List.flatMap_cons] at h
      obtain ⟨rfl, hrest⟩ := Field.chars_append_inj h
      rw [ih hrest]

theorem Result.chars_inj {first second : Result} (h : first.chars = second.chars) :
    first = second := by
  cases first with
  | void =>
    cases second with
    | void => rfl
    | value type => exact absurd (congrArg List.head? h.symm) type.head?_chars_ne
  | value type =>
    cases second with
    | void => exact absurd (congrArg List.head? h) type.head?_chars_ne
    | value type' =>
      have hchars : type.chars ++ [] = type'.chars ++ [] := by
        rw [List.append_nil, List.append_nil]
        exact h
      rw [(Field.chars_append_inj hchars).1]

/-- The grammar has one derivation for each of its texts. -/
theorem Descriptor.chars_inj {first second : Descriptor} (h : first.chars = second.chars) :
    first = second := by
  obtain ⟨parameters, result, closed⟩ := first
  obtain ⟨parameters', result', closed'⟩ := second
  obtain ⟨hparameters, hresult⟩ :=
    Text.append_sep_inj_of_notMem_after closed closed' (List.tail_eq_of_cons_eq h)
  obtain rfl := flatMap_chars_inj hparameters
  obtain rfl := Result.chars_inj hresult
  rfl

theorem text_eq_iff {written : Descriptor} {descriptor : String} :
    written.text = descriptor ↔ descriptor.toList = written.chars := by
  rw [Descriptor.text, ← String.toList_inj, String.toList_ofList, eq_comm]

end Written

/-! ## Descriptors and their texts -/

theorem mapError_eq_ok_iff {ε ε' α : Type} {result : Except ε α} {f : ε → ε'} {value : α} :
    result.mapError f = .ok value ↔ result = .ok value := by
  cases result with
  | ok found =>
    show (Except.ok found : Except ε' α) = .ok value ↔ _
    rw [Except.ok.injEq, Except.ok.injEq]
  | error error =>
    constructor
    · intro h
      cases h
    · intro h
      cases h

theorem MethodDescriptor.parse_eq_ok_iff_ofChars {descriptor : String} {method : MethodDescriptor} :
    parse descriptor = .ok method ↔ ofChars descriptor.toList = .ok method :=
  mapError_eq_ok_iff

theorem MethodDescriptor.parse_eq_ok_iff {descriptor : String} {method : MethodDescriptor} :
    parse descriptor = .ok method ↔
      ∃ written : Written.Descriptor, written.text = descriptor ∧ method = written.described := by
  simp only [parse_eq_ok_iff_ofChars, Written.methodOfChars_eq_ok_iff, Written.text_eq_iff]

/-- Exactly the texts of written descriptors are read, as what they describe; a text is written in
one way only; and the signature is that of the written descriptor. -/
theorem MethodDescriptor.parse_eq_ok_iff_written (descriptor : String) :
    (∀ method, parse descriptor = .ok method ↔
      ∃ written : Written.Descriptor, written.text = descriptor ∧ method = written.described) ∧
    (∀ first second : Written.Descriptor,
      first.text = descriptor → second.text = descriptor → first = second) ∧
    ∀ written : Written.Descriptor, written.text = descriptor →
      ∀ name, methodSignature name descriptor = .ok (written.signature name) := by
  refine ⟨fun method => parse_eq_ok_iff, fun first second hfirst hsecond => ?_,
    fun written hwritten name => ?_⟩
  · rw [Written.text_eq_iff] at hfirst hsecond
    exact Written.Descriptor.chars_inj (hfirst.symm.trans hsecond)
  · have hparse := parse_eq_ok_iff.mpr ⟨written, hwritten, rfl⟩
    rw [methodSignature, hparse, Except.map, written.signature_described]

end ClassOutline
