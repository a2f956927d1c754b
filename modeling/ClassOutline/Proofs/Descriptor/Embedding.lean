import ClassOutline.Proofs.Descriptor.Rejection
import Mathlib.Data.List.Forall2

/-!
# Types inside method descriptors

A type by itself, a parameter and a return type are read in three ways, which cut the text, meet its
end and refuse what follows in ways of their own. Here the same text is put in each of the three
places. Between the parentheses, texts of types are read one after another as if each of them stood
alone (`scanAll_eq_ok_iff_forall₂`); behind them, a text is read as it would be alone, faults
included (`methodOfChars_of_result`). Main statement: `FieldType.parse_embedded`.
-/

namespace ClassOutline

theorem FieldType.parse_eq_ok_iff {text : String} {type : FieldType} :
    parse text = .ok type ↔ ofChars text.toList = .ok type :=
  mapError_eq_ok_iff

namespace Written

variable {text : List Char}

/-! ## Between the parentheses -/

/-- Types are read to the end exactly where the text can be cut into texts of one type each, and
these are the types. -/
theorem scanAll_eq_ok_iff_forall₂ {types : List FieldType} :
    FieldType.scanAll [] text = .ok types ↔
      ∃ texts : List (List Char), text = texts.flatten ∧
        List.Forall₂ (fun text type => FieldType.ofChars text = .ok type) texts types := by
  constructor
  · intro h
    obtain ⟨fields, rfl, rfl⟩ := exists_fields_of_scanAll h
    refine ⟨fields.map Field.chars, List.flatMap_def, ?_⟩
    rw [List.reverse_nil, List.nil_append, List.forall₂_map_left_iff, List.forall₂_map_right_iff,
      List.forall₂_same]
    intro field _
    exact fieldOfChars_eq_ok_iff.mpr ⟨field, rfl, rfl⟩
  · rintro ⟨texts, rfl, h⟩
    have hfields : ∃ fields : List Field,
        texts.flatten = fields.flatMap Field.chars ∧ types = fields.map Field.type := by
      induction h with
      | nil => exact ⟨[], rfl, rfl⟩
      | cons htype _ ih =>
        obtain ⟨field, rfl, rfl⟩ := fieldOfChars_eq_ok_iff.mp htype
        obtain ⟨fields, htexts, rfl⟩ := ih
        exact ⟨field :: fields, by rw [List.flatten_cons, htexts, List.flatMap_cons], rfl⟩
    obtain ⟨fields, hfields, rfl⟩ := hfields
    rw [hfields, scanAll_flatMap_chars, List.reverse_nil, List.nil_append]

/-- Parameters that are one type are a field descriptor of that type. -/
theorem scanAll_eq_ok_singleton_iff {type : FieldType} :
    FieldType.scanAll [] text = .ok [type] ↔ FieldType.ofChars text = .ok type := by
  rw [scanAll_eq_ok_iff_forall₂]
  constructor
  · rintro ⟨texts, rfl, h⟩
    obtain ⟨single, rest, htype, hrest, rfl⟩ := List.forall₂_cons_right_iff.mp h
    obtain rfl := List.forall₂_nil_right_iff.mp hrest
    simpa using htype
  · intro h
    exact ⟨[text], by simp, .cons h .nil⟩

/-- A method descriptor whose return type is `V`, as a closing parenthesis in the parameters is not
the last one. -/
theorem methodOfChars_of_parameters (parameters : List Char) :
    MethodDescriptor.ofChars ('(' :: (parameters ++ [')', 'V'])) =
      (FieldType.scanAll [] parameters).map fun types => ⟨types, .void⟩ := by
  have hlast : ')' ∉ ['V'] := by decide
  rw [methodOfChars_of_last hlast]
  cases FieldType.scanAll [] parameters <;> rfl

/-! ## Behind the parentheses -/

/-- A method descriptor without parameters, whose return type has no parenthesis that would be the
last one and is no `V`. -/
theorem methodOfChars_of_result (last : ')' ∉ text) (value : text.head? ≠ some 'V') :
    MethodDescriptor.ofChars ('(' :: ')' :: text) =
      (FieldType.ofChars text).map fun type => ⟨[], .value type⟩ := by
  have htext : '(' :: ')' :: text = '(' :: ([] ++ ')' :: text) := rfl
  rw [htext, methodOfChars_of_last last, FieldType.scanAll, returnOfChars_of_head?_ne value]
  cases FieldType.ofChars text <;> rfl

end Written

/-! ## Descriptors -/

/-- A text is a type by itself exactly if it is the one parameter between the parentheses of a
method descriptor, and then the same type. Behind the parentheses of a method descriptor, unless it
has a parenthesis that would be the last one or begins with `V`, a text is read as it is by itself:
as the same type, or with the same fault. -/
theorem FieldType.parse_embedded (text : String) :
    (∀ type, parse text = .ok type ↔
      MethodDescriptor.parse ("(" ++ text ++ ")V") = .ok ⟨[type], .void⟩) ∧
    (')' ∉ text.toList → text.toList.head? ≠ some 'V' →
      (∃ type, parse text = .ok type ∧
        MethodDescriptor.parse ("()" ++ text) = .ok ⟨[], .value type⟩) ∨
      ∃ fault, parse text = .error ⟨fault, text⟩ ∧
        MethodDescriptor.parse ("()" ++ text) = .error ⟨fault, "()" ++ text⟩) := by
  constructor
  · intro type
    have htext : ("(" ++ text ++ ")V").toList = '(' :: (text.toList ++ [')', 'V']) := by
      simp
    rw [parse_eq_ok_iff, MethodDescriptor.parse_eq_ok_iff_ofChars, htext,
      Written.methodOfChars_of_parameters, ← Written.scanAll_eq_ok_singleton_iff, map_eq_ok_iff]
    simp
  · intro last value
    have htext : ("()" ++ text).toList = '(' :: ')' :: text.toList := by
      simp
    rw [parse, MethodDescriptor.parse, htext, Written.methodOfChars_of_result last value]
    cases FieldType.ofChars text.toList with
    | ok type => exact .inl ⟨type, rfl, rfl⟩
    | error fault => exact .inr ⟨fault, rfl, rfl⟩

example : FieldType.parse "V" = .error ⟨.voidValue, "V"⟩ ∧
    MethodDescriptor.parse "()V" = .ok ⟨[], .void⟩ := by
  constructor <;> cbv

end ClassOutline
