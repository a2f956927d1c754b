/-!
# Types and signatures

The types that a method takes and returns, and how they read in source code: an array type ends in
one pair of brackets per dimension, and a signature is the return type, the method's name and the
parameter types between parentheses.
-/

namespace ClassOutline

/-! ## Primitive types -/

/-- The primitive types, in the order of their codes. -/
inductive BaseType where
  | byte | char | double | float | int | long | short | boolean
  deriving DecidableEq, Repr

namespace BaseType

/-- The letter that stands for the type in a descriptor. -/
def code : BaseType → Char
  | byte => 'B'
  | char => 'C'
  | double => 'D'
  | float => 'F'
  | int => 'I'
  | long => 'J'
  | short => 'S'
  | boolean => 'Z'

def name : BaseType → String
  | byte => "byte"
  | char => "char"
  | double => "double"
  | float => "float"
  | int => "int"
  | long => "long"
  | short => "short"
  | boolean => "boolean"

def all : List BaseType :=
  [byte, char, double, float, int, long, short, boolean]

def ofCode? (c : Char) : Option BaseType :=
  all.find? (·.code = c)

def ofName? (name : String) : Option BaseType :=
  all.find? (·.name = name)

theorem ofCode?_eq_some_iff {c : Char} {type : BaseType} :
    ofCode? c = some type ↔ c = type.code := by
  constructor
  · intro h
    have := List.find?_some h
    simpa using Eq.symm (by simpa using this)
  · rintro rfl
    cases type <;> decide

theorem ofName?_name (type : BaseType) : ofName? type.name = some type := by
  cases type <;> decide

/-- Primitive types are told apart by their keywords. -/
theorem name_inj {first second : BaseType} (h : first.name = second.name) : first = second := by
  have hsome := ofName?_name second
  rw [← h, ofName?_name] at hsome
  exact Option.some.inj hsome

end BaseType

/-! ## Types of values -/

/-- What an array finally holds, or what a value is that is no array. -/
inductive ElementType where
  | base (type : BaseType)
  /-- A class or interface, its name with dots between packages. -/
  | object (name : String)
  deriving DecidableEq, Repr

/-- A type of values: an element type under any number of array dimensions. -/
structure FieldType where
  element : ElementType
  dimensions : Nat
  deriving DecidableEq, Repr

inductive ReturnType where
  | void
  | value (type : FieldType)
  deriving DecidableEq, Repr

structure MethodDescriptor where
  parameters : List FieldType
  result : ReturnType
  deriving DecidableEq, Repr

/-! ## Source text -/

def ElementType.text : ElementType → String
  | base type => type.name
  | object name => name

def FieldType.text (type : FieldType) : String :=
  type.element.text ++ String.join (List.replicate type.dimensions "[]")

def ReturnType.text : ReturnType → String
  | void => "void"
  | value type => type.text

def formatSignature (result name : String) (parameters : List String) : String :=
  result ++ " " ++ name ++ "(" ++ ",".intercalate parameters ++ ")"

def MethodDescriptor.signature (descriptor : MethodDescriptor) (name : String) : String :=
  formatSignature descriptor.result.text name (descriptor.parameters.map FieldType.text)

end ClassOutline
