/-!
# Constants

The kinds of constants a class file may hold, the constants that an outline can make use of, and the
slots they are kept in. A constant of 8 bytes takes two slots, the second of which cannot be used.
-/

namespace ClassOutline

/-! ## Tags -/

inductive Tag where
  | utf8 | integer | float | long | double | classRef | string | fieldRef | methodRef
  | interfaceMethodRef | nameAndType | methodHandle | methodType | invokeDynamic
  deriving DecidableEq, Repr

namespace Tag

/-- The byte that announces a constant of this kind. -/
def code : Tag → UInt8
  | utf8 => 1
  | integer => 3
  | float => 4
  | long => 5
  | double => 6
  | classRef => 7
  | string => 8
  | fieldRef => 9
  | methodRef => 10
  | interfaceMethodRef => 11
  | nameAndType => 12
  | methodHandle => 15
  | methodType => 16
  | invokeDynamic => 18

def name : Tag → String
  | utf8 => "Utf8"
  | integer => "Integer"
  | float => "Float"
  | long => "Long"
  | double => "Double"
  | classRef => "Class"
  | string => "String"
  | fieldRef => "FieldRef"
  | methodRef => "MethodRef"
  | interfaceMethodRef => "InterfaceMethodRef"
  | nameAndType => "NameAndType"
  | methodHandle => "MethodHandle"
  | methodType => "MethodType"
  | invokeDynamic => "InvokeDynamic"

def all : List Tag :=
  [utf8, integer, float, long, double, classRef, string, fieldRef, methodRef, interfaceMethodRef,
    nameAndType, methodHandle, methodType, invokeDynamic]

def ofCode? (code : UInt8) : Option Tag :=
  all.find? (·.code = code)

theorem ofCode?_eq_some_iff {code : UInt8} {tag : Tag} :
    ofCode? code = some tag ↔ code = tag.code := by
  constructor
  · intro h
    have := List.find?_some h
    exact Eq.symm (by simpa using this)
  · rintro rfl
    cases tag <;> decide

def isWide (tag : Tag) : Bool :=
  tag = long || tag = double

def slotCount (tag : Tag) : Nat :=
  if tag.isWide then 2 else 1

end Tag

/-! ## Constants and slots -/

/-- The constants that are kept; their numbers are slots of other constants. -/
inductive Constant where
  | utf8 (text : String)
  | methodRef (owner nameAndType : UInt16)
  | interfaceMethodRef (owner nameAndType : UInt16)
  | string (text : UInt16)
  | nameAndType (name descriptor : UInt16)
  | methodHandle (kind : UInt8) (reference : UInt16)
  | methodType (descriptor : UInt16)
  deriving DecidableEq, Repr

def Constant.tag : Constant → Tag
  | utf8 _ => .utf8
  | methodRef _ _ => .methodRef
  | interfaceMethodRef _ _ => .interfaceMethodRef
  | string _ => .string
  | nameAndType _ _ => .nameAndType
  | methodHandle _ _ => .methodHandle
  | methodType _ => .methodType

inductive Slot where
  /-- Nothing is kept here: the first slot, or a constant that is not needed. -/
  | vacant
  | holds (constant : Constant)
  /-- The second slot of an 8-byte constant. -/
  | shadowed
  deriving DecidableEq, Repr

/-- The kind that a slot belongs to; the second slot of an 8-byte constant counts as a long. -/
def Slot.tag? : Slot → Option Tag
  | vacant => none
  | holds constant => some constant.tag
  | shadowed => some .long

end ClassOutline
