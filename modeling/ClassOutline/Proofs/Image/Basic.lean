import ClassOutline.ClassFile.Summary
import ClassOutline.Proofs.Decoder.Reading

/-!
# Class images

A class file taken apart: what every part of it is, whether or not anybody looks at it, and how the
parts are written one after another (`Image.bytes`). The lengths and counts that a file declares
truly are not part of an image, since they follow from it; those that nobody compares with what
follows (`Code`'s and `LineTable`'s) are. An image need not make sense: its texts may be malformed
and its indices may lead nowhere. What it says when it makes sense is in `Meaning`.
-/

namespace ClassOutline

open Decoder (toBigEndian spell8 spell16 spell32 spell64)

namespace Image

/-! ## Counted lists -/

/-- A list that is written after its length, a number of `width` bytes. -/
structure Counted (width : Nat) (α : Type) where
  items : List α
  fits : items.length < 256 ^ width
  deriving DecidableEq, Repr

namespace Counted

variable {width : Nat} {α β : Type}

def count (list : Counted width α) : List UInt8 :=
  toBigEndian width list.items.length

def map (f : α → β) (list : Counted width α) : Counted width β :=
  ⟨list.items.map f, by simpa using list.fits⟩

/-- The same items but for the one in the given place, which is changed by `f`. -/
def modify (place : Nat) (f : α → α) (list : Counted width α) : Counted width α :=
  ⟨list.items.modify place f, by simpa using list.fits⟩

@[simp] theorem items_map (f : α → β) (list : Counted width α) :
    (list.map f).items = list.items.map f := rfl

@[simp] theorem length_count (list : Counted width α) : list.count.length = width := by
  simp [count]

end Counted

/-! ## The constant pool -/

/-- A constant, of any kind, as it is written. -/
inductive Entry where
  | utf8 (payload : Counted 2 UInt8)
  | integer (bits : UInt32)
  | float (bits : UInt32)
  | long (bits : UInt64)
  | double (bits : UInt64)
  | classRef (name : UInt16)
  | string (text : UInt16)
  | fieldRef (owner nameAndType : UInt16)
  | methodRef (owner nameAndType : UInt16)
  | interfaceMethodRef (owner nameAndType : UInt16)
  | nameAndType (name descriptor : UInt16)
  | methodHandle (kind : UInt8) (reference : UInt16)
  | methodType (descriptor : UInt16)
  | invokeDynamic (bootstrap nameAndType : UInt16)
  deriving DecidableEq, Repr

namespace Entry

def tag : Entry → Tag
  | utf8 _ => .utf8
  | integer _ => .integer
  | float _ => .float
  | long _ => .long
  | double _ => .double
  | classRef _ => .classRef
  | string _ => .string
  | fieldRef _ _ => .fieldRef
  | methodRef _ _ => .methodRef
  | interfaceMethodRef _ _ => .interfaceMethodRef
  | nameAndType _ _ => .nameAndType
  | methodHandle _ _ => .methodHandle
  | methodType _ => .methodType
  | invokeDynamic _ _ => .invokeDynamic

/-- What is written after the byte that announces the kind. -/
def payload : Entry → List UInt8
  | utf8 bytes => bytes.count ++ bytes.items
  | integer bits | float bits => spell32 bits
  | long bits | double bits => spell64 bits
  | classRef index | string index | methodType index => spell16 index
  | fieldRef first second | methodRef first second | interfaceMethodRef first second
  | nameAndType first second | invokeDynamic first second => spell16 first ++ spell16 second
  | methodHandle kind reference => spell8 kind ++ spell16 reference

def bytes (entry : Entry) : List UInt8 :=
  spell8 entry.tag.code ++ entry.payload

def slot : Entry → Slot
  | utf8 bytes =>
    match Text.ModifiedUtf8.decode bytes.items with
    | .ok text => .holds (.utf8 text)
    | .error _ => .vacant
  | string text => .holds (.string text)
  | methodRef owner member => .holds (.methodRef owner member)
  | interfaceMethodRef owner member => .holds (.interfaceMethodRef owner member)
  | nameAndType name descriptor => .holds (.nameAndType name descriptor)
  | methodHandle kind reference => .holds (.methodHandle kind reference)
  | methodType descriptor => .holds (.methodType descriptor)
  | integer _ | float _ | long _ | double _ | classRef _ | fieldRef _ _
  | invokeDynamic _ _ => .vacant

def slots (entry : Entry) : List Slot :=
  if entry.tag.isWide then [entry.slot, .shadowed] else [entry.slot]

end Entry

def slotTotal : List Entry → Nat
  | [] => 0
  | entry :: entries => entry.tag.slotCount + slotTotal entries

/-- The constants take exactly `left` slots, except that an 8-byte constant at the end may do
without its second one. -/
def Fills (left : Nat) (entries : List Entry) : Prop :=
  slotTotal entries = left ∨
    slotTotal entries = left + 1 ∧ entries.getLast?.any (·.tag.isWide) = true

instance (left : Nat) (entries : List Entry) : Decidable (Fills left entries) :=
  inferInstanceAs (Decidable (_ ∨ _))

/-- A constant pool. The count includes slot 0, which no constant takes; a count of 0 means 1. -/
structure Pool where
  count : UInt16
  entries : List Entry
  fills : Fills (max count.toNat 1 - 1) entries
  deriving DecidableEq, Repr

namespace Pool

def bytes (pool : Pool) : List UInt8 :=
  spell16 pool.count ++ pool.entries.flatMap Entry.bytes

/-- The slots from the first one on; where the last constant lacks its second slot, so does the
list. -/
def slots (pool : Pool) : List Slot :=
  (.vacant :: pool.entries.flatMap Entry.slots).take (max pool.count.toNat 1)

/-- The pool that look-ups are made in. -/
def constantPool (pool : Pool) : ConstantPool :=
  ⟨pool.slots.toArray⟩

def text? (pool : Pool) (index : UInt16) : Option String :=
  match pool.slots[index.toNat]? with
  | some (.holds (.utf8 text)) => some text
  | _ => none

end Pool

/-! ## Attributes -/

/-- An attribute that nobody looks into. -/
structure Attribute where
  name : UInt16
  payload : Counted 4 UInt8
  deriving DecidableEq, Repr

def Attribute.bytes (attr : Attribute) : List UInt8 :=
  spell16 attr.name ++ attr.payload.count ++ attr.payload.items

/-- An entry of a line number table: from where on in the code, and the line. -/
structure Line where
  startPc : UInt16
  line : UInt16
  deriving DecidableEq, Repr

def Line.bytes (entry : Line) : List UInt8 :=
  spell16 entry.startPc ++ spell16 entry.line

theorem Line.length_bytes (entry : Line) : entry.bytes.length = 4 := by
  simp [bytes]

structure LineTable where
  declared : UInt32
  lines : Counted 2 Line
  deriving DecidableEq, Repr

def LineTable.bytes (table : LineTable) : List UInt8 :=
  spell32 table.declared ++ table.lines.count ++ table.lines.items.flatMap Line.bytes

structure Handler where
  startPc : UInt16
  endPc : UInt16
  handlerPc : UInt16
  catchType : UInt16
  deriving DecidableEq, Repr

def Handler.bytes (handler : Handler) : List UInt8 :=
  spell16 handler.startPc ++ spell16 handler.endPc ++ spell16 handler.handlerPc ++
    spell16 handler.catchType

theorem Handler.length_bytes (handler : Handler) : handler.bytes.length = 8 := by
  simp [bytes]

inductive CodeAttribute where
  | lineTable (name : UInt16) (table : LineTable)
  | other (attr : Attribute)
  deriving DecidableEq, Repr

namespace CodeAttribute

def name : CodeAttribute → UInt16
  | lineTable name _ => name
  | other attr => attr.name

def bytes : CodeAttribute → List UInt8
  | lineTable name table => spell16 name ++ table.bytes
  | other attr => attr.bytes

def table? : CodeAttribute → Option LineTable
  | lineTable _ table => some table
  | other _ => none

end CodeAttribute

structure Code where
  declared : UInt32
  maxStack : UInt16
  maxLocals : UInt16
  bytecode : Counted 4 UInt8
  handlers : Counted 2 Handler
  attributes : Counted 2 CodeAttribute
  deriving DecidableEq, Repr

namespace Code

/-- What the declared length is a length of. -/
def contents (code : Code) : List UInt8 :=
  spell16 code.maxStack ++ spell16 code.maxLocals ++ code.bytecode.count ++ code.bytecode.items ++
    code.handlers.count ++ code.handlers.items.flatMap Handler.bytes ++
    code.attributes.count ++ code.attributes.items.flatMap CodeAttribute.bytes

/-- The attribute as it is written, after its name. -/
def bytes (code : Code) : List UInt8 :=
  spell32 code.declared ++ code.contents

def lastTable? (code : Code) : Option LineTable :=
  (code.attributes.items.filterMap CodeAttribute.table?).getLast?

end Code

inductive MethodAttribute where
  | code (name : UInt16) (body : Code)
  | other (attr : Attribute)
  deriving DecidableEq, Repr

namespace MethodAttribute

def name : MethodAttribute → UInt16
  | code name _ => name
  | other attr => attr.name

def bytes : MethodAttribute → List UInt8
  | code name body => spell16 name ++ body.bytes
  | other attr => attr.bytes

def code? : MethodAttribute → Option Code
  | code _ body => some body
  | other _ => none

end MethodAttribute

/-! ## Members -/

structure FieldInfo where
  flags : UInt16
  name : UInt16
  descriptor : UInt16
  attributes : Counted 2 Attribute
  deriving DecidableEq, Repr

def FieldInfo.bytes (field : FieldInfo) : List UInt8 :=
  spell16 field.flags ++ spell16 field.name ++ spell16 field.descriptor ++
    field.attributes.count ++ field.attributes.items.flatMap Attribute.bytes

structure MethodInfo where
  flags : UInt16
  name : UInt16
  descriptor : UInt16
  attributes : Counted 2 MethodAttribute
  deriving DecidableEq, Repr

namespace MethodInfo

def bytes (method : MethodInfo) : List UInt8 :=
  spell16 method.flags ++ spell16 method.name ++ spell16 method.descriptor ++
    method.attributes.count ++ method.attributes.items.flatMap MethodAttribute.bytes

def lastCode? (method : MethodInfo) : Option Code :=
  (method.attributes.items.filterMap MethodAttribute.code?).getLast?

end MethodInfo

/-! ## What kind of attribute a name makes -/

/-- A table of line numbers goes by its name, and nothing else goes by that name. -/
def CodeAttribute.Named (pool : Pool) : CodeAttribute → Prop
  | lineTable name _ => pool.text? name = some "LineNumberTable"
  | other attr => pool.text? attr.name ≠ some "LineNumberTable"

instance (pool : Pool) : (attr : CodeAttribute) → Decidable (attr.Named pool)
  | .lineTable _ _ => inferInstanceAs (Decidable (_ = _))
  | .other _ => inferInstanceAs (Decidable (_ ≠ _))

/-- Code goes by its name, and nothing else goes by that name. -/
def MethodAttribute.Named (pool : Pool) : MethodAttribute → Prop
  | code name body =>
    pool.text? name = some "Code" ∧ ∀ attr ∈ body.attributes.items, attr.Named pool
  | other attr => pool.text? attr.name ≠ some "Code"

instance (pool : Pool) : (attr : MethodAttribute) → Decidable (attr.Named pool)
  | .code _ _ => inferInstanceAs (Decidable (_ ∧ _))
  | .other _ => inferInstanceAs (Decidable (_ ≠ _))

end Image

/-! ## Whole images -/

/-- A class file after its magic number. The attributes of methods are what their names make them.
-/
structure Image where
  minorVersion : UInt16
  majorVersion : UInt16
  pool : Image.Pool
  flags : UInt16
  thisClass : UInt16
  superClass : UInt16
  interfaces : Image.Counted 2 UInt16
  fields : Image.Counted 2 Image.FieldInfo
  methods : Image.Counted 2 Image.MethodInfo
  attributes : Image.Counted 2 Image.Attribute
  named : ∀ method ∈ methods.items, ∀ attr ∈ method.attributes.items, attr.Named pool

def Image.bytes (image : Image) : List UInt8 :=
  spell32 ClassFile.magicNumber ++ spell16 image.minorVersion ++ spell16 image.majorVersion ++
    image.pool.bytes ++
    spell16 image.flags ++ spell16 image.thisClass ++ spell16 image.superClass ++
    image.interfaces.count ++ image.interfaces.items.flatMap spell16 ++
    image.fields.count ++ image.fields.items.flatMap Image.FieldInfo.bytes ++
    image.methods.count ++ image.methods.items.flatMap Image.MethodInfo.bytes ++
    image.attributes.count ++ image.attributes.items.flatMap Image.Attribute.bytes

end ClassOutline
