import ClassOutline.ConstantPool.Constant

/-!
# Constant pools

A constant pool is a sequence of slots that the rest of a class file refers to by index. A look-up
asks for a constant of one kind and gives its payload, or says what is wrong with the slot; a text
that a constant refers to is found by one look-up more.
-/

namespace ClassOutline

/-! ## What can be wrong -/

/-- Why a slot does not give the constant asked for. -/
inductive PoolError where
  /-- The pool has `count` slots, so `index` is none of them. -/
  | outOfBounds (index count : UInt16)
  | vacant (index : UInt16)
  | shadowed (index : UInt16)
  | unexpected (index : UInt16) (expected found : Tag)
  deriving DecidableEq, Repr

def PoolError.message : PoolError → String
  | outOfBounds index count =>
    s!"Constant pool index {index} is out of bounds (constant_pool_count is {count})"
  | vacant index => s!"Constant pool index {index} is not populated"
  | shadowed index => s!"Constant pool index {index} is unusable, it follows an 8-byte constant"
  | unexpected index expected found =>
    s!"Expected {expected.name} at constant pool index {index}, found {found.name}"

/-! ## Kinds of constants -/

/-- A kind of constants with what a look-up gives for it. -/
structure ConstantKind (α : Type) where
  tag : Tag
  payload? : Constant → Option α

namespace ConstantKind

def utf8 : ConstantKind String where
  tag := .utf8
  payload?
    | .utf8 text => some text
    | _ => none

/-- Methods of classes: the slots of the class, and of the name and type. -/
def methodRef : ConstantKind (UInt16 × UInt16) where
  tag := .methodRef
  payload?
    | .methodRef owner nameAndType => some (owner, nameAndType)
    | _ => none

/-- Methods of interfaces: the slots of the interface, and of the name and type. -/
def interfaceMethodRef : ConstantKind (UInt16 × UInt16) where
  tag := .interfaceMethodRef
  payload?
    | .interfaceMethodRef owner nameAndType => some (owner, nameAndType)
    | _ => none

def string : ConstantKind UInt16 where
  tag := .string
  payload?
    | .string text => some text
    | _ => none

/-- Names with types: the slots of the name and of the descriptor. -/
def nameAndType : ConstantKind (UInt16 × UInt16) where
  tag := .nameAndType
  payload?
    | .nameAndType name descriptor => some (name, descriptor)
    | _ => none

/-- Method handles: what the handle does, and the slot of what it does that to. -/
def methodHandle : ConstantKind (UInt8 × UInt16) where
  tag := .methodHandle
  payload?
    | .methodHandle kind reference => some (kind, reference)
    | _ => none

/-- Method types: the slot of the descriptor. -/
def methodType : ConstantKind UInt16 where
  tag := .methodType
  payload?
    | .methodType descriptor => some descriptor
    | _ => none

end ConstantKind

/-! ## Pools and look-ups -/

/-- The slots of a class file's constants, the first of them at index 0. -/
structure ConstantPool where
  slots : Array Slot
  deriving DecidableEq, Repr

namespace ConstantPool

/-- The number of slots as a 16-bit word, which is 0 again for 65536 of them. -/
def count (pool : ConstantPool) : UInt16 :=
  UInt16.ofNat pool.slots.size

def get (pool : ConstantPool) (index : UInt16) : Except PoolError Constant :=
  match pool.slots[index.toNat]? with
  | none => .error (.outOfBounds index pool.count)
  | some .vacant => .error (.vacant index)
  | some .shadowed => .error (.shadowed index)
  | some (.holds constant) => .ok constant

/-- The payload of the constant in a slot, which must be of the kind asked for. -/
def lookup {α : Type} (pool : ConstantPool) (kind : ConstantKind α) (index : UInt16) :
    Except PoolError α :=
  match pool.get index with
  | .error error => .error error
  | .ok constant =>
    match kind.payload? constant with
    | some payload => .ok payload
    | none => .error (.unexpected index kind.tag constant.tag)

def utf8 (pool : ConstantPool) (index : UInt16) : Except PoolError String :=
  pool.lookup .utf8 index

/-- The text that a string constant refers to. -/
def string (pool : ConstantPool) (index : UInt16) : Except PoolError String := do
  pool.utf8 (← pool.lookup .string index)

/-- The descriptor that a method type refers to. -/
def methodType (pool : ConstantPool) (index : UInt16) : Except PoolError String := do
  pool.utf8 (← pool.lookup .methodType index)

/-- The name and the descriptor that a constant refers to; the name is looked up first. -/
def nameAndType (pool : ConstantPool) (index : UInt16) : Except PoolError (String × String) := do
  let (name, descriptor) ← pool.lookup .nameAndType index
  return (← pool.utf8 name, ← pool.utf8 descriptor)

end ConstantPool

end ClassOutline
