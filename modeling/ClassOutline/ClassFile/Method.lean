import ClassOutline.ClassFile.Pool
import ClassOutline.Outline.Basic

/-!
# Reading methods

A method is its flags, its name, its descriptor and its attributes. Of the attributes only Code is
looked into, and of Code only its line number tables; every other attribute is passed over by the
size that it declares. Where an attribute occurs more than once, the last one counts.
-/

namespace ClassOutline

/-- The position of a method whose code has the given line numbers. -/
def Position.ofLines (order : Int32) (lines : List UInt16) : Position :=
  match lines.min? with
  | none => .unlined order
  | some line => .ofLine (Int32.ofNat line.toNat) order

namespace ClassFile

open Decoder

/-! ## Parts of attributes -/

/-- The text at the index that comes next. -/
def indexedText (pool : ConstantPool) : Decoder String := do
  let index ← word16
  ofExcept .pool (pool.utf8 index)

/-- Passes over an attribute after its name. -/
def skipAttribute : Decoder Unit := do
  let size ← word32
  skip size.toNat

/-- The line numbers of a line number table after its name. Its declared size is not looked at, and
a count that the input cannot hold is refused before any line is read. -/
def lineNumbers : Decoder (List UInt16) := do
  let _size ← word32
  let count ← word16
  require (4 * count.toNat)
  collect (fun _ => do let _startPc ← word16; word16) count.toNat

/-! ## Methods

What is read around line numbers does not depend on how these are read. -/

section With

variable (lines : Decoder (List UInt16))

/-- One attribute of a Code attribute: a line number table, whose numbers `lines` reads, replaces
the position found so far. -/
def codeAttributeWith (pool : ConstantPool) (order : Int32) (found : Position) :
    Decoder Position := do
  let name ← indexedText pool
  if name = "LineNumberTable" then
    return .ofLines order (← lines)
  else do
    skipAttribute
    return found

/-- A Code attribute after its name. Its end follows from its contents; a declared size that says
otherwise is reported. -/
def codeWith (pool : ConstantPool) (order : Int32) : Decoder Position := do
  let declared ← word32
  let start ← position
  let _maxStack ← word16
  let _maxLocals ← word16
  let codeSize ← word32
  skip codeSize.toNat
  let handlers ← word16
  skip (8 * handlers.toNat)
  let attributes ← word16
  let found ← iterate (codeAttributeWith lines pool order) attributes.toNat (.unlined order)
  let stop ← position
  if stop - start ≠ declared.toNat then
    log (.codeLength declared (stop - start))
  return found

/-- One attribute of a method: Code replaces the position found so far. -/
def methodAttributeWith (pool : ConstantPool) (order : Int32) (signature : String)
    (found : Position) : Decoder Position := do
  let name ← indexedText pool
  if name = "Code" then
    codeWith lines pool order
  else do
    log (.skippedMethodAttribute name signature)
    skipAttribute
    return found

/-- The method with the given index in the class. -/
def methodWith (pool : ConstantPool) (index : Nat) : Decoder Method := do
  let order := Int32.ofNat index
  let flags := MethodFlags.truncate (← word16)
  let name ← indexedText pool
  let descriptor ← indexedText pool
  let signature ← ofExcept .descriptor (methodSignature name descriptor)
  let attributes ← word16
  let position ← iterate (methodAttributeWith lines pool order signature) attributes.toNat .absent
  if position = .absent ∧ flags.expectsCode then
    log (.missingCode signature)
  log (.method order signature position)
  return { order, flags, name, descriptor, signature, position }

end With

def codeAttribute : ConstantPool → Int32 → Position → Decoder Position :=
  codeAttributeWith lineNumbers

def code : ConstantPool → Int32 → Decoder Position :=
  codeWith lineNumbers

def methodAttribute : ConstantPool → Int32 → String → Position → Decoder Position :=
  methodAttributeWith lineNumbers

def method : ConstantPool → Nat → Decoder Method :=
  methodWith lineNumbers

end ClassFile

end ClassOutline
