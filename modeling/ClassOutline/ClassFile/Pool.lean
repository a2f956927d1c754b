import ClassOutline.Decoder.Run
import ClassOutline.Text.ModifiedUtf8

/-!
# Reading the constant pool

A constant is a byte that announces its kind and a payload of that kind's size; only texts have a
size of their own. The pool's count is one more than the number of slots that its constants take,
except that an 8-byte constant may start in the last slot.
-/

namespace ClassOutline.ClassFile

open Decoder
open Text (ModifiedUtf8.decode)

/-- Passes over a payload that is not needed. -/
def unneeded (size : Nat) : Decoder Slot := do
  skip size
  return .vacant

/-- The text constant for a slot: its size in two bytes, and that many bytes. -/
def text (index : UInt16) : Decoder Slot := do
  let size ← word16
  let bytes ← bytes size.toNat
  let text ← ofExcept (.malformedText index) (ModifiedUtf8.decode bytes)
  return .holds (.utf8 text)

def payload (index : UInt16) : Tag → Decoder Slot
  | .utf8 => text index
  | .methodRef => return .holds (.methodRef (← word16) (← word16))
  | .interfaceMethodRef => return .holds (.interfaceMethodRef (← word16) (← word16))
  | .string => return .holds (.string (← word16))
  | .nameAndType => return .holds (.nameAndType (← word16) (← word16))
  | .methodHandle => return .holds (.methodHandle (← word8) (← word16))
  | .methodType => return .holds (.methodType (← word16))
  | .classRef => unneeded 2
  | .fieldRef | .integer | .float | .invokeDynamic => unneeded 4
  | .long | .double => unneeded 8

/-- Reads constants until the given number of slots is taken, onto the slots taken before. -/
def slotsOnto : Nat → Array Slot → Decoder (Array Slot)
  | 0, slots => return slots
  | left + 1, slots => do
    let index := UInt16.ofNat slots.size
    let code ← word8
    match Tag.ofCode? code with
    | none => fail (.unknownTag code index)
    | some tag =>
      let slot ← payload index tag
      if tag.isWide then
        match left with
        | 0 => return slots.push slot
        | left + 1 => slotsOnto left ((slots.push slot).push .shadowed)
      else slotsOnto left (slots.push slot)

/-- The constant pool. Every constant takes at least one byte, so a count that the input cannot hold
is refused before any constant is read. -/
def constantPool : Decoder ConstantPool := do
  let count ← word16
  let constants := count.toNat - 1
  require constants
  let slots ← slotsOnto constants #[.vacant]
  return ⟨slots⟩

end ClassOutline.ClassFile
