import ClassOutline.ClassFile.Method

/-!
# Reading a class file

The walk over a whole class file, from its magic number to its last attribute. Bytes after that are
not looked at. Versions, the class's own flags and names, interfaces and fields are passed over.
-/

namespace ClassOutline

structure ClassSummary where
  fields : Nat
  outline : Outline
  deriving DecidableEq, Repr

namespace ClassFile

open Decoder

def magicNumber : UInt32 := 0xCAFEBABE

def skipField : Decoder Unit := do
  let _flags ← word16
  let _name ← word16
  let _descriptor ← word16
  let attributes ← word16
  iterate (fun _ => do let _name ← word16; skipAttribute) attributes.toNat ()

def skipClassAttribute (pool : ConstantPool) : Decoder Unit := do
  let name ← indexedText pool
  log (.skippedClassAttribute name)
  skipAttribute

/-- A whole class file, where `constants` reads the pool and `lines` the line numbers. -/
def summaryWith (constants : Decoder ConstantPool) (lines : Decoder (List UInt16)) :
    Decoder ClassSummary := do
  let magic ← word32
  if magic ≠ magicNumber then
    fail (.badMagic magic)
  let _minorVersion ← word16
  let _majorVersion ← word16
  let pool ← constants
  log (.poolRead pool.count)
  let _flags ← word16
  let _thisClass ← word16
  let _superClass ← word16
  let interfaces ← word16
  skip (2 * interfaces.toNat)
  let fields ← word16
  iterate (fun _ => skipField) fields.toNat ()
  let methodCount ← word16
  let methods ← collect (methodWith lines pool) methodCount.toNat
  let attributes ← word16
  iterate (fun _ => skipClassAttribute pool) attributes.toNat ()
  return { fields := fields.toNat, outline := ⟨methods⟩ }

def summary : Decoder ClassSummary :=
  summaryWith constantPool lineNumbers

end ClassFile

end ClassOutline
