import ClassOutline.ConstantPool.Basic
import ClassOutline.Descriptor.Reader
import ClassOutline.Stream

/-!
# Decoding errors

Why no outline can be given for a class file, by cause. Each error has one wording, and is of one of
three kinds: the bytes are no class file, they stop too early, or they could not be read.
-/

namespace ClassOutline

inductive DecodeError where
  | io (failure : IoFailure)
  /-- The file does not start with the magic number of class files. -/
  | badMagic (found : UInt32)
  /-- The byte `code`, where the constant for slot `index` should start, announces no constant. -/
  | unknownTag (code : UInt8) (index : UInt16)
  | pool (error : PoolError)
  /-- The text for slot `index` has a malformed byte at `offset`. -/
  | malformedText (index : UInt16) (offset : Nat)
  | descriptor (error : DescriptorError)
  /-- At `offset`, `needed` bytes are due and only `remaining` are there. -/
  | truncated (offset needed remaining : Nat)
  deriving DecidableEq, Repr

/-- What an error says about the input. -/
inductive ErrorKind where
  /-- It is no well-formed class file. -/
  | format
  /-- It ends before it is complete. -/
  | truncation
  /-- It could not be read. -/
  | io
  deriving DecidableEq, Repr

namespace DecodeError

def kind : DecodeError → ErrorKind
  | io failure => if failure.kind = .unexpectedEof then .truncation else .io
  | truncated .. => .truncation
  | _ => .format

def message : DecodeError → String
  | io failure => failure.message
  | badMagic found => "Invalid magic identifier: 0x" ++ String.ofList (Text.upperHex found.toNat)
  | unknownTag code index => s!"Invalid cp info tag {code} at constant pool index {index}"
  | pool error => error.message
  | malformedText index offset =>
    s!"Malformed modified UTF-8 at byte {offset} of constant pool entry {index}"
  | descriptor error => error.message
  | truncated offset needed remaining =>
    s!"Unexpected end of class file at offset {offset}: " ++
      s!"{needed} bytes needed, {remaining} remaining"

end DecodeError

end ClassOutline
