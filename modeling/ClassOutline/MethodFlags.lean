/-!
# Method flags

The access flags of a method are a 16-bit word of which twelve bits have a meaning. A `MethodFlags`
holds meaningful bits only; the others are dropped when one is made from a word.
-/

namespace ClassOutline

/-! ## Single flags -/

/-- The flags of a method, in the order of their bits. -/
inductive MethodFlag where
  | accPublic | accPrivate | accProtected | accStatic | accFinal | accSynchronized
  | accBridge | accVarargs | accNative | accAbstract | accStrict | accSynthetic
  deriving DecidableEq, Repr

namespace MethodFlag

def bit : MethodFlag → UInt16
  | accPublic => 0x0001
  | accPrivate => 0x0002
  | accProtected => 0x0004
  | accStatic => 0x0008
  | accFinal => 0x0010
  | accSynchronized => 0x0020
  | accBridge => 0x0040
  | accVarargs => 0x0080
  | accNative => 0x0100
  | accAbstract => 0x0400
  | accStrict => 0x0800
  | accSynthetic => 0x1000

def name : MethodFlag → String
  | accPublic => "PUBLIC"
  | accPrivate => "PRIVATE"
  | accProtected => "PROTECTED"
  | accStatic => "STATIC"
  | accFinal => "FINAL"
  | accSynchronized => "SYNCHRONIZED"
  | accBridge => "BRIDGE"
  | accVarargs => "VARARGS"
  | accNative => "NATIVE"
  | accAbstract => "ABSTRACT"
  | accStrict => "STRICT"
  | accSynthetic => "SYNTHETIC"

def all : List MethodFlag :=
  [accPublic, accPrivate, accProtected, accStatic, accFinal, accSynchronized,
    accBridge, accVarargs, accNative, accAbstract, accStrict, accSynthetic]

def mask : UInt16 :=
  all.foldl (fun bits flag => bits ||| flag.bit) 0

theorem mask_and_bit (flag : MethodFlag) : mask &&& flag.bit = flag.bit := by
  cases flag <;> decide

end MethodFlag

/-! ## Sets of flags -/

/-- A set of method flags, as a word without other bits. -/
structure MethodFlags where
  bits : UInt16
  bits_known : bits &&& MethodFlag.mask = bits
  deriving DecidableEq, Repr

namespace MethodFlags

/-- The flags of a word; bits without a meaning are dropped. -/
def truncate (bits : UInt16) : MethodFlags :=
  ⟨bits &&& MethodFlag.mask, by rw [UInt16.and_assoc, UInt16.and_self]⟩

/-- The flags of a word that has no other bits. -/
def ofBits? (bits : UInt16) : Option MethodFlags :=
  if h : bits &&& MethodFlag.mask = bits then some ⟨bits, h⟩ else none

/-- A word is that of a set of flags exactly if it has no other bits. -/
theorem ofBits?_eq_some_iff {bits : UInt16} {flags : MethodFlags} :
    ofBits? bits = some flags ↔ bits = flags.bits := by
  rw [ofBits?]
  constructor
  · intro h
    split at h
    · cases h
      rfl
    · cases h
  · rintro rfl
    rw [dif_pos flags.bits_known]

def contains (flags : MethodFlags) (flag : MethodFlag) : Bool :=
  flags.bits &&& flag.bit != 0

/-- The flags of a word are those whose bits are set in it. -/
theorem contains_truncate (bits : UInt16) (flag : MethodFlag) :
    (truncate bits).contains flag = (bits &&& flag.bit != 0) := by
  rw [contains, truncate, UInt16.and_assoc, MethodFlag.mask_and_bit]

def toList (flags : MethodFlags) : List MethodFlag :=
  MethodFlag.all.filter flags.contains

/-- Methods that are abstract or native have no code; all others do. -/
def expectsCode (flags : MethodFlags) : Bool :=
  !flags.contains .accAbstract && !flags.contains .accNative

/-- The names of the flags between bars. -/
def text (flags : MethodFlags) : String :=
  match flags.toList with
  | [] => "(empty)"
  | present => " | ".intercalate (present.map MethodFlag.name)

end MethodFlags

end ClassOutline
