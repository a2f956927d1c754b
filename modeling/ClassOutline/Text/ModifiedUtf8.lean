import ClassOutline.Text.Utf16

/-!
# Modified UTF-8

The byte form of the texts in a class file. Each UTF-16 code unit is written on its own, as one, two
or three bytes:

    00 to 7F                       7 bits
    C0 to DF, 80 to BF             11 bits
    E0 to EF, 80 to BF, 80 to BF   16 bits

so a character above U+FFFF takes six bytes. A reader accepts forms longer than needed; a writer
uses the shortest, except that it writes NUL as `C0 80` and so never writes a zero byte.
-/

namespace ClassOutline.Text.ModifiedUtf8

/-! ## Forms -/

/-- A byte that may follow the first one of a form. -/
def isContinuation (byte : UInt8) : Bool :=
  0x80 ≤ byte.toNat && byte.toNat < 0xC0

/-- The unit of a two-byte form: five bits and six bits. -/
def unitOfTwo (a b : UInt8) : UInt16 :=
  UInt16.ofNat (a.toNat % 0x20 * 0x40 + b.toNat % 0x40)

/-- The unit of a three-byte form: four bits and twice six bits. -/
def unitOfThree (a b c : UInt8) : UInt16 :=
  UInt16.ofNat (a.toNat % 0x10 * 0x1000 + b.toNat % 0x40 * 0x40 + c.toNat % 0x40)

/-! ## Reading -/

/-- Reads forms to the end of the bytes and adds their units, in reverse, to those read before.
Fails with the offset of the first byte that fits no form, which is the end of the bytes when they
stop inside a form; `offset` is where the bytes left start. -/
def unitsOnto (offset : Nat) (read : List UInt16) : List UInt8 → Except Nat (List UInt16)
  | [] => .ok read.reverse
  | a :: rest =>
    if a.toNat < 0x80 then unitsOnto (offset + 1) (a.toUInt16 :: read) rest
    else if a.toNat < 0xC0 then .error offset
    else if a.toNat < 0xE0 then
      match rest with
      | [] => .error (offset + 1)
      | b :: rest =>
        if isContinuation b then unitsOnto (offset + 2) (unitOfTwo a b :: read) rest
        else .error (offset + 1)
    else if a.toNat < 0xF0 then
      match rest with
      | [] => .error (offset + 1)
      | [b] => .error (if isContinuation b then offset + 2 else offset + 1)
      | b :: c :: rest =>
        if !isContinuation b then .error (offset + 1)
        else if isContinuation c then unitsOnto (offset + 3) (unitOfThree a b c :: read) rest
        else .error (offset + 2)
    else .error offset

def units (bytes : List UInt8) : Except Nat (List UInt16) :=
  unitsOnto 0 [] bytes

/-- Whether all bytes are ASCII characters other than NUL. -/
def isPlain (bytes : List UInt8) : Bool :=
  bytes.all fun byte => byte != 0 && byte.toNat < 0x80

/-- The text of a byte string, or the offset of its first malformed byte. Most texts are plain, and
those are not taken apart into units. -/
def decode (bytes : List UInt8) : Except Nat String :=
  if isPlain bytes then .ok (String.ofList (bytes.map fun byte => Char.ofNat byte.toNat))
  else (units bytes).map fun read => String.ofList (Utf16.decodeOnto [] read)

/-! ## Writing -/

/-- The form of a unit: the shortest one, but two bytes for zero. -/
def encodeUnit (unit : UInt16) : List UInt8 :=
  let n := unit.toNat
  if 0 < n ∧ n < 0x80 then [UInt8.ofNat n]
  else if n < 0x800 then [UInt8.ofNat (0xC0 + n / 0x40), UInt8.ofNat (0x80 + n % 0x40)]
  else
    [UInt8.ofNat (0xE0 + n / 0x1000), UInt8.ofNat (0x80 + n / 0x40 % 0x40),
      UInt8.ofNat (0x80 + n % 0x40)]

def encode (text : String) : List UInt8 :=
  (Utf16.encode text.toList).flatMap encodeUnit

example : units [0x61, 0xC3] = .error 2 ∧ units [0xE2, 0x82, 0x41] = .error 2 := ⟨rfl, rfl⟩

/-- The four-byte forms of plain UTF-8 are refused at their first byte. -/
example : units [0x61, 0xF0, 0x9F, 0x98, 0x80] = .error 1 := rfl

example : units [0x00, 0xC0, 0x80] = .ok [0, 0] := rfl

end ClassOutline.Text.ModifiedUtf8
