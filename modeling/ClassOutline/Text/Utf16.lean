/-!
# UTF-16 code units

Text as a sequence of 16-bit code units, where a character above U+FFFF takes a high and a low
surrogate. Reading is lossy: a surrogate without its partner becomes U+FFFD, the replacement
character. Writing never produces such a surrogate.
-/

namespace ClassOutline.Text.Utf16

/-! ## Surrogates -/

def isHigh (unit : UInt16) : Bool :=
  0xD800 ≤ unit.toNat && unit.toNat < 0xDC00

def isLow (unit : UInt16) : Bool :=
  0xDC00 ≤ unit.toNat && unit.toNat < 0xE000

/-- The character above U+FFFF that a high and a low unit stand for. -/
def join (high low : UInt16) : Char :=
  Char.ofNat (0x10000 + (high.toNat - 0xD800) * 0x400 + (low.toNat - 0xDC00))

/-- The character of a unit on its own; a surrogate on its own is replaced. -/
def alone (unit : UInt16) : Char :=
  if isHigh unit || isLow unit then '\ufffd' else Char.ofNat unit.toNat

theorem not_isLow_of_isHigh {unit : UInt16} (h : isHigh unit = true) : isLow unit = false := by
  simp only [isHigh, isLow, Bool.and_eq_true, decide_eq_true_eq, Bool.and_eq_false_iff,
    decide_eq_false_iff_not] at *
  omega

/-! ## Reading and writing -/

/-- The characters of a unit sequence: a high unit directly before a low one joins it, and every
other unit stands alone. -/
def decode : List UInt16 → List Char
  | [] => []
  | [unit] => [alone unit]
  | high :: low :: rest =>
    if isHigh high && isLow low then join high low :: decode rest
    else alone high :: decode (low :: rest)

/-- `decode` in constant stack space: the characters read so far are kept in reverse. -/
def decodeOnto (read : List Char) : List UInt16 → List Char
  | [] => read.reverse
  | [unit] => (alone unit :: read).reverse
  | high :: low :: rest =>
    if isHigh high && isLow low then decodeOnto (join high low :: read) rest
    else decodeOnto (alone high :: read) (low :: rest)

/-- Reading onto characters read before gives both, in order. -/
theorem decodeOnto_eq (read : List Char) (units : List UInt16) :
    decodeOnto read units = read.reverse ++ decode units := by
  fun_induction decodeOnto read units <;> simp_all [decode]

/-- The units of a character: one up to U+FFFF, a surrogate pair above. -/
def encodeChar (c : Char) : List UInt16 :=
  if c.toNat < 0x10000 then [UInt16.ofNat c.toNat]
  else
    [UInt16.ofNat (0xD800 + (c.toNat - 0x10000) / 0x400),
      UInt16.ofNat (0xDC00 + (c.toNat - 0x10000) % 0x400)]

def encode (text : List Char) : List UInt16 :=
  text.flatMap encodeChar

example : decode (encode ['a', '😀', '\uffff']) = ['a', '😀', '\uffff'] := by decide

/-- A low unit before a high one makes no pair. -/
example : decode [0xDE00, 0xD83D] = ['\ufffd', '\ufffd'] := by decide

end ClassOutline.Text.Utf16
