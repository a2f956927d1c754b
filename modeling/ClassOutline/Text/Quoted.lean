import ClassOutline.Text.Invisible

/-!
# Quoted text

The form in which messages show foreign text: a string between double quotes, a character between
single quotes. Line breaks, tabs, NUL, the backslash and the closing quote are written with a
backslash, an invisible character as its code point in hexadecimal, and all else as itself.
-/

namespace ClassOutline.Text

/-! ## Hexadecimal -/

/-- The lower-case hexadecimal digits of a number, without padding. -/
def lowerHex (n : Nat) : List Char :=
  Nat.toDigits 16 n

/-- The upper-case hexadecimal digits of a number, without padding. -/
def upperHex (n : Nat) : List Char :=
  (lowerHex n).map Char.toUpper

example : upperHex 0xCAFED00D = ['C', 'A', 'F', 'E', 'D', '0', '0', 'D'] := by decide

/-! ## Escapes -/

/-- How a character is written between two copies of `delimiter`. -/
def escape (delimiter c : Char) : List Char :=
  if c = '\x00' then ['\\', '0']
  else if c = '\t' then ['\\', 't']
  else if c = '\r' then ['\\', 'r']
  else if c = '\n' then ['\\', 'n']
  else if c = '\\' ∨ c = delimiter then ['\\', c]
  else if isInvisible c then ['\\', 'u', '\x7b'] ++ lowerHex c.toNat ++ ['\x7d']
  else [c]

def quote (text : String) : String :=
  String.ofList ('\"' :: text.toList.flatMap (escape '\"') ++ ['\"'])

def quoteChar (c : Char) : String :=
  String.ofList ('\'' :: escape '\'' c ++ ['\''])

/-- Only the delimiter's own kind of quote is escaped. -/
example : escape '\"' '\'' = ['\''] ∧ escape '\'' '\'' = ['\\', '\''] := by decide

example : escape '\"' '\u00ad' = ['\\', 'u', '\x7b', 'a', 'd', '\x7d'] := by decide

end ClassOutline.Text
