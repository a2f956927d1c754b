import ClassOutline.Outline.Basic

/-!
# Listings

The printed form of a class's positions: a line with the file's path, then a line per signature with
its source line, or a dash where there is none. Lines are ordered by the methods' place in the
class, and methods without a place, which come first, by signature.
-/

namespace ClassOutline

abbrev Listing.Entry := String × Position

namespace Listing

/-- Entries are ordered by the method's place in the class, then by signature. -/
def order : Entry → Entry → Ordering :=
  compareLex (compareOn fun entry => entry.2.order) (compareOn Prod.fst)

def sort (entries : List Entry) : List Entry :=
  entries.mergeSort fun first second => (order first second).isLE

/-- The text with blanks in front of it that make it at least `width` characters long. -/
def padLeft (width : Nat) (text : String) : String :=
  "".pushn ' ' (width - text.length) ++ text

def lineText (position : Position) : String :=
  if position.known then toString position.line.toInt else "-"

def lineOf (entry : Entry) : String :=
  "    " ++ padLeft 5 (lineText entry.2) ++ "  " ++ entry.1

/-- The lines of a file's block, without their ends. -/
def lines (path : String) (entries : List Entry) : List String :=
  (path ++ ":") :: (sort entries).map lineOf

def block (path : String) (entries : List Entry) : String :=
  String.join ((lines path entries).map (· ++ "\n"))

end Listing

end ClassOutline
