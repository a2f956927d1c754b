import ClassOutline.MethodFlags
import ClassOutline.Position
import Std.Data.TreeMap

/-!
# Outlines

The outline of a class is the list of its methods in the order of their declaration. Folded by
signature it is a map to positions, in which a later method replaces an earlier one with the same
signature. Main statements: the map and the search by signature agree (`getElem?_positions`), and
the map of a longer list overrides that of a shorter one (`getElem?_positions_append`).
-/

namespace ClassOutline

structure Method where
  order : Int32
  flags : MethodFlags
  name : String
  descriptor : String
  signature : String
  position : Position
  deriving DecidableEq, Repr

/-- The methods of a class, in the order of their declaration. -/
structure Outline where
  methods : List Method
  deriving DecidableEq, Repr

/-- Positions by signature, in ascending order of signatures. -/
abbrev Positions := Std.TreeMap String Position

namespace Outline

/-- The position of every signature; a later method replaces an earlier one. -/
def positions (outline : Outline) : Positions :=
  outline.methods.foldl (fun map method => map.insert method.signature method.position) ∅

def find? (outline : Outline) (signature : String) : Option Method :=
  outline.methods.reverse.find? (·.signature = signature)

/-! ## The map and the search -/

private theorem getElem?_foldl_insert (methods : List Method) (map : Positions)
    (signature : String) :
    (methods.foldl (fun map method => map.insert method.signature method.position) map)[signature]?
      = ((methods.reverse.find? (·.signature = signature)).map Method.position).or
          map[signature]? := by
  induction methods generalizing map with
  | nil => simp
  | cons method methods ih =>
    rw [List.foldl_cons, ih, List.reverse_cons, List.find?_append, Std.TreeMap.getElem?_insert]
    cases methods.reverse.find? (·.signature = signature) with
    | some last => simp
    | none =>
      by_cases h : method.signature = signature
      · simp [h]
      · simp [h]

/-- The map has, for every signature, the position of the last method declared with it. -/
theorem getElem?_positions (outline : Outline) (signature : String) :
    outline.positions[signature]? = (outline.find? signature).map Method.position := by
  simp [positions, find?, getElem?_foldl_insert]

/-- Where methods are declared after others, theirs are the positions that count. -/
theorem getElem?_positions_append (first second : List Method) (signature : String) :
    (Outline.mk (first ++ second)).positions[signature]? =
      (Outline.mk second).positions[signature]?.or (Outline.mk first).positions[signature]? := by
  simp only [getElem?_positions, find?, List.reverse_append, List.find?_append]
  cases second.reverse.find? (·.signature = signature) <;> simp

end Outline

end ClassOutline
