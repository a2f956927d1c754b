/-!
# Source positions

Where the code of a method starts: the smallest source line that its line numbers name, and the
method's place among the methods of its class. A number that is not there is -1.
-/

namespace ClassOutline

/-- The texts of `words` with those of `data` between them. -/
def weave : List String → List String → String
  | [], _ => ""
  | word :: words, [] => word ++ weave words []
  | word :: words, datum :: data => word ++ datum ++ weave words data

/-- A method's first source line and its index in the class; `known` tells whether the line is one.
-/
structure Position where
  line : Int32
  order : Int32
  known : Bool
  deriving DecidableEq, Repr

namespace Position

/-- The position of a method without code. -/
def absent : Position := ⟨-1, -1, false⟩

/-- The position of a method whose code has no line numbers. -/
def unlined (order : Int32) : Position := ⟨-1, order, false⟩

/-- The position of a method whose smallest line number is `line`. -/
def ofLine (line order : Int32) : Position := ⟨line, order, true⟩

instance : Inhabited Position := ⟨absent⟩

def data (position : Position) : List String :=
  [toString position.line.toInt, toString position.order.toInt, toString position.known]

/-- The position with its three parts named. -/
def text (position : Position) : String :=
  weave ["SourcePosition\x7bmin_line=", ", order=", ", has_position=", "\x7d"] position.data

end Position

end ClassOutline
