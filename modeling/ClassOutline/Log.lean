import ClassOutline.Position

/-!
# Log records

What the decoder reports while it walks through a class file. A record is kept as data; its level
and its wording, which has that data between fixed words, are functions of it.
-/

namespace ClassOutline

/-! ## Levels -/

/-- How much a record matters, the most severe level first. -/
inductive Level where
  | error | warn | info | debug | trace
  deriving DecidableEq, Repr

namespace Level

def name : Level → String
  | error => "ERROR"
  | warn => "WARN"
  | info => "INFO"
  | debug => "DEBUG"
  | trace => "TRACE"

/-- The number of levels that are more severe. -/
def rank : Level → Nat
  | error => 0
  | warn => 1
  | info => 2
  | debug => 3
  | trace => 4

end Level

/-! ## Records -/

/-- One thing that the decoder reports. -/
inductive Record where
  /-- The constant pool was read and has `count` slots. -/
  | poolRead (count : UInt16)
  /-- A Code attribute declares a length other than that of its contents. -/
  | codeLength (declared : UInt32) (consumed : Nat)
  | skippedMethodAttribute (name signature : String)
  /-- A method that should have code has none. -/
  | missingCode (signature : String)
  | method (order : Int32) (signature : String) (position : Position)
  | skippedClassAttribute (name : String)
  /-- The walk is over, at `offset` of `size` bytes. -/
  | classRead (fields methods offset size : Nat)
  /-- The methods were folded into a map. -/
  | mapped (methods signatures : Nat)
  deriving DecidableEq, Repr

namespace Record

def level : Record → Level
  | codeLength .. => .warn
  | poolRead _ | missingCode _ | classRead .. | mapped .. => .debug
  | skippedMethodAttribute .. | method .. | skippedClassAttribute _ => .trace

/-- The texts of what a record tells. -/
def data : Record → List String
  | poolRead count => [toString count]
  | codeLength declared consumed => [toString declared, toString consumed]
  | skippedMethodAttribute name signature => [name, signature]
  | missingCode signature => [signature]
  | method order signature position => [toString order.toInt, signature, position.text]
  | skippedClassAttribute name => [name]
  | classRead fields methods offset size =>
    [toString fields, toString methods, toString offset, toString size]
  | mapped methods signatures => [toString methods, toString signatures]

/-- The words before, between and after the texts of what a record tells. -/
def words : Record → List String
  | poolRead _ => ["read constant pool with constant_pool_count "]
  | codeLength .. => ["Code attribute declares ", " bytes but its contents span "]
  | skippedMethodAttribute .. => ["skipping method attribute ", " of "]
  | missingCode _ => ["method ", " is neither abstract nor native but has no Code"]
  | method .. => ["method #", " ", ": "]
  | skippedClassAttribute _ => ["skipping class attribute "]
  | classRead .. => ["read ", " fields and ", " methods, stopped at offset ", " of "]
  | mapped .. => ["", " methods mapped to ", " signatures"]

def message (record : Record) : String :=
  weave record.words record.data

def source : Record → String
  | mapped .. => "methodtable_class_file"
  | _ => "methodtable_class_file::parser"

/-- Whether the record is at the level or at a more severe one. -/
def isAtLeast (level : Level) (record : Record) : Bool :=
  record.level.rank ≤ level.rank

end Record

end ClassOutline
