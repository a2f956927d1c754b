import ClassOutline.Descriptor.Reader
import ClassOutline.Proofs.Text.Offsets

/-!
# Reading descriptors in place

The reader of descriptors takes characters off a list. The scanner reads the same descriptors in
place: it stands at a byte offset, looks at the one byte there and cuts parts out of its text from
one offset to another, which goes wrong where an offset is inside a character. A scan keeps an
account of all this (`Scan.Event`), so that it can be said of every offset that the scanner has
stood at or used. That it reads what the reader reads is shown in `InPlace`.
-/

namespace ClassOutline

open Text (byteAt? firstByte? lastByte? cut?)

/-! ## Scans -/

inductive Scan.Event where
  /-- The scanner comes to stand at an offset of its text. -/
  | stands (text : String) (offset : Nat)
  /-- The part of a text between two offsets is cut out. -/
  | cuts (text : String) (first last : Nat)
  /-- A character is reported as the one at an offset. -/
  | reports (text : String) (offset : Nat) (c : Char)
  deriving DecidableEq, Repr

inductive Scan.Halt where
  | error (error : DescriptorError)
  /-- A text is to be cut inside a character, or behind its end. -/
  | misplaced
  deriving DecidableEq, Repr

/-- How a scan ends, and what has happened until then. -/
structure Scan (α : Type) where
  result : Except Scan.Halt α
  events : List Scan.Event

namespace Scan

variable {α β : Type}

/-- The first scan, and where it has a value the second one for it. -/
protected def bind (scan : Scan α) (f : α → Scan β) : Scan β :=
  match scan.result with
  | .ok value => ⟨(f value).result, scan.events ++ (f value).events⟩
  | .error halt => ⟨.error halt, scan.events⟩

instance : Monad Scan where
  pure value := ⟨.ok value, []⟩
  bind := Scan.bind

def fail (error : DescriptorError) : Scan α := ⟨.error (.error error), []⟩

def cut (text : String) (first last : Nat) : Scan String where
  result := (cut? text first last).elim (.error .misplaced) .ok
  events := [.cuts text first last]

theorem result_bind_eq_ok_iff {scan : Scan α} {f : α → Scan β} {value : β} :
    (scan >>= f).result = .ok value ↔
      ∃ found, scan.result = .ok found ∧ (f found).result = .ok value := by
  show (Scan.bind scan f).result = .ok value ↔ _
  unfold Scan.bind
  cases scan.result <;> simp

end Scan

/-! ## The scanner -/

def BaseType.ofByte? (byte : UInt8) : Option BaseType :=
  all.find? (·.code.toUInt8 = byte)

/-- A text to be scanned, and the descriptor that it is a part of. -/
structure Scanner where
  input : String
  descriptor : String

namespace Scanner

variable (scanner : Scanner)

def peek? (position : Nat) : Option UInt8 :=
  byteAt? scanner.input position

theorem lt_of_peek? {scanner : Scanner} {position : Nat} {byte : UInt8}
    (h : scanner.peek? position = some byte) : position < scanner.input.utf8ByteSize := by
  rw [Text.utf8ByteSize_eq]
  exact (List.getElem?_eq_some_iff.mp h).1

def stand (position : Nat) : Scan Unit := ⟨.ok (), [.stands scanner.input position]⟩

def fail {α : Type} (fault : DescriptorFault) : Scan α :=
  Scan.fail ⟨fault, scanner.descriptor⟩

/-- Passes over opening brackets; gives where the scanner stands behind them, and their number. -/
def brackets (position dimensions : Nat) : Scan (Nat × Nat) :=
  if _h : scanner.peek? position = some '['.toUInt8 then do
    scanner.stand (position + 1)
    brackets (position + 1) (dimensions + 1)
  else return (position, dimensions)
termination_by scanner.input.utf8ByteSize - position
decreasing_by
  have := lt_of_peek? _h
  omega

/-- The class name behind the `L` at which the scanner stands, and where it stands afterwards. -/
def objectType (position : Nat) : Scan (ElementType × Nat) := do
  let start := position + 1
  let rest ← Scan.cut scanner.input start scanner.input.utf8ByteSize
  match firstByte? ';'.toUInt8 rest with
  | none => scanner.fail .unterminatedObject
  | some length =>
    let stop := start + length
    scanner.stand (stop + 1)
    let name ← Scan.cut scanner.input start stop
    return (.object (String.ofList (name.toList.map ElementType.dotted)), stop + 1)

/-- Ends the scan with the whole character that the scanner stands at, or NUL if there were none. -/
def invalid {α : Type} (position : Nat) : Scan α := do
  let rest ← Scan.cut scanner.input position scanner.input.utf8ByteSize
  let c := rest.toList.head?.getD '\x00'
  ⟨.error (.error ⟨.invalidCharacter c, scanner.descriptor⟩), [.reports scanner.input position c]⟩

/-- The type at which the scanner stands, and where it stands afterwards; nothing at the end of the
text. -/
def fieldType (position : Nat) : Scan (Option (FieldType × Nat)) := do
  let (position, dimensions) ← scanner.brackets position 0
  match scanner.peek? position with
  | none => if dimensions = 0 then return none else scanner.fail .missingType
  | some byte =>
    if byte = 'L'.toUInt8 then
      let (element, next) ← scanner.objectType position
      return some (⟨element, dimensions⟩, next)
    else if byte = 'V'.toUInt8 then scanner.fail .voidValue
    else
      match BaseType.ofByte? byte with
      | some type =>
        scanner.stand (position + 1)
        return some (⟨.base type, dimensions⟩, position + 1)
      | none => scanner.invalid position

/-! ## Moving forward -/

section Forward

variable {scanner : Scanner} {position next : Nat}

theorem le_of_brackets {dimensions count : Nat}
    (h : (scanner.brackets position dimensions).result = .ok (next, count)) : position ≤ next := by
  induction position, dimensions using Scanner.brackets.induct scanner with
  | case1 position dimensions hpeek ih =>
    rw [brackets, dif_pos hpeek, Scan.result_bind_eq_ok_iff] at h
    obtain ⟨-, -, h⟩ := h
    have := ih h
    omega
  | case2 position dimensions hpeek =>
    rw [brackets, dif_neg hpeek] at h
    obtain ⟨rfl, -⟩ := Prod.mk.inj (Except.ok.inj h)
    exact Nat.le_refl _

theorem lt_of_objectType {element : ElementType}
    (h : (scanner.objectType position).result = .ok (element, next)) : position < next := by
  simp only [objectType, Scan.result_bind_eq_ok_iff] at h
  obtain ⟨rest, -, h⟩ := h
  split at h
  · cases h
  · simp only [Scan.result_bind_eq_ok_iff] at h
    obtain ⟨-, -, name, -, h⟩ := h
    obtain ⟨-, rfl⟩ := Prod.mk.inj (Except.ok.inj h)
    omega

/-- Where a type is read the scanner was not at the end of its text, and stands further on. -/
theorem lt_of_fieldType {type : FieldType}
    (h : (scanner.fieldType position).result = .ok (some (type, next))) :
    position < next ∧ position < scanner.input.utf8ByteSize := by
  simp only [fieldType, Scan.result_bind_eq_ok_iff] at h
  obtain ⟨⟨start, dimensions⟩, hbrackets, h⟩ := h
  have hle := le_of_brackets hbrackets
  split at h
  · split at h <;> cases h
  · rename_i byte hpeek
    have hlt := lt_of_peek? hpeek
    split at h
    · obtain ⟨⟨element, stop⟩, hobject, h⟩ := Scan.result_bind_eq_ok_iff.mp h
      obtain ⟨-, rfl⟩ := Prod.mk.inj (Option.some.inj (Except.ok.inj h))
      have := lt_of_objectType hobject
      omega
    · split at h
      · cases h
      · split at h
        · obtain ⟨-, -, h⟩ := Scan.result_bind_eq_ok_iff.mp h
          obtain ⟨-, rfl⟩ := Prod.mk.inj (Option.some.inj (Except.ok.inj h))
          omega
        · obtain ⟨rest, -, h⟩ := Scan.result_bind_eq_ok_iff.mp h
          cases h

end Forward

/-! ## Whole descriptors -/

/-- The types from where the scanner stands to the end of its text, behind those read before, which
come in reverse. There are not more of them than bytes, for each type moves the scanner forward. -/
def fieldTypes (position : Nat) (read : List FieldType) : Scan (List FieldType) :=
  let first := scanner.fieldType position
  match _h : first.result with
  | .error halt => ⟨.error halt, first.events⟩
  | .ok none => ⟨.ok read.reverse, first.events⟩
  | .ok (some (type, next)) =>
    let later := fieldTypes next (type :: read)
    ⟨later.result, first.events ++ later.events⟩
termination_by scanner.input.utf8ByteSize - position
decreasing_by
  have := lt_of_fieldType _h
  omega

def allTypes : Scan (List FieldType) := do
  scanner.stand 0
  scanner.fieldTypes 0 []

/-- The type at which the scanner stands, where one is due, and where it stands afterwards. -/
def dueType (position : Nat) : Scan (FieldType × Nat) := do
  match ← scanner.fieldType position with
  | some found => return found
  | none => scanner.fail .missingType

def returnType (position : Nat) : Scan (ReturnType × Nat) := do
  if scanner.peek? position = some 'V'.toUInt8 then
    scanner.stand (position + 1)
    return (.void, position + 1)
  else
    let (type, next) ← scanner.dueType position
    return (.value type, next)

/-- Ends the scan with an error unless the scanner stands at the end of its text. -/
def expectEnd (position : Nat) : Scan Unit :=
  if position < scanner.input.utf8ByteSize then scanner.fail .trailing else return ()

/-- What is found at the start of the text, with the end of the text due behind it. -/
def whole {α : Type} (find : Nat → Scan (α × Nat)) : Scan α := do
  scanner.stand 0
  let (value, next) ← find 0
  scanner.expectEnd next
  return value

end Scanner

def FieldType.scanInPlace (descriptor : String) : Scan FieldType :=
  let scanner : Scanner := ⟨descriptor, descriptor⟩
  scanner.whole scanner.dueType

/-- What a method descriptor describes, its parameters between the parentheses at two offsets. -/
def MethodDescriptor.scanBetween (descriptor : String) (first last : Nat) :
    Scan MethodDescriptor := do
  let input ← Scan.cut descriptor (first + 1) last
  let parameters ← Scanner.allTypes ⟨input, descriptor⟩
  let input ← Scan.cut descriptor (last + 1) descriptor.utf8ByteSize
  let scanner : Scanner := ⟨input, descriptor⟩
  let result ← scanner.whole scanner.returnType
  return { parameters, result }

def MethodDescriptor.scanInPlace (descriptor : String) : Scan MethodDescriptor :=
  match firstByte? '('.toUInt8 descriptor, lastByte? ')'.toUInt8 descriptor with
  | some first, some last =>
    if first ≠ 0 ∨ last ≤ first then Scan.fail ⟨.unbalanced, descriptor⟩
    else scanBetween descriptor first last
  | _, _ => Scan.fail ⟨.unbalanced, descriptor⟩

end ClassOutline
