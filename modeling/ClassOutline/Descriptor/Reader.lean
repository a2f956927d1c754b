import ClassOutline.Descriptor.Basic
import ClassOutline.Text.Quoted
import ClassOutline.Text.Split

/-!
# Reading descriptors

A field descriptor is any number of `[`, then a primitive type's letter or a class name between `L`
and `;`. A method descriptor is `(`, its parameters' field descriptors without a separator, `)`, and
`V` or one field descriptor. Class names may hold any character but `;`, parentheses included, so a
method descriptor is cut at its last `)`.
-/

namespace ClassOutline

open Text (splitFirst splitLast quote quoteChar)

/-! ## What can be wrong -/

/-- Why a text is no descriptor. -/
inductive DescriptorFault where
  /-- No opening parenthesis at the start, or no closing one. -/
  | unbalanced
  /-- A class name without its semicolon. -/
  | unterminatedObject
  /-- `V` where a value's type is due. -/
  | voidValue
  /-- A character that begins no type. -/
  | invalidCharacter (character : Char)
  /-- The end of the text where a type is due. -/
  | missingType
  /-- Text after a complete descriptor. -/
  | trailing
  deriving DecidableEq, Repr

/-- A fault, with the whole text in which it was found. -/
structure DescriptorError where
  fault : DescriptorFault
  descriptor : String
  deriving DecidableEq, Repr

/-- The wording of a fault, up to the descriptor. -/
def DescriptorFault.message : DescriptorFault → String
  | unbalanced => "Unbalanced parentheses in method descriptor"
  | unterminatedObject => "Missing ';' after object type in descriptor"
  | voidValue => "void used outside of return type position in descriptor"
  | invalidCharacter character =>
    "Invalid type character " ++ quoteChar character ++ " in descriptor"
  | missingType => "Missing type in descriptor"
  | trailing => "Trailing characters after return type in descriptor"

def DescriptorError.message (error : DescriptorError) : String :=
  error.fault.message ++ " " ++ quote error.descriptor

/-! ## One type -/

namespace ElementType

/-- A class name is written with slashes between packages. -/
def dotted (c : Char) : Char :=
  if c = '/' then '.' else c

/-- Reads one element type and returns it with the text after it. -/
def scan : List Char → Except DescriptorFault (ElementType × List Char)
  | [] => .error .missingType
  | c :: rest =>
    if c = 'L' then
      match splitFirst ';' rest with
      | some (name, rest) => .ok (object (String.ofList (name.map dotted)), rest)
      | none => .error .unterminatedObject
    else if c = 'V' then .error .voidValue
    else
      match BaseType.ofCode? c with
      | some type => .ok (base type, rest)
      | none => .error (.invalidCharacter c)

/-- An element type takes at least one character. -/
theorem length_lt_of_scan {text rest : List Char} {element : ElementType}
    (h : scan text = .ok (element, rest)) : rest.length < text.length := by
  match text with
  | [] => simp [scan] at h
  | c :: text =>
    simp only [scan] at h
    split at h
    · split at h
      · rename_i hcut
        simp only [Except.ok.injEq, Prod.mk.injEq] at h
        have := Text.length_lt_of_splitFirst hcut
        rw [← h.2, List.length_cons]
        omega
      · simp at h
    · split at h
      · simp at h
      · split at h
        · simp only [Except.ok.injEq, Prod.mk.injEq] at h
          simp [← h.2]
        · simp at h

end ElementType

namespace FieldType

/-- Reads one type and returns it with the text after it. -/
def scan (text : List Char) : Except DescriptorFault (FieldType × List Char) :=
  match ElementType.scan (text.dropWhile (· == '[')) with
  | .error fault => .error fault
  | .ok (element, rest) => .ok (⟨element, (text.takeWhile (· == '[')).length⟩, rest)

/-- A type takes at least one character, so reading types comes to an end. -/
theorem length_lt_of_scan {text rest : List Char} {type : FieldType}
    (h : scan text = .ok (type, rest)) : rest.length < text.length := by
  unfold scan at h
  split at h
  · simp at h
  · rename_i hscan
    simp only [Except.ok.injEq, Prod.mk.injEq] at h
    have := ElementType.length_lt_of_scan hscan
    have := (List.dropWhile_sublist (l := text) (· == '[')).length_le
    rw [← h.2]
    omega

/-- Reads types to the end of the text and adds them, in reverse, to those read before. -/
def scanAll (read : List FieldType) (text : List Char) : Except DescriptorFault (List FieldType) :=
  match text with
  | [] => .ok read.reverse
  | c :: text =>
    match _h : scan (c :: text) with
    | .error fault => .error fault
    | .ok (type, rest) => scanAll (type :: read) rest
termination_by text.length
decreasing_by exact length_lt_of_scan _h

def ofChars (text : List Char) : Except DescriptorFault FieldType :=
  match scan text with
  | .error fault => .error fault
  | .ok (type, []) => .ok type
  | .ok (_, _ :: _) => .error .trailing

def parse (descriptor : String) : Except DescriptorError FieldType :=
  (ofChars descriptor.toList).mapError (⟨·, descriptor⟩)

end FieldType

/-! ## Return types and methods -/

namespace ReturnType

def ofChars : List Char → Except DescriptorFault ReturnType
  | ['V'] => .ok void
  | 'V' :: _ => .error .trailing
  | text => (FieldType.ofChars text).map value

end ReturnType

namespace MethodDescriptor

/-- The parameters and the return type that the whole text describes; a fault in the parameters is
found first. -/
def ofChars : List Char → Except DescriptorFault MethodDescriptor
  | '(' :: body =>
    match splitLast ')' body with
    | none => .error .unbalanced
    | some (parameters, result) => do
      let parameters ← FieldType.scanAll [] parameters
      let result ← ReturnType.ofChars result
      return { parameters, result }
  | _ => .error .unbalanced

def parse (descriptor : String) : Except DescriptorError MethodDescriptor :=
  (ofChars descriptor.toList).mapError (⟨·, descriptor⟩)

end MethodDescriptor

def methodSignature (name descriptor : String) : Except DescriptorError String :=
  (MethodDescriptor.parse descriptor).map (·.signature name)

end ClassOutline
