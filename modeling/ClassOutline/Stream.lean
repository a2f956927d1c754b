/-!
# Byte streams

A stream is read in steps, each of which delivers some bytes or fails. Reading to the end puts the
delivered bytes together. A step that delivers no bytes ends the stream; an interrupted step is
tried again, which means that it is passed over; any other failure loses what was read.
-/

namespace ClassOutline

/-! ## Failures -/

inductive IoKind where
  | unexpectedEof | interrupted | other | permissionDenied | notFound | invalidData | brokenPipe
  | timedOut | wouldBlock | isDirectory | notDirectory
  deriving DecidableEq, Repr

/-- A failure to open or read something, with the words in which it was reported. -/
structure IoFailure where
  kind : IoKind
  message : String
  deriving DecidableEq, Repr

/-- The failure of a reader that was given fewer bytes than it asked for. -/
def IoFailure.endOfInput : IoFailure := ⟨.unexpectedEof, "failed to fill whole buffer"⟩

/-! ## Reading to the end -/

/-- What one attempt to read gives. -/
inductive ReadStep where
  | chunk (bytes : List UInt8)
  | failure (failure : IoFailure)
  deriving DecidableEq, Repr

namespace ReadStep

/-- All bytes up to the end of the stream, which also ends with its last step. -/
def readToEnd : List ReadStep → Except IoFailure (List UInt8)
  | [] => .ok []
  | chunk [] :: _ => .ok []
  | chunk (byte :: bytes) :: steps => (readToEnd steps).map (byte :: bytes ++ ·)
  | failure f :: steps => if f.kind = .interrupted then readToEnd steps else .error f

/-- `readToEnd` in constant stack space: the chunks read so far are kept in reverse. -/
def readOnto (read : List (List UInt8)) : List ReadStep → Except IoFailure (List UInt8)
  | [] => .ok read.reverse.flatten
  | chunk [] :: _ => .ok read.reverse.flatten
  | chunk (byte :: bytes) :: steps => readOnto ((byte :: bytes) :: read) steps
  | failure f :: steps => if f.kind = .interrupted then readOnto read steps else .error f

theorem readOnto_eq (read : List (List UInt8)) (steps : List ReadStep) :
    readOnto read steps = (readToEnd steps).map (read.reverse.flatten ++ ·) := by
  fun_induction readOnto read steps with
  | case1 => simp [readToEnd, Except.map]
  | case2 => simp [readToEnd, Except.map]
  | case3 read byte bytes steps ih =>
    rw [ih, readToEnd]
    cases readToEnd steps <;> simp [Except.map]
  | case4 read f steps h ih => rw [ih, readToEnd, if_pos h]
  | case5 read f steps h => simp [readToEnd, h, Except.map]

end ReadStep

end ClassOutline
