import ClassOutline.ClassFile.Summary

/-!
# Decoding outlines

The library's entry points: from the bytes of a class file, or from a stream of them, to its outline
or to the positions of its methods. Each gives the result together with the log of the walk; nothing
is decoded unless everything is.
-/

namespace ClassOutline

/-- A result and the records that were logged on the way to it. -/
structure Logged (α : Type) where
  result : Except DecodeError α
  log : Array Record

namespace Outline

/-- The outline of a class file. A complete walk ends with a record of what it found and where it
stopped. -/
def decode (bytes : List UInt8) : Logged Outline :=
  let run := ClassFile.summary.runOn bytes
  match run.result with
  | .error error => ⟨.error error, run.log⟩
  | .ok summary =>
    let methods := summary.outline.methods.length
    ⟨.ok summary.outline,
      run.log.push (.classRead summary.fields methods run.stop.offset bytes.length)⟩

theorem result_decode (bytes : List UInt8) :
    (decode bytes).result = (ClassFile.summary.runOn bytes).result.map ClassSummary.outline := by
  unfold decode
  cases h : (ClassFile.summary.runOn bytes).result <;> simp only [h, Except.map]

theorem log_decode_of_error {bytes : List UInt8} {error : DecodeError}
    (h : (ClassFile.summary.runOn bytes).result = .error error) :
    (decode bytes).log = (ClassFile.summary.runOn bytes).log := by
  simp only [decode, h]

theorem log_decode_of_ok {bytes : List UInt8} {summary : ClassSummary}
    (h : (ClassFile.summary.runOn bytes).result = .ok summary) :
    (decode bytes).log = (ClassFile.summary.runOn bytes).log.push
      (.classRead summary.fields summary.outline.methods.length
        (ClassFile.summary.runOn bytes).stop.offset bytes.length) := by
  simp only [decode, h]

end Outline

namespace Positions

def decode (bytes : List UInt8) : Logged Positions :=
  let decoded := Outline.decode bytes
  match decoded.result with
  | .error error => ⟨.error error, decoded.log⟩
  | .ok outline =>
    let positions := outline.positions
    ⟨.ok positions, decoded.log.push (.mapped outline.methods.length positions.size)⟩

theorem result_decode (bytes : List UInt8) :
    (decode bytes).result = (Outline.decode bytes).result.map Outline.positions := by
  unfold decode
  cases h : (Outline.decode bytes).result <;> simp only [h, Except.map]

/-- The positions of the methods of a class file that comes from a stream. -/
def read (steps : List ReadStep) : Logged Positions :=
  match ReadStep.readOnto [] steps with
  | .error failure => ⟨.error (.io failure), #[]⟩
  | .ok bytes => decode bytes

end Positions

end ClassOutline
