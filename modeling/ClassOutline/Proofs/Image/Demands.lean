import ClassOutline.Proofs.Decoder.Unguarded
import ClassOutline.Proofs.Image.Meaning

/-!
# Counts that are checked ahead

The walk over a class file refuses the counts of constants and of line numbers that its input cannot
hold, before it reads what is counted. `ClassFile.summaryWith` is that walk with these two parts
left open; with parts that do not check ahead it is the walk without demands
(`ClassFile.unguarded_summary`). It decodes the same class files: what it has taken is an image, and
the walk with the checks succeeds on an image whatever follows it. Main statement: the checks change
nothing but the errors of class files that are too short (`Outline.result_decode_unguarded`).
-/

namespace ClassOutline

namespace ClassFile

open Decoder

/-! ## The two checks -/

def unguardedConstantPool : Decoder ConstantPool := do
  let count ← word16
  let slots ← slotsOnto (count.toNat - 1) #[.vacant]
  return ⟨slots⟩

def unguardedLineNumbers : Decoder (List UInt16) := do
  let _size ← word32
  let count ← word16
  collect (fun _ => do let _startPc ← word16; word16) count.toNat

theorem unguarded_payload (index : UInt16) (tag : Tag) :
    (payload index tag).unguarded = payload index tag := by
  cases tag with
  | utf8 => simp [payload, text]
  | classRef | fieldRef | integer | float | invokeDynamic | long | double =>
    simp [payload, unneeded]
  | _ => simp [payload]

/-- Constants are read without checking ahead. -/
theorem unguarded_slotsOnto (left : Nat) (slots : Array Slot) :
    (slotsOnto left slots).unguarded = slotsOnto left slots := by
  -- a constant leaves one or two slots fewer, so the induction is over all smaller numbers
  induction left using Nat.strongRecOn generalizing slots with
  | ind left ih =>
    obtain _ | left := left
    · rfl
    rw [slotsOnto, unguarded_bind, unguarded_word8]
    congr 1
    funext code
    cases Tag.ofCode? code with
    | none => rfl
    | some tag =>
      simp only [unguarded_bind, unguarded_payload]
      congr 1
      funext slot
      split
      · obtain _ | left := left
        · rfl
        · exact ih left (by omega) _
      · exact ih left (by omega) _

theorem unguarded_constantPool : constantPool.unguarded = unguardedConstantPool := by
  simp [constantPool, unguardedConstantPool, unguarded_slotsOnto]

theorem unguarded_lineNumbers : lineNumbers.unguarded = unguardedLineNumbers := by
  simp [lineNumbers, unguardedLineNumbers]

/-! ## The walk around them -/

section With

variable (constants : Decoder ConstantPool) (lines : Decoder (List UInt16))

theorem unguarded_indexedText (pool : ConstantPool) :
    (indexedText pool).unguarded = indexedText pool := by
  simp [indexedText]

theorem unguarded_skipAttribute : skipAttribute.unguarded = skipAttribute := by
  simp [skipAttribute]

theorem unguarded_codeAttributeWith (pool : ConstantPool) (order : Int32) (found : Position) :
    (codeAttributeWith lines pool order found).unguarded =
      codeAttributeWith lines.unguarded pool order found := by
  simp [codeAttributeWith, unguarded_indexedText, unguarded_skipAttribute]

theorem unguarded_codeWith (pool : ConstantPool) (order : Int32) :
    (codeWith lines pool order).unguarded = codeWith lines.unguarded pool order := by
  simp [codeWith, unguarded_codeAttributeWith]

theorem unguarded_methodAttributeWith (pool : ConstantPool) (order : Int32) (signature : String)
    (found : Position) :
    (methodAttributeWith lines pool order signature found).unguarded =
      methodAttributeWith lines.unguarded pool order signature found := by
  simp [methodAttributeWith, unguarded_indexedText, unguarded_skipAttribute, unguarded_codeWith]

theorem unguarded_methodWith (pool : ConstantPool) (index : Nat) :
    (methodWith lines pool index).unguarded = methodWith lines.unguarded pool index := by
  simp [methodWith, unguarded_indexedText, unguarded_methodAttributeWith]

theorem unguarded_skipField : skipField.unguarded = skipField := by
  simp [skipField, unguarded_skipAttribute]

theorem unguarded_skipClassAttribute (pool : ConstantPool) :
    (skipClassAttribute pool).unguarded = skipClassAttribute pool := by
  simp [skipClassAttribute, unguarded_indexedText, unguarded_skipAttribute]

/-- No other part of the walk checks ahead. -/
theorem unguarded_summaryWith :
    (summaryWith constants lines).unguarded = summaryWith constants.unguarded lines.unguarded := by
  simp [summaryWith, unguarded_skipField, unguarded_methodWith, unguarded_skipClassAttribute]

end With

def unguardedSummary : Decoder ClassSummary :=
  summaryWith unguardedConstantPool unguardedLineNumbers

/-- The walk without its demands is the one whose counts are not checked ahead. -/
theorem unguarded_summary : summary.unguarded = unguardedSummary := by
  rw [summary, unguarded_summaryWith, unguarded_constantPool, unguarded_lineNumbers,
    unguardedSummary]

/-! ## Walks without checks -/

/-- What a walk without the checks has taken is decoded by the walk with them. -/
theorem result_runOn_of_unguarded {bytes : List UInt8} {found : ClassSummary}
    (h : (unguardedSummary.runOn bytes).result = .ok found) :
    (summary.runOn bytes).result = .ok found := by
  rw [← unguarded_summary, runOn, Cursor.start_eq_of] at h
  have hlong : ¬Truncated (summary.unguarded.run (.of 0 bytes) #[]).result := by
    simp [h, Truncated]
  obtain ⟨size, hsize⟩ := exists_run_append_eq_unguarded summary 0 bytes #[] hlong
  -- after enough bytes more both walks are the same, and that without checks has not changed
  have hmore := hsize (List.replicate size 0) (by simp)
  rw [run_append _ 0 bytes _ #[] hlong] at hmore
  have hrun : (summary.runOn (bytes ++ List.replicate size 0)).result = .ok found := by
    rw [runOn, Cursor.start_eq_of, hmore]
    exact h
  obtain ⟨image, rest, hbytes⟩ := Image.exists_of_result_runOn hrun
  have himage : image.outcome.result = .ok found := by
    rw [← hrun, hbytes, Image.result_runOn_append]
  -- it stopped within the bytes, so the image is all there
  have hstop : image.bytes.length ≤ bytes.length := by
    have hle := offset_stop_le summary.unguarded 0 bytes #[]
    rw [← Image.offset_runOn_append himage rest, ← hbytes, runOn, Cursor.start_eq_of, hmore,
      Cursor.offset_extend]
    omega
  have hprefix : image.bytes <+: bytes :=
    List.prefix_of_prefix_length_le ⟨rest, hbytes.symm⟩ (List.prefix_append _ _) hstop
  obtain ⟨rest', rfl⟩ := hprefix
  rw [Image.result_runOn_append, himage]

end ClassFile

namespace Outline

open Decoder (Truncated truncated_map_iff)

def decodeUnguarded (bytes : List UInt8) : Except DecodeError Outline :=
  (ClassFile.unguardedSummary.runOn bytes).result.map ClassSummary.outline

theorem decodeUnguarded_of_not_truncated {bytes : List UInt8}
    (h : ¬Truncated (decode bytes).result) : decodeUnguarded bytes = (decode bytes).result := by
  rw [result_decode, truncated_map_iff, Decoder.runOn] at h
  rw [result_decode, decodeUnguarded, ← ClassFile.unguarded_summary, Decoder.runOn,
    Decoder.run_unguarded _ _ _ h, Decoder.runOn]

/-- What is decoded without checking ahead is decoded. -/
theorem result_decode_of_unguarded {bytes : List UInt8} {outline : Outline}
    (h : decodeUnguarded bytes = .ok outline) : (decode bytes).result = .ok outline := by
  rw [decodeUnguarded, map_eq_ok_iff] at h
  obtain ⟨found, hrun, rfl⟩ := h
  rw [result_decode, ClassFile.result_runOn_of_unguarded hrun, Except.map]

/-- Checking ahead is no change of behaviour. Where counts are not checked ahead, and the walk is
the same otherwise, the same bytes are decoded, and to the same outlines; bytes that are refused for
anything but their end are refused for the same; and bytes that end too early are refused as well.
-/
theorem result_decode_unguarded (bytes : List UInt8) :
    ClassFile.summary = ClassFile.summaryWith ClassFile.constantPool ClassFile.lineNumbers ∧
    (∀ outline, (decode bytes).result = .ok outline ↔ decodeUnguarded bytes = .ok outline) ∧
    (∀ error, (decode bytes).result = .error error → ¬Truncated (decode bytes).result →
      decodeUnguarded bytes = .error error) ∧
    (Truncated (decode bytes).result → ∃ error, decodeUnguarded bytes = .error error) := by
  refine ⟨rfl, ?_, ?_, ?_⟩
  · intro outline
    refine ⟨fun h => ?_, result_decode_of_unguarded⟩
    have hlong : ¬Truncated (decode bytes).result := by simp [h, Truncated]
    rw [decodeUnguarded_of_not_truncated hlong, h]
  · intro error herror h
    rw [decodeUnguarded_of_not_truncated h, herror]
  · intro h
    cases hresult : decodeUnguarded bytes with
    | error error => exact ⟨error, rfl⟩
    | ok outline =>
      obtain ⟨place, needed, remaining, htruncated⟩ := h
      rw [result_decode_of_unguarded hresult] at htruncated
      cases htruncated

end Outline

end ClassOutline
