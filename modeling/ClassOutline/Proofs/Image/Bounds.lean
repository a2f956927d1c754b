import ClassOutline.Proofs.Decoder.Emitting
import ClassOutline.Proofs.Image.Resumption

/-!
# Walks stay within their input

Nothing that the walk over a class file does can go wrong beside what it reports: it never leaves
its input, it is handed as many bytes as it takes, it comes to no failure of a reader, and the
numbers of slots fit into words (`slotsOnto_eq_numbered`). So every error of a class file that is
held in memory tells of its format, or that it is too short (`decode_stays_within`).
-/

namespace ClassOutline

namespace ClassFile

open Decoder

/-! ## Slot numbers -/

/-- `slotsOnto` with the number of the next slot made a word only where it fits into one, and a
failure in its place where it does not. -/
def numberedSlotsOnto : Nat → Array Slot → Decoder (Array Slot)
  | 0, slots => return slots
  | left + 1, slots =>
    if fits : slots.size < UInt16.size then do
      let index := UInt16.ofNatLT slots.size fits
      let code ← word8
      match Tag.ofCode? code with
      | none => fail (.unknownTag code index)
      | some tag =>
        let slot ← payload index tag
        if tag.isWide then
          match left with
          | 0 => return slots.push slot
          | left + 1 => numberedSlotsOnto left ((slots.push slot).push .shadowed)
        else numberedSlotsOnto left (slots.push slot)
    else fail (.io .endOfInput)

/-- As long as no more than 65536 slots are to be filled, all their numbers fit. -/
theorem slotsOnto_eq_numbered {left : Nat} {slots : Array Slot}
    (h : slots.size + left ≤ UInt16.size) :
    slotsOnto left slots = numberedSlotsOnto left slots := by
  -- slots filled and slots left are the same number together after every constant
  induction left using Nat.strongRecOn generalizing slots with
  | ind left ih =>
    obtain _ | left := left
    · rw [slotsOnto, numberedSlotsOnto]
    have fits : slots.size < UInt16.size := by omega
    rw [slotsOnto, numberedSlotsOnto, dif_pos fits]
    simp only [UInt16.ofNatLT_eq_ofNat]
    congr 1
    funext code
    cases Tag.ofCode? code with
    | none => rfl
    | some tag =>
      simp only
      congr 1
      funext slot
      by_cases hwide : tag.isWide = true
      · obtain _ | left := left
        · simp only [if_pos hwide]
        · simp only [if_pos hwide]
          exact ih left (by omega) (by simp; omega)
      · simp only [if_neg hwide]
        exact ih left (by omega) (by simp; omega)

end ClassFile

/-! ## Decoding -/

theorem Positions.result_decode_eq_error_iff {bytes : List UInt8} {error : DecodeError} :
    (decode bytes).result = .error error ↔ (Outline.decode bytes).result = .error error := by
  rw [result_decode, map_eq_error_iff]

namespace Outline

/-- The error of a class file is one of the format, or says that the file is too short. -/
theorem kind_of_result_decode {bytes : List UInt8} {error : DecodeError}
    (h : (decode bytes).result = .error error) :
    error.kind = .format ∨ ∃ place needed remaining, error = .truncated place needed remaining := by
  rw [result_decode_eq_error_iff, ← Cursor.start_eq_of] at h
  exact ClassFile.orderly_summary.kind_of_result h

/-- Facts about decoding any bytes. Nothing can go wrong at any point of the walk; these are the
points of the run that decoding makes, which goes on from each of them to its own end, and ends at
one of them with its result. The numbers of slots fit into words, whatever the count of constants.
An error, of the outline as of the positions, is no failure of a reader but one of the format or of
a file that is too short, and the latter exactly if it says where bytes are missing. -/
theorem decode_stays_within (bytes : List UInt8) :
    (∀ point, Decoder.Reached ⟨ClassFile.summary, .start bytes⟩ point → point.Safe bytes) ∧
    (∀ point, Decoder.Reached ⟨ClassFile.summary, .start bytes⟩ point →
      ∃ log, ClassFile.summary.runOn bytes = point.plan.run point.cursor log) ∧
    (∃ last, Decoder.Reached ⟨ClassFile.summary, .start bytes⟩ last ∧
      last.cursor = (ClassFile.summary.runOn bytes).stop ∧
      last.Ends (ClassFile.summary.runOn bytes).result ∧
      (decode bytes).result =
        (ClassFile.summary.runOn bytes).result.map ClassSummary.outline) ∧
    (∀ count : UInt16, ClassFile.slotsOnto (count.toNat - 1) #[.vacant] =
      ClassFile.numberedSlotsOnto (count.toNat - 1) #[.vacant]) ∧
    ∀ error, (decode bytes).result = .error error ∨ (Positions.decode bytes).result = .error error →
      (∀ failure, error ≠ .io failure) ∧ (error.kind = .format ∨ error.kind = .truncation) ∧
        (error.kind = .truncation ↔
          ∃ place needed remaining, error = .truncated place needed remaining) := by
  refine ⟨fun point hpoint => ?_, fun point hpoint => ?_, ?_, fun count => ?_,
    fun error herror => ?_⟩
  · exact hpoint.safe (Cursor.within_start bytes) ClassFile.orderly_summary
  · obtain ⟨records, hrecords⟩ := hpoint.exists_emits
    exact ⟨_, hrecords.run_eq #[]⟩
  · obtain ⟨last, hstop, hreached, hends⟩ :=
      Decoder.exists_reached_ends ClassFile.summary (.start bytes) #[]
    exact ⟨last, hreached, hstop, hends, result_decode bytes⟩
  · have hcount := count.toNat_lt
    have hslots : 1 + (count.toNat - 1) ≤ 65536 := by omega
    exact ClassFile.slotsOnto_eq_numbered hslots
  · rw [Positions.result_decode_eq_error_iff, or_self] at herror
    rcases kind_of_result_decode herror with hformat | ⟨place, needed, remaining, rfl⟩
    · obtain ⟨hio, htruncated⟩ := DecodeError.kind_eq_format_iff.mp hformat
      refine ⟨hio, .inl hformat, ?_⟩
      simp [hformat, htruncated]
    · simp [DecodeError.kind]

end Outline

end ClassOutline
