import ClassOutline.Proofs.Decoder.Extending
import ClassOutline.Proofs.Image.Meaning
import Mathlib.Data.Nat.Find

/-!
# Prefixes of class files

Of the prefixes of any bytes, those up to some length are too short to tell anything, and all longer
ones are decoded alike. For a class file that length is where its walk stops, since what the walk
has taken is an image and what follows an image does not matter (`decode_threshold`).
-/

namespace ClassOutline.Outline

open Decoder (Truncated truncated_map_iff)

/-- More bytes change nothing unless there were too few. -/
theorem result_decode_append {bytes : List UInt8} (more : List UInt8)
    (h : ¬Truncated (decode bytes).result) :
    (decode (bytes ++ more)).result = (decode bytes).result := by
  rw [result_decode, truncated_map_iff] at h
  rw [result_decode, result_decode, Decoder.runOn_append _ more h]

/-- Bytes that are enough to tell are enough, whatever follows. -/
theorem result_decode_take {bytes : List UInt8} {size : Nat}
    (h : ¬Truncated (decode (bytes.take size)).result) :
    (decode (bytes.take size)).result = (decode bytes).result := by
  have hmore := result_decode_append (bytes.drop size) h
  rwa [List.take_append_drop, eq_comm] at hmore

/-- A longer prefix of bytes is not too short if a shorter one is not. -/
theorem not_truncated_take_of_le {bytes : List UInt8} {size size' : Nat} (hle : size ≤ size')
    (h : ¬Truncated (decode (bytes.take size)).result) :
    ¬Truncated (decode (bytes.take size')).result := by
  have htake : (bytes.take size').take size = bytes.take size := by
    rw [List.take_take, Nat.min_eq_left hle]
  rw [← htake] at h
  rwa [← result_decode_take h]

/-- The shortest prefix that is long enough, or a length that no prefix has. -/
theorem exists_threshold (bytes : List UInt8) :
    ∃ threshold, ∀ size ≤ bytes.length,
      (Truncated (decode (bytes.take size)).result ↔ size < threshold) ∧
        (threshold ≤ size → (decode (bytes.take size)).result = (decode bytes).result) := by
  classical
  -- the first length beyond all prefixes ends the search where every prefix is too short
  have hexists : ∃ size, bytes.length < size ∨ ¬Truncated (decode (bytes.take size)).result :=
    ⟨bytes.length + 1, .inl (Nat.lt_succ_self _)⟩
  have hlong : ∀ size ≤ bytes.length, Nat.find hexists ≤ size →
      ¬Truncated (decode (bytes.take size)).result := by
    intro size hsize hle
    rcases Nat.find_spec hexists with hgt | hlong
    · omega
    · exact not_truncated_take_of_le hle hlong
  refine ⟨Nat.find hexists, fun size hsize => ⟨⟨fun h => ?_, fun hlt => ?_⟩, fun hle => ?_⟩⟩
  · exact Nat.lt_of_not_le fun hle => hlong size hsize hle h
  · have hshort := Nat.find_min hexists hlt
    rw [not_or, Decidable.not_not] at hshort
    exact hshort.2
  · exact result_decode_take (hlong size hsize hle)

/-- Where a walk succeeds, every prefix that ends before its stop is too short. -/
theorem truncated_take_of_lt_stop {bytes : List UInt8} {size : Nat}
    (hlt : size < (ClassFile.summary.runOn bytes).stop.offset) :
    Truncated (decode (bytes.take size)).result := by
  by_contra h
  rw [result_decode, truncated_map_iff] at h
  have hrun := Decoder.runOn_append ClassFile.summary (bytes.drop size) h
  rw [List.take_append_drop] at hrun
  have hstop := Decoder.offset_stop_le ClassFile.summary 0 (bytes.take size) #[]
  rw [hrun, Cursor.offset_extend, Decoder.runOn, Cursor.start_eq_of] at hlt
  rw [List.length_take] at hstop
  omega

/-- Where a walk succeeds, what it has taken is all that counts. -/
theorem result_decode_take_stop_append {bytes : List UInt8} {outline : Outline}
    (h : (decode bytes).result = .ok outline) (more : List UInt8) :
    (decode (bytes.take (ClassFile.summary.runOn bytes).stop.offset ++ more)).result =
      .ok outline := by
  rw [result_decode, map_eq_ok_iff] at h
  obtain ⟨summary, hrun, rfl⟩ := h
  obtain ⟨image, rest, rfl⟩ := Image.exists_of_result_runOn hrun
  rw [Image.result_runOn_append] at hrun
  rw [result_decode, Image.offset_runOn_append hrun, List.take_left, Image.result_runOn_append,
    hrun, Except.map]

/-- Three facts about the prefixes of any bytes. Bytes that are not too short are decoded like all
longer ones. The prefixes that are too short are those below some length, and all others are decoded
alike. Where the bytes are decoded at all, that length is where the walk stops. -/
theorem decode_threshold (bytes : List UInt8) :
    (¬Truncated (decode bytes).result →
      ∀ more, (decode (bytes ++ more)).result = (decode bytes).result) ∧
    (∃ threshold, ∀ size ≤ bytes.length,
      (Truncated (decode (bytes.take size)).result ↔ size < threshold) ∧
        (threshold ≤ size → (decode (bytes.take size)).result = (decode bytes).result)) ∧
    ∀ outline, (decode bytes).result = .ok outline →
      let stop := (ClassFile.summary.runOn bytes).stop.offset
      (∀ size < stop, Truncated (decode (bytes.take size)).result) ∧
        ∀ more, (decode (bytes.take stop ++ more)).result = .ok outline :=
  ⟨fun h more => result_decode_append more h, exists_threshold bytes, fun _ h =>
    ⟨fun _ hlt => truncated_take_of_lt_stop hlt, fun more => result_decode_take_stop_append h more⟩⟩

end ClassOutline.Outline
