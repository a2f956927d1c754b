import ClassOutline.Proofs.Decoder.Resuming
import ClassOutline.Outline.Decode

/-!
# Class files that stop too early

The walk over a class file is in good order (`orderly_summary`): the counts of constants and of line
numbers are checked before anything is read, but what is read first is never more than what the
check was for. So the error of a class file that stops too early accounts for all of its bytes, and
says how many more are needed to get any further (`result_decode_resume`).
-/

namespace ClassOutline

namespace ClassFile

open Decoder

/-! ## The constant pool -/

theorem orderly_unneeded (size : Nat) : (unneeded size).Orderly :=
  (orderly_skip size).bind fun _ => orderly_done _

theorem orderly_text (index : UInt16) : (text index).Orderly := by
  refine orderly_word16.bind fun size => (orderly_bytes _).bind fun bytes => ?_
  exact (orderly_ofExcept (fun _ => rfl) _).bind fun text => orderly_done _

theorem orderly_payload (index : UInt16) (tag : Tag) : (payload index tag).Orderly := by
  cases tag with
  | utf8 => exact orderly_text index
  | methodRef | interfaceMethodRef | nameAndType =>
    exact orderly_word16.bind fun _ => orderly_word16.bind fun _ => orderly_done _
  | methodHandle => exact orderly_word8.bind fun _ => orderly_word16.bind fun _ => orderly_done _
  | string | methodType => exact orderly_word16.bind fun _ => orderly_done _
  | classRef => exact orderly_unneeded 2
  | fieldRef | integer | float | invokeDynamic => exact orderly_unneeded 4
  | long | double => exact orderly_unneeded 8

/-- Constants are refused for their format only. -/
theorem orderly_slotsOnto (left : Nat) (slots : Array Slot) : (slotsOnto left slots).Orderly := by
  -- a constant leaves one or two slots fewer, so the induction is over all smaller numbers
  induction left using Nat.strongRecOn generalizing slots with
  | ind left ih =>
    obtain _ | left := left
    · exact orderly_done slots
    rw [slotsOnto]
    refine orderly_word8.bind fun code => ?_
    cases Tag.ofCode? code with
    | none => rfl
    | some tag =>
      refine (orderly_payload _ tag).bind fun slot => ?_
      split
      · obtain _ | left := left
        · exact orderly_done _
        · exact ih left (by omega) _
      · exact ih left (by omega) _

theorem orderly_constantPool : constantPool.Orderly := by
  refine orderly_word16.bind fun count => ?_
  refine orderly_require_bind (fun hpos => ?_) ?_
  · -- every constant starts with a byte of its own
    obtain ⟨left, hleft⟩ := Nat.exists_eq_succ_of_ne_zero (Nat.ne_of_gt hpos)
    rw [hleft, slotsOnto]
    exact ((takesWithin_word8 (Nat.succ_pos left)).bind _).bind _
  · exact (orderly_slotsOnto _ _).bind fun slots => orderly_done _

/-! ## Attributes -/

theorem orderly_indexedText (pool : ConstantPool) : (indexedText pool).Orderly :=
  orderly_word16.bind fun _ => orderly_ofExcept (fun _ => rfl) _

theorem orderly_skipAttribute : skipAttribute.Orderly :=
  orderly_word32.bind fun size => orderly_skip size.toNat

theorem orderly_lineNumbers : lineNumbers.Orderly := by
  have hline : ∀ index : Nat, (word16 >>= fun _ => word16).Orderly := fun _ =>
    orderly_word16.bind fun _ => orderly_word16
  refine orderly_word32.bind fun size => orderly_word16.bind fun count => ?_
  refine orderly_require_bind (fun hpos => ?_) (orderly_collect hline _)
  exact takesWithin_collect (by omega) ((takesWithin_word16 (by omega)).bind _)

theorem orderly_codeAttribute (pool : ConstantPool) (order : Int32) (found : Position) :
    (codeAttribute pool order found).Orderly := by
  refine (orderly_indexedText pool).bind fun name => ?_
  split
  · exact orderly_lineNumbers.bind fun lines => orderly_done _
  · exact orderly_skipAttribute.bind fun _ => orderly_done found

theorem orderly_code (pool : ConstantPool) (order : Int32) : (code pool order).Orderly := by
  refine orderly_word32.bind fun declared => orderly_position.bind fun start => ?_
  refine orderly_word16.bind fun maxStack => orderly_word16.bind fun maxLocals => ?_
  refine orderly_word32.bind fun codeSize => (orderly_skip _).bind fun _ => ?_
  refine orderly_word16.bind fun handlers => (orderly_skip _).bind fun _ => ?_
  refine orderly_word16.bind fun attributes => ?_
  refine (orderly_iterate (orderly_codeAttribute pool order) _ _).bind fun found => ?_
  exact orderly_position.bind fun stop => orderly_ite_log _ _ (orderly_done found)

theorem orderly_methodAttribute (pool : ConstantPool) (order : Int32) (signature : String)
    (found : Position) : (methodAttribute pool order signature found).Orderly := by
  refine (orderly_indexedText pool).bind fun name => ?_
  split
  · exact orderly_code pool order
  · refine (orderly_log _).bind fun _ => ?_
    exact orderly_skipAttribute.bind fun _ => orderly_done found

/-! ## Members and whole files -/

theorem orderly_skipField : skipField.Orderly := by
  refine orderly_word16.bind fun flags => orderly_word16.bind fun name => ?_
  refine orderly_word16.bind fun descriptor => orderly_word16.bind fun attributes => ?_
  exact orderly_iterate (fun _ => orderly_word16.bind fun _ => orderly_skipAttribute) _ _

theorem orderly_method (pool : ConstantPool) (index : Nat) : (method pool index).Orderly := by
  refine orderly_word16.bind fun flags => ?_
  refine (orderly_indexedText pool).bind fun name => ?_
  refine (orderly_indexedText pool).bind fun descriptor => ?_
  refine (orderly_ofExcept (fun _ => rfl) _).bind fun signature => ?_
  refine orderly_word16.bind fun attributes => ?_
  refine (orderly_iterate (orderly_methodAttribute pool _ signature) _ _).bind fun position => ?_
  exact orderly_ite_log _ _ ((orderly_log _).bind fun _ => orderly_done _)

theorem orderly_skipClassAttribute (pool : ConstantPool) : (skipClassAttribute pool).Orderly := by
  refine (orderly_indexedText pool).bind fun name => ?_
  exact (orderly_log _).bind fun _ => orderly_skipAttribute

/-- The walk over a class file is in good order. -/
theorem orderly_summary : summary.Orderly := by
  refine orderly_word32.bind fun magic => ?_
  split
  · rfl
  refine orderly_word16.bind fun minorVersion => orderly_word16.bind fun majorVersion => ?_
  refine orderly_constantPool.bind fun pool => (orderly_log _).bind fun _ => ?_
  refine orderly_word16.bind fun flags => orderly_word16.bind fun thisClass => ?_
  refine orderly_word16.bind fun superClass => orderly_word16.bind fun interfaces => ?_
  refine (orderly_skip _).bind fun _ => orderly_word16.bind fun fields => ?_
  refine (orderly_iterate (fun _ => orderly_skipField) _ _).bind fun _ => ?_
  refine orderly_word16.bind fun methodCount => ?_
  refine (orderly_collect (orderly_method pool) _).bind fun methods => ?_
  refine orderly_word16.bind fun attributes => ?_
  exact (orderly_iterate (fun _ => orderly_skipClassAttribute pool) _ _).bind fun _ =>
    orderly_done _

end ClassFile

namespace Outline

/-- The error of a class file is that of the walk. -/
theorem result_decode_eq_error_iff {bytes : List UInt8} {error : DecodeError} :
    (decode bytes).result = .error error ↔
      (ClassFile.summary.run (.of 0 bytes) #[]).result = .error error := by
  rw [result_decode, map_eq_error_iff, Decoder.runOn, Cursor.start_eq_of]

/-- What a class file that stops too early says of its end: the bytes before the place where more
are needed and those from there on are all of its bytes, and the latter are fewer than needed. With
more bytes, but still fewer than needed, it says the same; with enough of them it is not found too
short, or at a place further on. -/
theorem result_decode_resume {bytes : List UInt8} {place needed remaining : Nat}
    (h : (decode bytes).result = .error (.truncated place needed remaining)) :
    (place + remaining = bytes.length ∧ remaining < needed) ∧
    (∀ more : List UInt8, remaining + more.length < needed →
      (decode (bytes ++ more)).result =
        .error (.truncated place needed (remaining + more.length))) ∧
    ∀ more : List UInt8, needed ≤ remaining + more.length → ∀ place' needed' remaining',
      (decode (bytes ++ more)).result = .error (.truncated place' needed' remaining') →
        place < place' := by
  have horderly := ClassFile.orderly_summary
  simp only [result_decode_eq_error_iff] at h ⊢
  refine ⟨?_, fun more hlt => horderly.result_append_of_lt h hlt, ?_⟩
  · obtain ⟨-, hsize, hlt⟩ := horderly.bounds_of_truncated h
    rw [Nat.zero_add] at hsize
    exact ⟨hsize, hlt⟩
  · intro more hle place' needed' remaining' h'
    exact horderly.lt_of_append h hle h'

/-- The beginning of a class file, up to a pool of two constants. -/
def untilConstants : List UInt8 := [0xCA, 0xFE, 0xBA, 0xBE, 0, 0, 0, 52, 0, 3]

/-- One byte more is still less than two constants; with two bytes the first constant is read, up to
the size of its text. -/
theorem result_decode_resume_untilConstants :
    (decode untilConstants).result = .error (.truncated 10 2 0) ∧
    (decode (untilConstants ++ [1])).result = .error (.truncated 10 2 1) ∧
    (decode (untilConstants ++ [1, 0])).result = .error (.truncated 11 2 1) ∧ 10 < 11 := by
  have h : (decode untilConstants).result = .error (.truncated 10 2 0) := by rfl
  have h' : (decode (untilConstants ++ [1, 0])).result = .error (.truncated 11 2 1) := by cbv
  obtain ⟨-, hshort, hlong⟩ := result_decode_resume h
  exact ⟨h, hshort [1] (by decide), h', hlong [1, 0] (by decide) 11 2 1 h'⟩

end Outline

end ClassOutline
