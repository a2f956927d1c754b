import ClassOutline.Proofs.Decoder.Emitting
import ClassOutline.Proofs.Decoder.Extending

/-!
# Logging as the bytes come in

The walk over a class file demands the bytes of a constant pool or of a line number table ahead, but
takes them all before it adds another record (`ClassFile.settles_summary`). What it has logged at
any point is therefore logged for every class file that begins with the bytes read by then. Main
statement: what follows any bytes adds records behind theirs, if they were too few, and otherwise
changes nothing but the size in the last record of a success (`Outline.log_decode_online`).
-/

namespace ClassOutline

namespace ClassFile

open Decoder

/-! ## The constant pool -/

theorem owes_unneeded (size debt : Nat) : (unneeded size).Owes debt (debt - size) :=
  (owes_skip size debt).bind fun _ => owes_done _ _

theorem owes_text (index : UInt16) (debt : Nat) : (text index).Owes debt debt := by
  refine (owes_word16 debt).keeps.bind fun size => ?_
  refine (owes_bytes size.toNat debt).keeps.bind fun bytes => ?_
  exact (owes_ofExcept _ _ debt).bind fun text => owes_done _ debt

theorem owes_payload (index : UInt16) (tag : Tag) (debt : Nat) :
    (payload index tag).Owes debt debt := by
  have hword8 : word8.Owes debt debt := (owes_word8 debt).keeps
  have hword16 : word16.Owes debt debt := (owes_word16 debt).keeps
  cases tag with
  | utf8 => exact owes_text index debt
  | methodRef | interfaceMethodRef | nameAndType =>
    exact hword16.bind fun _ => hword16.bind fun _ => owes_done _ debt
  | string | methodType => exact hword16.bind fun _ => owes_done _ debt
  | methodHandle => exact hword8.bind fun _ => hword16.bind fun _ => owes_done _ debt
  | classRef => exact (owes_unneeded 2 debt).keeps
  | fieldRef | integer | float | invokeDynamic => exact (owes_unneeded 4 debt).keeps
  | long | double => exact (owes_unneeded 8 debt).keeps

/-- The second slot of a constant is paid for by its payload. -/
theorem owes_payload_of_wide (index : UInt16) {tag : Tag} (wide : tag.isWide = true) (debt : Nat) :
    (payload index tag).Owes debt (debt - 1) := by
  have hunneeded : (unneeded 8).Owes debt (debt - 1) := (owes_unneeded 8 debt).weaken (by omega)
  cases tag with
  | long | double => exact hunneeded
  | _ => exact absurd wide (by decide)

/-- Constants take at least the bytes that were demanded for them. -/
theorem owes_slotsOnto (left : Nat) (slots : Array Slot) : (slotsOnto left slots).Owes left 0 := by
  -- a constant leaves one or two slots fewer, so the induction is over all smaller numbers
  induction left using Nat.strongRecOn generalizing slots with
  | ind left ih =>
    obtain _ | left := left
    · exact owes_done slots 0
    rw [slotsOnto]
    refine (owes_word8 (left + 1)).bind fun code => ?_
    cases Tag.ofCode? code with
    | none => trivial
    | some tag =>
      by_cases hwide : tag.isWide = true
      · refine (owes_payload_of_wide _ hwide left).bind fun slot => ?_
        rw [if_pos hwide]
        obtain _ | left := left
        · exact owes_done _ 0
        · exact ih left (by omega) _
      · refine (owes_payload _ tag left).bind fun slot => ?_
        rw [if_neg hwide]
        exact ih left (by omega) _

theorem settles_constantPool : constantPool.Settles := by
  refine settles_word16.bind fun count => settles_require_bind ?_
  exact (owes_slotsOnto _ _).bind fun slots => settles_done _

/-! ## Attributes -/

theorem settles_indexedText (pool : ConstantPool) : (indexedText pool).Settles :=
  settles_word16.bind fun _ => settles_ofExcept _ _

theorem settles_skipAttribute : skipAttribute.Settles :=
  settles_word32.bind fun size => settles_skip size.toNat

theorem settles_lineNumbers : lineNumbers.Settles := by
  have hline : ∀ (index debt : Nat), Owes (do let _startPc ← word16; word16) debt (debt - 4) :=
    fun _ debt => (owes_word16 debt).bind fun _ => owes_word16 (debt - 2)
  refine settles_word32.bind fun size => settles_word16.bind fun count => ?_
  exact settles_require_bind (owes_collectOnto hline count.toNat 0 [])

theorem settles_codeAttribute (pool : ConstantPool) (order : Int32) (found : Position) :
    (codeAttribute pool order found).Settles := by
  refine (settles_indexedText pool).bind fun name => ?_
  split
  · exact settles_lineNumbers.bind fun lines => settles_done _
  · exact settles_skipAttribute.bind fun _ => settles_done found

theorem settles_code (pool : ConstantPool) (order : Int32) : (code pool order).Settles := by
  refine settles_word32.bind fun declared => settles_position.bind fun start => ?_
  refine settles_word16.bind fun maxStack => settles_word16.bind fun maxLocals => ?_
  refine settles_word32.bind fun codeSize => (settles_skip _).bind fun _ => ?_
  refine settles_word16.bind fun handlers => (settles_skip _).bind fun _ => ?_
  refine settles_word16.bind fun attributes => ?_
  refine (settles_iterate (settles_codeAttribute pool order) _ _).bind fun found => ?_
  exact settles_position.bind fun stop => settles_ite_log _ _ (settles_done found)

theorem settles_methodAttribute (pool : ConstantPool) (order : Int32) (signature : String)
    (found : Position) : (methodAttribute pool order signature found).Settles := by
  refine (settles_indexedText pool).bind fun name => ?_
  split
  · exact settles_code pool order
  · refine (settles_log _).bind fun _ => ?_
    exact settles_skipAttribute.bind fun _ => settles_done found

/-! ## Members and whole files -/

theorem settles_skipField : skipField.Settles := by
  refine settles_word16.bind fun flags => settles_word16.bind fun name => ?_
  refine settles_word16.bind fun descriptor => settles_word16.bind fun attributes => ?_
  exact settles_iterate (fun _ => settles_word16.bind fun _ => settles_skipAttribute) _ _

theorem settles_method (pool : ConstantPool) (index : Nat) : (method pool index).Settles := by
  refine settles_word16.bind fun flags => ?_
  refine (settles_indexedText pool).bind fun name => ?_
  refine (settles_indexedText pool).bind fun descriptor => ?_
  refine (settles_ofExcept _ _).bind fun signature => ?_
  refine settles_word16.bind fun attributes => ?_
  refine (settles_iterate (settles_methodAttribute pool _ signature) _ _).bind fun position => ?_
  exact settles_ite_log _ _ ((settles_log _).bind fun _ => settles_done _)

theorem settles_skipClassAttribute (pool : ConstantPool) : (skipClassAttribute pool).Settles := by
  refine (settles_indexedText pool).bind fun name => ?_
  exact (settles_log _).bind fun _ => settles_skipAttribute

/-- The walk adds records only when all bytes that it has demanded are taken. -/
theorem settles_summary : summary.Settles := by
  refine settles_word32.bind fun magic => ?_
  split
  · trivial
  refine settles_word16.bind fun minorVersion => settles_word16.bind fun majorVersion => ?_
  refine settles_constantPool.bind fun pool => (settles_log _).bind fun _ => ?_
  refine settles_word16.bind fun flags => settles_word16.bind fun thisClass => ?_
  refine settles_word16.bind fun superClass => settles_word16.bind fun interfaces => ?_
  refine (settles_skip _).bind fun _ => settles_word16.bind fun fields => ?_
  refine (settles_iterate (fun _ => settles_skipField) _ _).bind fun _ => ?_
  refine settles_word16.bind fun methodCount => ?_
  refine (settles_collect (settles_method pool) _).bind fun methods => ?_
  refine settles_word16.bind fun attributes => ?_
  exact (settles_iterate (fun _ => settles_skipClassAttribute pool) _ _).bind fun _ =>
    settles_done _

end ClassFile

namespace Outline

open Decoder

/-! ## Decoding -/

variable {bytes bytes' : List UInt8}

theorem isPrefix_log_decode (bytes : List UInt8) :
    (ClassFile.summary.runOn bytes).log.toList <+: (decode bytes).log.toList := by
  cases h : (ClassFile.summary.runOn bytes).result with
  | error error => exact ⟨[], by rw [List.append_nil, log_decode_of_error h]⟩
  | ok summary => exact ⟨_, by rw [log_decode_of_ok h, Array.toList_push]⟩

/-- What the walk has logged at a point is logged for all bytes that begin like those read by then.
-/
theorem isPrefix_log_decode_of_emits {point : Point ClassSummary} {records : List Record}
    (hemits : Emits ⟨ClassFile.summary, .start bytes⟩ point records)
    (hsame : bytes'.take point.cursor.offset = bytes.take point.cursor.offset) :
    records <+: (decode bytes').log.toList := by
  have hrun : [] ++ records <+: (ClassFile.summary.runOn bytes').log.toList :=
    Owes.isPrefix_log hemits (Cursor.within_start bytes) (Cursor.within_start bytes') rfl hsame
      ClassFile.settles_summary #[]
  exact hrun.trans (isPrefix_log_decode bytes')

/-- The log of a failure is what was logged up to the point at which the walk fails. -/
theorem exists_emits_of_error {error : DecodeError} (h : (decode bytes).result = .error error) :
    ∃ last, Emits ⟨ClassFile.summary, .start bytes⟩ last (decode bytes).log.toList ∧
      last.Ends (.error error) := by
  rw [result_decode, map_eq_error_iff] at h
  obtain ⟨last, records, hemits, hends, hlog⟩ :=
    exists_emits_ends ClassFile.summary (.start bytes) #[]
  rw [← Decoder.runOn] at hends hlog
  rw [h] at hends
  rw [log_decode_of_error h, hlog, Array.empty_append, List.toList_toArray]
  exact ⟨last, hemits, hends⟩

/-! ## More bytes -/

/-- The log of bytes that were too few is the beginning of that of more bytes. -/
theorem isPrefix_log_decode_append (h : Truncated (decode bytes).result) (more : List UInt8) :
    (decode bytes).log.toList <+: (decode (bytes ++ more)).log.toList := by
  obtain ⟨place, needed, remaining, herror⟩ := h
  obtain ⟨last, hemits, -⟩ := exists_emits_of_error herror
  have hwithin := hemits.reached.within (Cursor.within_start bytes)
  exact isPrefix_log_decode_of_emits hemits (List.take_append_of_le_length hwithin.offset_le)

/-- An error that more bytes cannot help leaves the same log with them. -/
theorem log_decode_append_of_error {error : DecodeError} (h : (decode bytes).result = .error error)
    (hlong : ¬Truncated (decode bytes).result) (more : List UInt8) :
    (decode (bytes ++ more)).log = (decode bytes).log := by
  rw [result_decode, truncated_map_iff] at hlong
  have hrun := runOn_append ClassFile.summary more hlong
  rw [result_decode, map_eq_error_iff] at h
  have hmore : (ClassFile.summary.runOn (bytes ++ more)).result = .error error := by rw [hrun, h]
  rw [log_decode_of_error h, log_decode_of_error hmore, hrun]

/-- The log of a success ends with a record of where the walk stopped and of how many bytes there
were; only the latter changes with more bytes. -/
theorem log_decode_append_of_ok {outline : Outline} (h : (decode bytes).result = .ok outline)
    (more : List UInt8) :
    ∃ (before : Array Record) (fields methods place : Nat),
      (decode bytes).log = before.push (.classRead fields methods place bytes.length) ∧
        (decode (bytes ++ more)).log =
          before.push (.classRead fields methods place (bytes ++ more).length) := by
  rw [result_decode, map_eq_ok_iff] at h
  obtain ⟨summary, hsummary, -⟩ := h
  have hlong : ¬Truncated (ClassFile.summary.runOn bytes).result := by
    rintro ⟨place, needed, remaining, herror⟩
    rw [hsummary] at herror
    contradiction
  have hrun := runOn_append ClassFile.summary more hlong
  have hmore : (ClassFile.summary.runOn (bytes ++ more)).result = .ok summary := by
    rw [hrun, hsummary]
  refine ⟨_, _, _, _, log_decode_of_ok hsummary, ?_⟩
  rw [log_decode_of_ok hmore, hrun, Cursor.offset_extend]

/-- Three facts about the records of a walk. More bytes add records behind those of bytes that were
too few, change none of those of any other failure, and of a success they change only the size in
the last one. The records added by any point of a walk are those of all bytes that begin like the
bytes taken by then. A walk that fails has in its log what was added by the point at which it fails,
and nothing else. -/
theorem log_decode_online :
    (∀ bytes more : List UInt8,
      (Truncated (decode bytes).result →
        (decode bytes).log.toList <+: (decode (bytes ++ more)).log.toList) ∧
      (∀ error, (decode bytes).result = .error error → ¬Truncated (decode bytes).result →
        (decode (bytes ++ more)).log = (decode bytes).log) ∧
      ∀ outline, (decode bytes).result = .ok outline →
        ∃ (before : Array Record) (fields methods place : Nat),
          (decode bytes).log = before.push (.classRead fields methods place bytes.length) ∧
            (decode (bytes ++ more)).log =
              before.push (.classRead fields methods place (bytes ++ more).length)) ∧
    (∀ bytes point records, Emits ⟨ClassFile.summary, .start bytes⟩ point records →
      ∀ bytes' : List UInt8, bytes'.take point.cursor.offset = bytes.take point.cursor.offset →
        records <+: (decode bytes').log.toList) ∧
    ∀ bytes error, (decode bytes).result = .error error →
      ∃ last, Emits ⟨ClassFile.summary, .start bytes⟩ last (decode bytes).log.toList ∧
        last.Ends (.error error) := by
  refine ⟨fun bytes more => ⟨fun h => isPrefix_log_decode_append h more, ?_, ?_⟩, ?_, ?_⟩
  · exact fun error h hlong => log_decode_append_of_error h hlong more
  · exact fun outline h => log_decode_append_of_ok h more
  · exact fun bytes point records hemits bytes' hsame => isPrefix_log_decode_of_emits hemits hsame
  · exact fun bytes error h => exists_emits_of_error h

end Outline

end ClassOutline
