import ClassOutline.Proofs.ConstantPool.Lookup
import ClassOutline.Proofs.Image.Basic

/-!
# Reading an image's constant pool

What the walk makes of a constant pool, malformed texts included (`decodes_constantPool`), and what
a look-up of a text finds there (`result_resolve_eq_ok_iff`). The walk gets a pool, namely the
image's own, where every text can be decoded (`Pool.result_outcome_eq_ok_iff`).
-/

namespace ClassOutline.Image

open Decoder

/-! ## Counts -/

namespace Counted

variable {α : Type}

theorem decodes_count16 (offset : Nat) (list : Counted 2 α) :
    Decodes offset word16 list.count (pure (UInt16.ofNat list.items.length)) :=
  decodes_map_number offset UInt16.ofNat list.fits

theorem decodes_count32 (offset : Nat) (list : Counted 4 α) :
    Decodes offset word32 list.count (pure (UInt32.ofNat list.items.length)) :=
  decodes_map_number offset UInt32.ofNat list.fits

theorem toNat_length16 (list : Counted 2 α) :
    (UInt16.ofNat list.items.length).toNat = list.items.length :=
  UInt16.toNat_ofNat_of_lt' list.fits

theorem toNat_length32 (list : Counted 4 α) :
    (UInt32.ofNat list.items.length).toNat = list.items.length :=
  UInt32.toNat_ofNat_of_lt' list.fits

end Counted

/-! ## The constant pool -/

namespace Entry

/-- The slot of a constant that starts at `index`. -/
def outcome (index : UInt16) : Entry → Logged Slot
  | utf8 payload => do
    let text ← .ofExcept (.malformedText index) (Text.ModifiedUtf8.decode payload.items)
    return .holds (.utf8 text)
  | entry => pure entry.slot

theorem decodes_unneeded (offset : Nat) {size : Nat} {text : List UInt8} (h : text.length = size) :
    Decodes offset (ClassFile.unneeded size) text (pure .vacant) := by
  subst h
  exact (decodes_skip offset text).bind_pure_nil (decodes_done _ _)

theorem decodes_payload (offset : Nat) (index : UInt16) (entry : Entry) :
    Decodes offset (ClassFile.payload index entry.tag) entry.payload (entry.outcome index) := by
  cases entry with
  | utf8 payload =>
    refine .bind_pure (payload.decodes_count16 offset) ?_
    rw [payload.toNat_length16]
    refine .bind_pure_nil (decodes_bytes _ _) ?_
    exact decodes_ofExcept_bind fun text _ => decodes_done _ _
  | integer bits | float bits => exact decodes_unneeded offset (length_spell32 bits)
  | long bits | double bits => exact decodes_unneeded offset (length_spell64 bits)
  | classRef name => exact decodes_unneeded offset (length_spell16 name)
  | fieldRef first second | invokeDynamic first second =>
    have hlength : (spell16 first ++ spell16 second).length = 4 := by simp
    exact decodes_unneeded offset hlength
  | string index | methodType index => exact (decodes_word16 _ _).bind_pure_nil (decodes_done _ _)
  | methodRef first second | interfaceMethodRef first second | nameAndType first second =>
    refine .bind_pure (decodes_word16 _ _) ?_
    exact (decodes_word16 _ _).bind_pure_nil (decodes_done _ _)
  | methodHandle kind reference =>
    refine .bind_pure (decodes_word8 _ _) ?_
    exact (decodes_word16 _ _).bind_pure_nil (decodes_done _ _)

/-- A text whose bytes can be decoded, or any other constant. -/
def Valid : Entry → Prop
  | utf8 payload => ∃ text, Text.ModifiedUtf8.decode payload.items = .ok text
  | _ => True

theorem result_outcome_eq_ok_iff {entry : Entry} {index : UInt16} {slot : Slot} :
    (entry.outcome index).result = .ok slot ↔ entry.Valid ∧ slot = entry.slot := by
  cases entry with
  | utf8 payload =>
    rw [outcome, Valid, Entry.slot, Logged.result_bind_eq_ok_iff]
    simp only [Logged.result_ofExcept_eq_ok_iff, Logged.result_pure]
    cases Text.ModifiedUtf8.decode payload.items <;> simp [eq_comm]
  | _ => simp [outcome, Valid, eq_comm]

end Entry

/-- The slots of constants of which the first one starts at `index`. -/
def slotsFrom (index : Nat) : List Entry → Logged (List Slot)
  | [] => pure []
  | entry :: entries => do
    let slot ← entry.outcome (UInt16.ofNat index)
    let slots ← slotsFrom (index + entry.tag.slotCount) entries
    return (if entry.tag.isWide then [slot, .shadowed] else [slot]) ++ slots

/-- Slots can be filled where all texts can be decoded. -/
theorem result_slotsFrom_eq_ok_iff {index : Nat} {entries : List Entry} {slots : List Slot} :
    (slotsFrom index entries).result = .ok slots ↔
      (∀ entry ∈ entries, entry.Valid) ∧ slots = entries.flatMap Entry.slots := by
  induction entries generalizing index slots with
  | nil => simp [slotsFrom, eq_comm]
  | cons entry entries ih =>
    simp only [slotsFrom, Logged.result_bind_eq_ok_iff, Entry.result_outcome_eq_ok_iff, ih,
      Logged.result_pure, List.flatMap_cons, Entry.slots, List.forall_mem_cons]
    constructor
    · rintro ⟨_, ⟨hvalid, rfl⟩, _, ⟨hrest, rfl⟩, hslots⟩
      exact ⟨⟨hvalid, hrest⟩, (Except.ok.inj hslots).symm⟩
    · rintro ⟨⟨hvalid, hrest⟩, rfl⟩
      exact ⟨_, ⟨hvalid, rfl⟩, _, ⟨hrest, rfl⟩, rfl⟩

/-! ## Filling slots -/

theorem fills_nil_iff {left : Nat} : Fills left [] ↔ left = 0 := by
  simp [Fills, slotTotal, eq_comm]

theorem fills_zero_iff {entries : List Entry} : Fills 0 entries ↔ entries = [] := by
  refine ⟨fun h => ?_, fun h => h ▸ fills_nil_iff.mpr rfl⟩
  cases entries with
  | nil => rfl
  | cons entry entries =>
    rw [Fills, slotTotal, Tag.slotCount] at h
    by_cases hwide : entry.tag.isWide = true
    · rw [if_pos hwide] at h
      omega
    · -- only another constant could be the one that does without its second slot
      rw [if_neg hwide] at h
      obtain _ | second := entries
      · simp [slotTotal, hwide] at h
      · rw [slotTotal, Tag.slotCount] at h
        split at h <;> omega

/-- What is left to fill after a constant that takes one slot. -/
theorem fills_cons_narrow_iff {left : Nat} {entry : Entry} {entries : List Entry}
    (h : entry.tag.isWide = false) : Fills (left + 1) (entry :: entries) ↔ Fills left entries := by
  have hone : entry.tag.slotCount = 1 := by simp [Tag.slotCount, h]
  rw [Fills, Fills, slotTotal, hone, Nat.add_comm 1, Nat.add_right_cancel_iff,
    Nat.add_right_cancel_iff]
  cases entries with
  | nil => simp [slotTotal, h]
  | cons second entries => rw [List.getLast?_cons_cons]

/-- What is left to fill after a constant that takes two slots. -/
theorem fills_cons_wide_iff {left : Nat} {entry : Entry} {entries : List Entry}
    (h : entry.tag.isWide = true) : Fills (left + 2) (entry :: entries) ↔ Fills left entries := by
  have htwo : entry.tag.slotCount = 2 := by simp [Tag.slotCount, h]
  rw [Fills, Fills, slotTotal, htwo, Nat.add_comm 2, Nat.add_right_cancel_iff,
    Nat.add_right_comm, Nat.add_right_cancel_iff]
  cases entries with
  | nil => simp [slotTotal]
  | cons second entries => rw [List.getLast?_cons_cons]

/-- An 8-byte constant that starts in the last slot is the last one. -/
theorem fills_one_cons_wide_iff {entry : Entry} {entries : List Entry}
    (h : entry.tag.isWide = true) : Fills 1 (entry :: entries) ↔ entries = [] := by
  have htwo : entry.tag.slotCount = 2 := by simp [Tag.slotCount, h]
  rw [Fills, slotTotal, htwo]
  cases entries with
  | nil => simp [slotTotal, h]
  | cons second entries =>
    rw [slotTotal, Tag.slotCount]
    split <;> simp <;> omega

/-- Constants that fill the slots are read into them. -/
theorem decodes_slotsOnto (entries : List Entry) {left : Nat} (h : Fills left entries)
    (slots : Array Slot) (offset : Nat) :
    Decodes offset (ClassFile.slotsOnto left slots) (entries.flatMap Entry.bytes)
      (slotsFrom slots.size entries >>= fun more => pure (slots ++ (more.take left).toArray)) := by
  induction entries generalizing left slots offset with
  | nil =>
    obtain rfl := fills_nil_iff.mp h
    simpa [slotsFrom, ClassFile.slotsOnto, Decoder.pure_eq] using decodes_done offset slots
  | cons entry entries ih =>
    obtain _ | left := left
    · simp [fills_zero_iff] at h
    have htag : Tag.ofCode? entry.tag.code = some entry.tag := Tag.ofCode?_eq_some_iff.mpr rfl
    simp only [List.flatMap_cons, Entry.bytes, List.append_assoc, slotsFrom,
      LawfulMonad.bind_assoc, LawfulMonad.pure_bind]
    rw [ClassFile.slotsOnto]
    refine .bind_pure (decodes_word8 _ _) ?_
    simp only [htag]
    refine (entry.decodes_payload _ _).bind fun slot _ => ?_
    cases hwide : entry.tag.isWide with
    | false =>
      have htail := ih ((fills_cons_narrow_iff hwide).mp h) (slots.push slot)
      simpa [Tag.slotCount, hwide] using htail _
    | true =>
      obtain _ | left := left
      · obtain rfl := (fills_one_cons_wide_iff hwide).mp h
        simpa [slotsFrom, Decoder.pure_eq] using decodes_done _ (slots.push slot)
      · have htail := ih ((fills_cons_wide_iff hwide).mp h) ((slots.push slot).push .shadowed)
        simpa [Tag.slotCount, hwide] using htail _

/-! ## Pools -/

namespace Pool

/-- The pool, or the error for its first malformed text. -/
def outcome (pool : Pool) : Logged ConstantPool := do
  let slots ← slotsFrom 1 pool.entries
  return ⟨((.vacant :: slots).take (max pool.count.toNat 1)).toArray⟩

/-- A constant takes at least one byte for each of its slots. -/
theorem slotTotal_le_length (entries : List Entry) :
    slotTotal entries ≤ (entries.flatMap Entry.bytes).length := by
  induction entries with
  | nil => simp [slotTotal]
  | cons entry entries ih =>
    have hone : entry.tag.slotCount ≤ entry.bytes.length := by
      cases entry <;> simp [Entry.tag, Tag.slotCount, Tag.isWide, Entry.bytes, Entry.payload]
    rw [slotTotal, List.flatMap_cons, List.length_append]
    omega

/-- A pool that is written is read, or the first of its malformed texts is the error. -/
theorem decodes_constantPool (offset : Nat) (pool : Pool) :
    Decodes offset ClassFile.constantPool pool.bytes pool.outcome := by
  have hfills : Fills (pool.count.toNat - 1) pool.entries := by
    have hmax : max pool.count.toNat 1 - 1 = pool.count.toNat - 1 := by omega
    exact hmax ▸ pool.fills
  have hmax : max pool.count.toNat 1 = pool.count.toNat - 1 + 1 := by omega
  refine .bind_pure (decodes_word16 _ _) (decodes_require_bind ?_ ?_)
  · have hle := slotTotal_le_length pool.entries
    rcases hfills with h | h <;> omega
  · have hslots := decodes_slotsOnto pool.entries hfills #[.vacant] (offset + 2)
    have hpool := hslots.bind_nil fun slots _ => decodes_done _ (ConstantPool.mk slots)
    rw [length_spell16]
    simpa [outcome, hmax, Decoder.pure_eq] using hpool

def Valid (pool : Pool) : Prop :=
  ∀ entry ∈ pool.entries, entry.Valid

theorem result_outcome_eq_ok_iff {pool : Pool} {read : ConstantPool} :
    pool.outcome.result = .ok read ↔ pool.Valid ∧ read = pool.constantPool := by
  simp only [outcome, Logged.result_bind_eq_ok_iff, result_slotsFrom_eq_ok_iff, Logged.result_pure]
  constructor
  · rintro ⟨_, ⟨hvalid, rfl⟩, hread⟩
    exact ⟨hvalid, (Except.ok.inj hread).symm⟩
  · rintro ⟨hvalid, rfl⟩
    exact ⟨_, ⟨hvalid, rfl⟩, rfl⟩

/-- The text at an index, as the walk looks it up. -/
def resolve (pool : Pool) (index : UInt16) : Logged String :=
  .ofExcept .pool (pool.constantPool.utf8 index)

theorem decodes_indexedText (offset : Nat) (pool : Pool) (index : UInt16) :
    Decodes offset (ClassFile.indexedText pool.constantPool) (spell16 index)
      (pool.resolve index) := by
  refine .bind_pure_nil (decodes_word16 _ _) ?_
  exact decodes_ofExcept _ _ _

theorem utf8_constantPool_eq_ok_iff {pool : Pool} {index : UInt16} {text : String} :
    pool.constantPool.utf8 index = .ok text ↔ pool.text? index = some text := by
  rw [(ConstantPool.answers_utf8 _ _).ok, ConstantPool.Holds, constantPool, Pool.text?,
    List.getElem?_toArray]
  cases pool.slots[index.toNat]? with
  | none => simp
  | some slot =>
    cases slot with
    | holds constant => cases constant <;> simp
    | _ => simp

theorem result_resolve_eq_ok_iff {pool : Pool} {index : UInt16} {text : String} :
    (pool.resolve index).result = .ok text ↔ pool.text? index = some text := by
  rw [← utf8_constantPool_eq_ok_iff, Pool.resolve, Logged.result_ofExcept_eq_ok_iff]

theorem eq_of_result_resolve {pool : Pool} {index : UInt16} {text expected : String}
    (htext : (pool.resolve index).result = .ok text) (h : pool.text? index = some expected) :
    text = expected := by
  rw [result_resolve_eq_ok_iff.mp htext] at h
  exact Option.some.inj h

theorem ne_of_result_resolve {pool : Pool} {index : UInt16} {text expected : String}
    (htext : (pool.resolve index).result = .ok text) (h : pool.text? index ≠ some expected) :
    text ≠ expected := by
  rintro rfl
  exact h (result_resolve_eq_ok_iff.mp htext)

end Pool

end ClassOutline.Image
