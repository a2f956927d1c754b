import ClassOutline.Proofs.Decoder.Rejecting
import ClassOutline.Proofs.Image.Accepting
import Mathlib.Algebra.GroupWithZero.Nat

/-!
# The layout of a constant pool

Where the constants of a pool lie: each takes its slots right after those of the constants before
it, the first one from slot 1 on, and together they fill the pool, whose last slot may hold an
8-byte constant alone. What a look-up finds follows for every index (`Pool.LaidOut`). Reading that
cannot go on has come upon an obstacle where the next constant would start, and the error has its
slot (`Obstacle`). Main statement: `constantPool_layout`.
-/

namespace ClassOutline

/-- Constants of this kind are kept; of all others only the bytes are passed over. -/
def Tag.isKept : Tag → Bool
  | utf8 | string | methodRef | interfaceMethodRef | nameAndType | methodHandle | methodType => true
  | classRef | fieldRef | integer | float | long | double | invokeDynamic => false

namespace Image

open Decoder

/-! ## What is kept of a constant -/

namespace Entry

/-- The constant that is kept for an entry: its text decoded, its numbers as they are written. -/
inductive Holds : Entry → Constant → Prop where
  | utf8 {payload : Counted 2 UInt8} {text : String}
      (decoded : Text.ModifiedUtf8.decode payload.items = .ok text) :
      Holds (.utf8 payload) (.utf8 text)
  | string {text : UInt16} : Holds (.string text) (.string text)
  | methodRef {owner member : UInt16} : Holds (.methodRef owner member) (.methodRef owner member)
  | interfaceMethodRef {owner member : UInt16} :
      Holds (.interfaceMethodRef owner member) (.interfaceMethodRef owner member)
  | nameAndType {name descriptor : UInt16} :
      Holds (.nameAndType name descriptor) (.nameAndType name descriptor)
  | methodHandle {kind : UInt8} {reference : UInt16} :
      Holds (.methodHandle kind reference) (.methodHandle kind reference)
  | methodType {descriptor : UInt16} : Holds (.methodType descriptor) (.methodType descriptor)

variable {entry : Entry} {constant : Constant}

theorem Holds.slot_eq (h : entry.Holds constant) : entry.slot = .holds constant := by
  cases h with
  | utf8 decoded => rw [slot, decoded]
  | _ => rfl

/-- A constant of a kind that is kept is kept. -/
theorem exists_holds (valid : entry.Valid) (kept : entry.tag.isKept = true) :
    ∃ constant, entry.Holds constant := by
  cases entry with
  | utf8 payload =>
    obtain ⟨text, decoded⟩ := valid
    exact ⟨.utf8 text, .utf8 decoded⟩
  | string text => exact ⟨_, .string⟩
  | methodRef owner member => exact ⟨_, .methodRef⟩
  | interfaceMethodRef owner member => exact ⟨_, .interfaceMethodRef⟩
  | nameAndType name descriptor => exact ⟨_, .nameAndType⟩
  | methodHandle kind reference => exact ⟨_, .methodHandle⟩
  | methodType descriptor => exact ⟨_, .methodType⟩
  | integer | float | long | double | classRef | fieldRef | invokeDynamic => cases kept

theorem slot_eq_vacant (unkept : entry.tag.isKept = false) : entry.slot = .vacant := by
  cases entry with
  | integer | float | long | double | classRef | fieldRef | invokeDynamic => rfl
  | _ => cases unkept

theorem length_slots (entry : Entry) : entry.slots.length = entry.tag.slotCount := by
  rw [slots, Tag.slotCount]
  split <;> rfl

theorem slotCount_pos (entry : Entry) : 0 < entry.tag.slotCount := by
  rw [Tag.slotCount]
  split <;> decide

theorem getElem?_slots_zero (entry : Entry) : entry.slots[0]? = some entry.slot := by
  rw [slots]
  split <;> rfl

theorem getElem?_slots_one (wide : entry.tag.isWide = true) : entry.slots[1]? = some .shadowed := by
  rw [slots, if_pos wide]
  rfl

end Entry

/-! ## Slots of constants in sequence -/

variable {entries : List Entry} {entry : Entry} {place part left : Nat}

theorem length_flatMap_slots (entries : List Entry) :
    (entries.flatMap Entry.slots).length = slotTotal entries := by
  induction entries with
  | nil => rfl
  | cons entry entries ih =>
    rw [List.flatMap_cons, List.length_append, ih, entry.length_slots, slotTotal]

/-- The slots of a constant come after those of the constants before it. -/
theorem getElem?_flatMap_slots (h : entries[place]? = some entry)
    (hpart : part < entry.tag.slotCount) :
    (entries.flatMap Entry.slots)[slotTotal (entries.take place) + part]? = entry.slots[part]? := by
  induction entries generalizing place with
  | nil => simp at h
  | cons first entries ih =>
    rw [List.flatMap_cons]
    cases place with
    | zero =>
      obtain rfl : first = entry := by simpa using h
      have hlt : part < first.slots.length := by rwa [first.length_slots]
      rw [List.take_zero, slotTotal, Nat.zero_add, List.getElem?_append_left hlt]
    | succ place =>
      rw [List.take_succ_cons, slotTotal, ← first.length_slots, Nat.add_assoc,
        List.getElem?_append_right (Nat.le_add_right ..), Nat.add_sub_cancel_left]
      exact ih h

/-- Every slot is one of a constant. -/
theorem exists_place_of_lt {index : Nat} (h : index < slotTotal entries) :
    ∃ place entry part, entries[place]? = some entry ∧ part < entry.tag.slotCount ∧
      index = slotTotal (entries.take place) + part := by
  induction entries generalizing index with
  | nil => exact absurd h (Nat.not_lt_zero index)
  | cons first entries ih =>
    rw [slotTotal] at h
    by_cases hfirst : index < first.tag.slotCount
    · exact ⟨0, first, index, rfl, hfirst, by simp [slotTotal]⟩
    · have hrest : index - first.tag.slotCount < slotTotal entries := by omega
      obtain ⟨place, entry, part, hentry, hpart, hindex⟩ := ih hrest
      refine ⟨place + 1, entry, part, hentry, hpart, ?_⟩
      rw [List.take_succ_cons, slotTotal]
      omega

/-- Constants that fill a number of slots all start in one of them. -/
theorem Fills.slotTotal_take_lt (h : Fills left entries) (hplace : place < entries.length) :
    slotTotal (entries.take place) < left := by
  induction entries generalizing left place with
  | nil => exact absurd hplace (Nat.not_lt_zero place)
  | cons entry entries ih =>
    obtain _ | left := left
    · simp [fills_zero_iff] at h
    cases place with
    | zero => exact Nat.succ_pos left
    | succ place =>
      have hrest : place < entries.length := Nat.lt_of_succ_lt_succ hplace
      rw [List.take_succ_cons, slotTotal, Tag.slotCount]
      cases hwide : entry.tag.isWide with
      | false =>
        have hlt := ih ((fills_cons_narrow_iff hwide).mp h) hrest
        simp
        omega
      | true =>
        obtain _ | left := left
        · obtain rfl := (fills_one_cons_wide_iff hwide).mp h
          exact absurd hrest (Nat.not_lt_zero place)
        · have hlt := ih ((fills_cons_wide_iff hwide).mp h) hrest
          simp
          omega

/-! ## Layout -/

/-- The slot in which the constant in the given place starts. -/
def startSlot (entries : List Entry) (place : Nat) : Nat :=
  1 + slotTotal (entries.take place)

/-- What there is to find in a pool of constants that was read. -/
structure Pool.LaidOut (pool : Pool) (read : ConstantPool) : Prop where
  size : read.slots.size = max pool.count.toNat 1
  /-- The number of slots does not wrap around. -/
  count : read.count.toNat = max pool.count.toNat 1
  zero : read.get 0 = .error (.vacant 0)
  /-- Every constant starts in the pool, after the slots of those before it. -/
  within : ∀ place < pool.entries.length,
    startSlot pool.entries place < max pool.count.toNat 1
  kept : ∀ (place : Nat) (entry : Entry) (index : UInt16), pool.entries[place]? = some entry →
    index.toNat = startSlot pool.entries place → entry.tag.isKept = true →
      ∃ constant, entry.Holds constant ∧ read.get index = .ok constant
  unkept : ∀ (place : Nat) (entry : Entry) (index : UInt16), pool.entries[place]? = some entry →
    index.toNat = startSlot pool.entries place → entry.tag.isKept = false →
      read.get index = .error (.vacant index)
  second : ∀ (place : Nat) (entry : Entry) (index : UInt16), pool.entries[place]? = some entry →
    index.toNat = startSlot pool.entries place + 1 → entry.tag.isWide = true →
    index.toNat < max pool.count.toNat 1 → read.get index = .error (.shadowed index)
  /-- There are no other slots. -/
  covered : ∀ index, index < max pool.count.toNat 1 → index = 0 ∨
    ∃ place entry, pool.entries[place]? = some entry ∧
      (index = startSlot pool.entries place ∨
        entry.tag.isWide = true ∧ index = startSlot pool.entries place + 1)
  beyond : ∀ index : UInt16, max pool.count.toNat 1 ≤ index.toNat →
    ∃ count : UInt16, count.toNat = max pool.count.toNat 1 ∧
      read.get index = .error (.outOfBounds index count)

namespace Pool

variable {pool : Pool} {index : UInt16}

theorem max_sub_one_le_slotTotal (pool : Pool) :
    max pool.count.toNat 1 - 1 ≤ slotTotal pool.entries := by
  rcases pool.fills with h | h <;> omega

/-- A pool has as many slots as its count says, and one at least. -/
theorem length_slots (pool : Pool) : pool.slots.length = max pool.count.toNat 1 := by
  have hle := pool.max_sub_one_le_slotTotal
  rw [slots, List.length_take, List.length_cons, length_flatMap_slots]
  omega

/-- The count of a pool that was read is its number of slots. -/
theorem toNat_count_constantPool (pool : Pool) :
    pool.constantPool.count.toNat = max pool.count.toNat 1 := by
  have hlt := pool.count.toNat_lt
  have hfits : max pool.count.toNat 1 < UInt16.size := by
    rw [UInt16.size]
    omega
  rw [ConstantPool.count, constantPool, List.size_toArray, length_slots,
    UInt16.toNat_ofNat_of_lt' hfits]

/-- The slots of a constant in the pool, as far as the pool goes. -/
theorem getElem?_slots_constantPool (h : pool.entries[place]? = some entry)
    (hpart : part < entry.tag.slotCount)
    (hindex : index.toNat = startSlot pool.entries place + part)
    (hlt : index.toNat < max pool.count.toNat 1) :
    pool.constantPool.slots[index.toNat]? = entry.slots[part]? := by
  rw [constantPool, List.getElem?_toArray, slots, List.getElem?_take_of_lt hlt, hindex, startSlot,
    Nat.add_assoc, Nat.add_comm 1, List.getElem?_cons_succ]
  exact getElem?_flatMap_slots h hpart

theorem startSlot_lt (hplace : place < pool.entries.length) :
    startSlot pool.entries place < max pool.count.toNat 1 := by
  have hlt := pool.fills.slotTotal_take_lt hplace
  rw [startSlot]
  omega

/-- A constant is in the slot in which it starts. -/
theorem getElem?_startSlot (h : pool.entries[place]? = some entry)
    (hindex : index.toNat = startSlot pool.entries place) :
    pool.constantPool.slots[index.toNat]? = some entry.slot := by
  obtain ⟨hplace, -⟩ := List.getElem?_eq_some_iff.mp h
  have hlt := startSlot_lt hplace
  rw [getElem?_slots_constantPool h entry.slotCount_pos hindex (hindex ▸ hlt),
    entry.getElem?_slots_zero]

/-- Every slot but the first one is that of a constant, or the second one of it. -/
theorem covered_of_lt {index : Nat} (h : index < max pool.count.toNat 1) :
    index = 0 ∨ ∃ place entry, pool.entries[place]? = some entry ∧
      (index = startSlot pool.entries place ∨
        entry.tag.isWide = true ∧ index = startSlot pool.entries place + 1) := by
  rcases Nat.eq_zero_or_pos index with hzero | hpos
  · exact .inl hzero
  · have hle := pool.max_sub_one_le_slotTotal
    have hlt : index - 1 < slotTotal pool.entries := by omega
    obtain ⟨place, entry, part, hentry, hpart, hindex⟩ := exists_place_of_lt hlt
    refine .inr ⟨place, entry, hentry, ?_⟩
    rw [Tag.slotCount] at hpart
    rw [startSlot]
    split at hpart
    · rename_i hwide
      rw [and_iff_right hwide]
      omega
    · omega

/-- In a pool whose texts can be decoded, constants are where the lay-out says. -/
theorem Valid.laidOut (h : pool.Valid) : pool.LaidOut pool.constantPool where
  size := by rw [constantPool, List.size_toArray, length_slots]
  count := pool.toNat_count_constantPool
  zero := by
    have hpos : 0 < max pool.count.toNat 1 := by omega
    have hslot : pool.constantPool.slots[(0 : UInt16).toNat]? = some .vacant := by
      rw [constantPool, List.getElem?_toArray, slots]
      exact List.getElem?_take_of_lt hpos
    exact ConstantPool.get_eq_error_iff.mpr (.vacant hslot)
  within place hplace := startSlot_lt hplace
  kept place entry index hentry hindex hkept := by
    obtain ⟨constant, hholds⟩ := entry.exists_holds (h entry (List.mem_of_getElem? hentry)) hkept
    refine ⟨constant, hholds, ConstantPool.get_eq_ok_iff.mpr ?_⟩
    rw [ConstantPool.Holds, getElem?_startSlot hentry hindex, hholds.slot_eq]
  unkept place entry index hentry hindex hunkept := by
    refine ConstantPool.get_eq_error_iff.mpr (.vacant ?_)
    rw [getElem?_startSlot hentry hindex, Entry.slot_eq_vacant hunkept]
  second place entry index hentry hindex hwide hlt := by
    have hpart : 1 < entry.tag.slotCount := by simp [Tag.slotCount, hwide]
    refine ConstantPool.get_eq_error_iff.mpr (.shadowed ?_)
    rw [getElem?_slots_constantPool hentry hpart hindex hlt, Entry.getElem?_slots_one hwide]
  covered index hlt := covered_of_lt hlt
  beyond index hle := by
    have hsize : pool.constantPool.slots.size = max pool.count.toNat 1 := by
      rw [constantPool, List.size_toArray, length_slots]
    have hcount := pool.toNat_count_constantPool
    refine ⟨_, hcount, ConstantPool.get_eq_error_iff.mpr (.outOfBounds ?_ ?_)⟩
    · rw [hcount, hsize]
    · exact UInt16.le_iff_toNat_le.mpr (hcount ▸ hle)

end Pool

/-! ## Obstacles -/

/-- Where a constant should start, with `index` for its slot, stands what cannot be one: a byte that
announces no constant, or a text that cannot be decoded. The error tells which, and the slot. -/
inductive Obstacle (index : UInt16) : DecodeError → List UInt8 → Prop where
  | unknownTag {code : UInt8} (unknown : Tag.ofCode? code = none) (rest : List UInt8) :
      Obstacle index (.unknownTag code index) (code :: rest)
  | malformedText {payload : Counted 2 UInt8} {offset : Nat}
      (malformed : Text.ModifiedUtf8.decode payload.items = .error offset) (rest : List UInt8) :
      Obstacle index (.malformedText index offset) ((Entry.utf8 payload).bytes ++ rest)

theorem spell8_eq (byte : UInt8) : spell8 byte = [byte] := by
  simp [spell8, toBigEndian]

theorem total_unneeded (size : Nat) : Total (ClassFile.unneeded size) :=
  (total_skip size).bind (accepts_skip size) fun _ _ _ => total_done _

theorem total_word16_bind {α : Type} {f : UInt16 → Decoder α} (h : ∀ word, Total (f word)) :
    Total (word16 >>= f) :=
  total_word16.bind accepts_word16 fun word _ _ => h word

/-- Of all payloads only a text can be wrong. -/
theorem rejects_payload (index : UInt16) (tag : Tag) :
    Rejects (ClassFile.payload index tag) fun error input =>
      Obstacle index error (spell8 tag.code ++ input) := by
  cases tag with
  | utf8 =>
    refine total_word16.bind accepts_word16 ?_
    rintro count _ rfl
    refine (total_bytes _).bind (accepts_take _) ?_
    rintro read _ ⟨rfl, hlength⟩
    obtain ⟨payload, rfl, hcount⟩ := Counted.exists_of_length16 hlength
    refine Rejects.bind ?_ (accepts_ofExcept _ _) fun _ _ _ => (total_done _).rejects _
    refine (rejects_ofExcept _ _).mono ?_
    rintro _ rest ⟨offset, hmalformed, rfl⟩
    have hobstacle : Obstacle index _ ((Entry.utf8 payload).bytes ++ rest) :=
      .malformedText hmalformed rest
    simpa [Entry.bytes, Entry.payload, Entry.tag, hcount] using hobstacle
  | methodRef | interfaceMethodRef | nameAndType =>
    refine Total.rejects ?_ _
    exact total_word16_bind fun _ => total_word16_bind fun _ => total_done _
  | methodHandle =>
    refine Total.rejects ?_ _
    exact total_word8.bind accepts_word8 fun _ _ _ => total_word16_bind fun _ => total_done _
  | string | methodType => exact (total_word16_bind fun _ => total_done _).rejects _
  | classRef => exact (total_unneeded 2).rejects _
  | fieldRef | integer | float | invokeDynamic => exact (total_unneeded 4).rejects _
  | long | double => exact (total_unneeded 8).rejects _

/-- What is read as a payload belongs to a constant that makes sense. -/
theorem accepts_payload_valid (index : UInt16) (tag : Tag) :
    Accepts (ClassFile.payload index tag) fun _ text =>
      ∃ entry : Entry, entry.tag = tag ∧ text = entry.payload ∧ entry.Valid := by
  refine (accepts_payload index tag).and_result.mono ?_
  rintro slot _ ⟨⟨entry, rfl, rfl⟩, hresult⟩
  have houtcome := hresult (entry.outcome index) fun offset => entry.decodes_payload offset index
  exact ⟨entry, rfl, rfl, (Entry.result_outcome_eq_ok_iff.mp houtcome).1⟩

/-- Constants were read that do not fill `left` slots, and then comes an obstacle. Their slots start
with `first`. -/
def Obstructed (first left : Nat) (error : DecodeError) (input : List UInt8) : Prop :=
  ∃ entries rest, input = entries.flatMap Entry.bytes ++ rest ∧ (∀ entry ∈ entries, entry.Valid) ∧
    slotTotal entries < left ∧ Obstacle (UInt16.ofNat (first + slotTotal entries)) error rest

/-- One more constant before the obstacle. -/
theorem Obstructed.cons {first first' left' : Nat} {error : DecodeError} {input : List UInt8}
    (h : Obstructed first' left' error input) (valid : entry.Valid)
    (hfirst : first' = first + entry.tag.slotCount) (hleft : left = entry.tag.slotCount + left') :
    Obstructed first left error (spell8 entry.tag.code ++ (entry.payload ++ input)) := by
  obtain ⟨entries, rest, rfl, hvalid, hlt, hobstacle⟩ := h
  refine ⟨entry :: entries, rest, ?_, List.forall_mem_cons.mpr ⟨valid, hvalid⟩, ?_, ?_⟩
  · simp [Entry.bytes]
  · rw [slotTotal]
    omega
  · rwa [slotTotal, ← Nat.add_assoc, ← hfirst]

/-- Where constants cannot be read, and not for want of bytes, there is an obstacle among them. -/
theorem rejects_slotsOnto (left : Nat) (slots : Array Slot) :
    Rejects (ClassFile.slotsOnto left slots) (Obstructed slots.size left) := by
  -- a constant leaves one or two slots fewer, so the induction is over all smaller numbers
  induction left using Nat.strongRecOn generalizing slots with
  | ind left ih =>
    obtain _ | left := left
    · exact (total_done slots).rejects _
    rw [ClassFile.slotsOnto]
    refine total_word8.bind accepts_word8 ?_
    rintro code _ rfl
    cases htag : Tag.ofCode? code with
    | none =>
      refine (rejects_fail _).mono ?_
      rintro _ input rfl
      have hobstacle : Obstacle (UInt16.ofNat slots.size) _ (code :: input) :=
        .unknownTag htag input
      exact ⟨[], code :: input, by simp [spell8_eq], by simp, Nat.succ_pos left, hobstacle⟩
    | some tag =>
      obtain rfl := Tag.ofCode?_eq_some_iff.mp htag
      refine Rejects.bind ?_ (accepts_payload_valid _ tag) ?_
      · refine (rejects_payload _ tag).mono fun error input hobstacle => ?_
        exact ⟨[], _, rfl, by simp, Nat.succ_pos left, hobstacle⟩
      · rintro slot _ ⟨entry, rfl, rfl, hvalid⟩
        cases hwide : entry.tag.isWide with
        | false =>
          refine (ih left (by omega) _).mono fun error input h => ?_
          exact h.cons hvalid (by simp [Tag.slotCount, hwide])
            (by simp [Tag.slotCount, hwide]; omega)
        | true =>
          obtain _ | left := left
          · exact (total_done _).rejects _
          · refine (ih left (by omega) _).mono fun error input h => ?_
            exact h.cons hvalid (by simp [Tag.slotCount, hwide])
              (by simp [Tag.slotCount, hwide]; omega)

/-! ## Reading a pool -/

/-- What is read before an obstacle in a pool that has the given count. -/
theorem rejects_constantPool :
    Rejects ClassFile.constantPool fun error input =>
      ∃ (count : UInt16) (rest : List UInt8), input = spell16 count ++ rest ∧
        Obstructed 1 (count.toNat - 1) error rest := by
  refine total_word16.bind accepts_word16 ?_
  rintro count _ rfl
  refine (total_require _).bind (accepts_require _) ?_
  rintro _ _ ⟨-, rfl⟩
  refine Rejects.bind ?_ (accepts_slotsOnto _ _) fun _ _ _ => (total_done _).rejects _
  exact (rejects_slotsOnto _ _).mono fun error rest h => ⟨count, rest, rfl, h⟩

theorem length_pool_bytes (pool : Pool) :
    pool.bytes.length = 2 + (pool.entries.map fun entry => entry.bytes.length).sum := by
  rw [Pool.bytes, List.length_append, length_spell16, List.length_flatMap]

/-- Three facts about reading a constant pool. Where a pool of any constants stands whose texts can
be decoded, it is read: what look-ups find is laid out as it must be, and the walk goes on after the
count and the constants. Nothing else is read as a pool. An error, unless the input is too short,
tells of an obstacle after some of the constants, where there was room for one more, and has the
slot in which that would have started. -/
theorem constantPool_layout (offset : Nat) (log : Array Record) :
    (∀ (pool : Pool) (rest : List UInt8), pool.Valid →
      let run := ClassFile.constantPool.run (.of offset (pool.bytes ++ rest)) log
      ∃ read, run.result = .ok read ∧ pool.LaidOut read ∧ run.stop =
        .of (offset + 2 + (pool.entries.map fun entry => entry.bytes.length).sum) rest) ∧
    (∀ (input : List UInt8) (read : ConstantPool),
      (ClassFile.constantPool.run (.of offset input) log).result = .ok read →
        ∃ (pool : Pool) (rest : List UInt8), input = pool.bytes ++ rest ∧ pool.Valid) ∧
    ∀ (input : List UInt8) (error : DecodeError),
      let run := ClassFile.constantPool.run (.of offset input) log
      run.result = .error error → ¬Truncated run.result →
        ∃ (count : UInt16) (entries : List Entry) (rest : List UInt8) (index : UInt16),
          input = spell16 count ++ (entries.flatMap Entry.bytes ++ rest) ∧
          (∀ entry ∈ entries, entry.Valid) ∧ index.toNat = startSlot entries entries.length ∧
          index.toNat < max count.toNat 1 ∧ Obstacle index error rest := by
  refine ⟨?_, ?_, ?_⟩
  · intro pool rest hvalid
    obtain ⟨hresult, -, hstop⟩ := pool.decodes_constantPool offset rest log
    have hok := Pool.result_outcome_eq_ok_iff.mpr ⟨hvalid, rfl⟩
    refine ⟨pool.constantPool, hresult.trans hok, hvalid.laidOut, ?_⟩
    rw [hstop _ hok, length_pool_bytes, Nat.add_assoc]
  · intro input read hread
    obtain ⟨_, rest, rfl, -, pool, rfl, rfl⟩ := accepts_constantPool offset input log read hread
    obtain ⟨hresult, -, -⟩ := pool.decodes_constantPool offset rest log
    rw [hread] at hresult
    exact ⟨pool, rest, rfl, (Pool.result_outcome_eq_ok_iff.mp hresult.symm).1⟩
  · intro input error run herror hlong
    obtain ⟨count, _, rfl, entries, rest, rfl, hvalid, hlt, hobstacle⟩ :=
      rejects_constantPool offset input log error herror hlong
    have hcount := count.toNat_lt
    have hindex : (UInt16.ofNat (1 + slotTotal entries)).toNat = 1 + slotTotal entries :=
      UInt16.toNat_ofNat_of_lt' (by rw [UInt16.size]; omega)
    refine ⟨count, entries, rest, _, rfl, hvalid, ?_, ?_, hobstacle⟩
    · rw [hindex, startSlot, List.take_length]
    · omega

end Image

end ClassOutline
