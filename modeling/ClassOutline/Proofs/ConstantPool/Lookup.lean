import ClassOutline.ConstantPool.Basic

/-!
# What look-ups answer

A look-up by kind gives the payload of the constant in a slot if the constant is of that kind, and
otherwise tells the state of the slot (`Fault`). What stands behind another constant takes one more
look-up for every text, and nothing is followed any further. The rule for results in sequence
(`Answers.bind`) tells both sides at once: which values there are, and which errors. Main statement:
of any slots, however many and whatever is kept in the first one, look-ups answer this and nothing
else (`lookups_exact`).
-/

namespace ClassOutline

/-! ## Answers -/

section Answers

variable {ε α β : Type} {result : Except ε α} {f : α → Except ε β}

theorem bind_eq_ok_iff {value : β} :
    (result >>= f) = .ok value ↔ ∃ first, result = .ok first ∧ f first = .ok value := by
  cases result <;> simp [bind, Except.bind]

theorem bind_eq_error_iff {error : ε} :
    (result >>= f) = .error error ↔
      result = .error error ∨ ∃ first, result = .ok first ∧ f first = .error error := by
  cases result <;> simp [bind, Except.bind]

/-- The values that the result may be are those that `gives` tells, and its errors those that
`fails` tells. -/
structure Answers (result : Except ε α) (gives : α → Prop) (fails : ε → Prop) : Prop where
  ok : ∀ value, result = .ok value ↔ gives value
  error : ∀ error, result = .error error ↔ fails error

variable {gives gives' : α → Prop} {fails fails' : ε → Prop}

theorem Answers.congr (h : Answers result gives fails)
    (hgives : ∀ value, gives value ↔ gives' value)
    (hfails : ∀ error, fails error ↔ fails' error) : Answers result gives' fails' :=
  ⟨fun value => (h.ok value).trans (hgives value),
    fun error => (h.error error).trans (hfails error)⟩

theorem answers_pure (value : α) :
    Answers (pure value : Except ε α) (value = ·) fun _ => False := by
  constructor
  · intro other
    simp [pure, Except.pure]
  · intro error
    simp [pure, Except.pure]

/-- Results in sequence: there is a value where both have one, and the first error ends all. -/
theorem Answers.bind {gives' : α → β → Prop} {fails' : α → ε → Prop}
    (h : Answers result gives fails)
    (hf : ∀ first, gives first → Answers (f first) (gives' first) (fails' first)) :
    Answers (result >>= f) (fun value => ∃ first, gives first ∧ gives' first value)
      fun error => fails error ∨ ∃ first, gives first ∧ fails' first error := by
  constructor
  · intro value
    simp only [bind_eq_ok_iff, h.ok]
    exact exists_congr fun first => and_congr_right fun hfirst => (hf first hfirst).ok value
  · intro error
    simp only [bind_eq_error_iff, h.ok, h.error]
    refine or_congr_right (exists_congr fun first => and_congr_right fun hfirst => ?_)
    exact (hf first hfirst).error error

end Answers

/-! ## Kinds and their constants -/

/-- Only the slot after a constant counts as a long. -/
theorem Slot.tag?_eq_long_iff {slot : Slot} : slot.tag? = some .long ↔ slot = .shadowed := by
  rcases slot with _ | constant | _
  · simp [tag?]
  · cases constant <;> simp [tag?, Constant.tag]
  · simp [tag?]

theorem Constant.tag_ne_long (constant : Constant) : constant.tag ≠ .long := by
  intro h
  have hslot : (Slot.holds constant).tag? = some .long := congrArg some h
  cases Slot.tag?_eq_long_iff.mp hslot

/-- The constants of the kind are those that `make` makes, and their payloads are what they are made
of. -/
structure ConstantKind.Makes {α : Type} (kind : ConstantKind α) (make : α → Constant) : Prop where
  payload : ∀ constant value, kind.payload? constant = some value ↔ constant = make value
  tag : ∀ constant, kind.payload? constant = none ↔ constant.tag ≠ kind.tag

namespace ConstantKind

def read {α : Type} (kind : ConstantKind α) (index : UInt16) (constant : Constant) :
    Except PoolError α :=
  match kind.payload? constant with
  | some payload => .ok payload
  | none => .error (.unexpected index kind.tag constant.tag)

theorem Makes.answers_read {α : Type} {kind : ConstantKind α} {make : α → Constant}
    (makes : kind.Makes make) (index : UInt16) (constant : Constant) :
    Answers (kind.read index constant) (constant = make ·) fun error =>
      constant.tag ≠ kind.tag ∧ error = .unexpected index kind.tag constant.tag := by
  have hvalue := makes.payload constant
  have hother := makes.tag constant
  rw [read]
  cases hpayload : kind.payload? constant with
  | none =>
    have htag := hother.mp hpayload
    constructor
    · intro value
      simp [← hvalue, hpayload]
    · intro error
      simp [htag, eq_comm]
  | some payload =>
    have htag : constant.tag = kind.tag := by
      by_cases h : constant.tag = kind.tag
      · exact h
      · simp [hother.mpr h] at hpayload
    constructor
    · intro value
      simp [← hvalue, hpayload]
    · intro error
      simp [htag]

theorem makes_utf8 : utf8.Makes .utf8 := by
  constructor <;> intro constant <;> cases constant <;> simp [utf8, Constant.tag]

theorem makes_methodRef : methodRef.Makes fun ref => .methodRef ref.1 ref.2 := by
  constructor <;> intro constant <;> cases constant <;> simp [methodRef, Constant.tag, Prod.ext_iff]

theorem makes_interfaceMethodRef :
    interfaceMethodRef.Makes fun ref => .interfaceMethodRef ref.1 ref.2 := by
  constructor <;> intro constant <;> cases constant <;>
    simp [interfaceMethodRef, Constant.tag, Prod.ext_iff]

theorem makes_string : string.Makes .string := by
  constructor <;> intro constant <;> cases constant <;> simp [string, Constant.tag]

theorem makes_nameAndType : nameAndType.Makes fun pair => .nameAndType pair.1 pair.2 := by
  constructor <;> intro constant <;> cases constant <;>
    simp [nameAndType, Constant.tag, Prod.ext_iff]

theorem makes_methodHandle : methodHandle.Makes fun handle => .methodHandle handle.1 handle.2 := by
  constructor <;> intro constant <;> cases constant <;>
    simp [methodHandle, Constant.tag, Prod.ext_iff]

theorem makes_methodType : methodType.Makes .methodType := by
  constructor <;> intro constant <;> cases constant <;> simp [methodType, Constant.tag]

end ConstantKind

/-! ## States of slots -/

namespace ConstantPool

def Holds (pool : ConstantPool) (index : UInt16) (constant : Constant) : Prop :=
  pool.slots[index.toNat]? = some (.holds constant)

/-- Why no constant starts in the slot. The number of slots is told as it is. -/
inductive Absent (pool : ConstantPool) (index : UInt16) : PoolError → Prop where
  | outOfBounds {count : UInt16} (size : count.toNat = pool.slots.size) (beyond : count ≤ index) :
      Absent pool index (.outOfBounds index count)
  | vacant (slot : pool.slots[index.toNat]? = some .vacant) : Absent pool index (.vacant index)
  | shadowed (slot : pool.slots[index.toNat]? = some .shadowed) :
      Absent pool index (.shadowed index)

/-- Why no constant of the kind `expected` starts in the slot. -/
inductive Fault (pool : ConstantPool) (expected : Tag) (index : UInt16) : PoolError → Prop where
  | absent {error : PoolError} (h : pool.Absent index error) : Fault pool expected index error
  | unexpected {constant : Constant} (holds : pool.Holds index constant)
      (other : constant.tag ≠ expected) :
      Fault pool expected index (.unexpected index expected constant.tag)

variable {pool : ConstantPool} {index : UInt16}

/-- The count wraps around where there are more slots than a word can number. -/
theorem toNat_count (pool : ConstantPool) : pool.count.toNat = pool.slots.size % 65536 := by
  rw [count, UInt16.toNat_ofNat']

/-- An index that is out of bounds is greater than the number of slots is, so that this number does
not wrap around. -/
theorem toNat_count_of_le (h : pool.slots.size ≤ index.toNat) :
    pool.count.toNat = pool.slots.size := by
  have hlt := index.toNat_lt
  rw [toNat_count, Nat.mod_eq_of_lt (by omega)]

/-! ## One look-up -/

/-- A look-up finds the constant that starts in the slot. -/
theorem get_eq_ok_iff {constant : Constant} :
    pool.get index = .ok constant ↔ pool.Holds index constant := by
  rw [get, Holds]
  split <;> simp_all

/-- A look-up fails where no constant starts, and tells why. -/
theorem get_eq_error_iff {error : PoolError} :
    pool.get index = .error error ↔ pool.Absent index error := by
  constructor
  · intro h
    rw [get] at h
    split at h
    · rename_i hslot
      have hsize : pool.slots.size ≤ index.toNat := Array.getElem?_eq_none_iff.mp hslot
      have hcount := toNat_count_of_le hsize
      cases h
      exact .outOfBounds hcount (UInt16.le_iff_toNat_le.mpr (hcount ▸ hsize))
    · cases h
      exact .vacant ‹_›
    · cases h
      exact .shadowed ‹_›
    · cases h
  · intro h
    cases h with
    | outOfBounds size beyond =>
      have hsize : pool.slots.size ≤ index.toNat := size ▸ UInt16.le_iff_toNat_le.mp beyond
      rw [get, Array.getElem?_eq_none hsize]
      have hcount := (toNat_count_of_le hsize).trans size.symm
      rw [UInt16.toNat_inj.mp hcount]
    | vacant slot => rw [get, slot]
    | shadowed slot => rw [get, slot]

theorem answers_get (pool : ConstantPool) (index : UInt16) :
    Answers (pool.get index) (pool.Holds index) (pool.Absent index) :=
  ⟨fun _ => get_eq_ok_iff, fun _ => get_eq_error_iff⟩

/-- A look-up by kind is the look-up of a constant, and of its payload. -/
theorem lookup_eq {α : Type} (kind : ConstantKind α) :
    pool.lookup kind index = pool.get index >>= kind.read index := by
  rw [lookup]
  cases pool.get index with
  | error error => rfl
  | ok constant => rfl

/-- A look-up by kind tells the constant of that kind, or what keeps it from being there. -/
theorem answers_lookup {α : Type} {kind : ConstantKind α} {make : α → Constant}
    (makes : kind.Makes make) (pool : ConstantPool) (index : UInt16) :
    Answers (pool.lookup kind index) (fun value => pool.Holds index (make value))
      (pool.Fault kind.tag index) := by
  have hbind := (answers_get pool index).bind fun constant _ => makes.answers_read index constant
  rw [lookup_eq]
  refine hbind.congr ?_ ?_
  · intro value
    simp
  · intro error
    constructor
    · rintro (h | ⟨constant, hholds, hother, rfl⟩)
      · exact .absent h
      · exact .unexpected hholds hother
    · intro h
      cases h with
      | absent h => exact .inl h
      | unexpected holds other => exact .inr ⟨_, holds, other, rfl⟩

theorem answers_utf8 (pool : ConstantPool) (index : UInt16) :
    Answers (pool.utf8 index) (fun text => pool.Holds index (.utf8 text))
      (pool.Fault .utf8 index) :=
  answers_lookup ConstantKind.makes_utf8 pool index

/-! ## Look-ups behind a constant -/

/-- A string constant is followed to its text, and the fault may be in either slot. -/
theorem answers_string (pool : ConstantPool) (index : UInt16) :
    Answers (pool.string index)
      (fun text => ∃ target, pool.Holds index (.string target) ∧ pool.Holds target (.utf8 text))
      fun error => pool.Fault .string index error ∨
        ∃ target, pool.Holds index (.string target) ∧ pool.Fault .utf8 target error :=
  (answers_lookup ConstantKind.makes_string pool index).bind fun target _ =>
    answers_utf8 pool target

theorem answers_methodType (pool : ConstantPool) (index : UInt16) :
    Answers (pool.methodType index)
      (fun text => ∃ target, pool.Holds index (.methodType target) ∧ pool.Holds target (.utf8 text))
      fun error => pool.Fault .methodType index error ∨
        ∃ target, pool.Holds index (.methodType target) ∧ pool.Fault .utf8 target error :=
  (answers_lookup ConstantKind.makes_methodType pool index).bind fun target _ =>
    answers_utf8 pool target

/-- Two texts, of which the second one is looked up only behind a first one that is there. -/
theorem answers_texts (pool : ConstantPool) (name descriptor : UInt16) :
    Answers (do return (← pool.utf8 name, ← pool.utf8 descriptor))
      (fun texts => pool.Holds name (.utf8 texts.1) ∧ pool.Holds descriptor (.utf8 texts.2))
      fun error => pool.Fault .utf8 name error ∨
        (∃ text, pool.Holds name (.utf8 text)) ∧ pool.Fault .utf8 descriptor error := by
  have hbind := (answers_utf8 pool name).bind fun first _ =>
    (answers_utf8 pool descriptor).bind fun second _ => answers_pure (first, second)
  refine hbind.congr ?_ ?_
  · rintro ⟨first, second⟩
    simp
  · intro error
    simp

/-- Of two texts, the fault of the name is told first. -/
theorem answers_nameAndType (pool : ConstantPool) (index : UInt16) :
    Answers (pool.nameAndType index)
      (fun texts => ∃ name descriptor, pool.Holds index (.nameAndType name descriptor) ∧
        pool.Holds name (.utf8 texts.1) ∧ pool.Holds descriptor (.utf8 texts.2))
      fun error => pool.Fault .nameAndType index error ∨
        ∃ name descriptor, pool.Holds index (.nameAndType name descriptor) ∧
          (pool.Fault .utf8 name error ∨
            (∃ text, pool.Holds name (.utf8 text)) ∧ pool.Fault .utf8 descriptor error) := by
  have hpair : Answers (pool.lookup .nameAndType index)
      (fun pair => pool.Holds index (.nameAndType pair.1 pair.2)) (pool.Fault .nameAndType index) :=
    answers_lookup ConstantKind.makes_nameAndType pool index
  refine (hpair.bind fun pair _ => answers_texts pool pair.1 pair.2).congr ?_ ?_
  · intro texts
    simp only [Prod.exists]
  · intro error
    simp only [Prod.exists]

/-! ## All look-ups -/

/-- What look-ups at an index answer. -/
structure Exact (pool : ConstantPool) (index : UInt16) : Prop where
  get : Answers (pool.get index) (pool.Holds index) (pool.Absent index)
  utf8 : Answers (pool.utf8 index) (fun text => pool.Holds index (.utf8 text))
    (pool.Fault .utf8 index)
  methodRef : Answers (pool.lookup .methodRef index)
    (fun ref => pool.Holds index (.methodRef ref.1 ref.2)) (pool.Fault .methodRef index)
  interfaceMethodRef : Answers (pool.lookup .interfaceMethodRef index)
    (fun ref => pool.Holds index (.interfaceMethodRef ref.1 ref.2))
    (pool.Fault .interfaceMethodRef index)
  methodHandle : Answers (pool.lookup .methodHandle index)
    (fun handle => pool.Holds index (.methodHandle handle.1 handle.2))
    (pool.Fault .methodHandle index)
  string : Answers (pool.string index)
    (fun text => ∃ target, pool.Holds index (.string target) ∧ pool.Holds target (.utf8 text))
    fun error => pool.Fault .string index error ∨
      ∃ target, pool.Holds index (.string target) ∧ pool.Fault .utf8 target error
  methodType : Answers (pool.methodType index)
    (fun text => ∃ target, pool.Holds index (.methodType target) ∧ pool.Holds target (.utf8 text))
    fun error => pool.Fault .methodType index error ∨
      ∃ target, pool.Holds index (.methodType target) ∧ pool.Fault .utf8 target error
  /-- The fault of the name is told before that of the descriptor. -/
  nameAndType : Answers (pool.nameAndType index)
    (fun texts => ∃ name descriptor, pool.Holds index (.nameAndType name descriptor) ∧
      pool.Holds name (.utf8 texts.1) ∧ pool.Holds descriptor (.utf8 texts.2))
    fun error => pool.Fault .nameAndType index error ∨
      ∃ name descriptor, pool.Holds index (.nameAndType name descriptor) ∧
        (pool.Fault .utf8 name error ∨
          (∃ text, pool.Holds name (.utf8 text)) ∧ pool.Fault .utf8 descriptor error)

/-- Every look-up answers what is there. -/
theorem exact (pool : ConstantPool) (index : UInt16) : pool.Exact index where
  get := answers_get pool index
  utf8 := answers_utf8 pool index
  methodRef := answers_lookup ConstantKind.makes_methodRef pool index
  interfaceMethodRef := answers_lookup ConstantKind.makes_interfaceMethodRef pool index
  methodHandle := answers_lookup ConstantKind.makes_methodHandle pool index
  string := answers_string pool index
  methodType := answers_methodType pool index
  nameAndType := answers_nameAndType pool index

/-- Some look-up at the index ends with the error. -/
inductive Reports (pool : ConstantPool) (index : UInt16) (error : PoolError) : Prop where
  | get (h : pool.get index = .error error)
  | utf8 (h : pool.utf8 index = .error error)
  | methodRef (h : pool.lookup .methodRef index = .error error)
  | interfaceMethodRef (h : pool.lookup .interfaceMethodRef index = .error error)
  | methodHandle (h : pool.lookup .methodHandle index = .error error)
  | string (h : pool.string index = .error error)
  | methodType (h : pool.methodType index = .error error)
  | nameAndType (h : pool.nameAndType index = .error error)

/-- Every error is the fault of one slot. -/
theorem Reports.exists_fault {error : PoolError} (h : pool.Reports index error) :
    ∃ expected place, pool.Fault expected place error := by
  have hexact := pool.exact index
  cases h with
  | get h => exact ⟨.utf8, index, .absent ((hexact.get.error error).mp h)⟩
  | utf8 h => exact ⟨_, _, (hexact.utf8.error error).mp h⟩
  | methodRef h => exact ⟨_, _, (hexact.methodRef.error error).mp h⟩
  | interfaceMethodRef h => exact ⟨_, _, (hexact.interfaceMethodRef.error error).mp h⟩
  | methodHandle h => exact ⟨_, _, (hexact.methodHandle.error error).mp h⟩
  | string h =>
    rcases (hexact.string.error error).mp h with hfault | ⟨target, -, hfault⟩
    · exact ⟨_, _, hfault⟩
    · exact ⟨_, _, hfault⟩
  | methodType h =>
    rcases (hexact.methodType.error error).mp h with hfault | ⟨target, -, hfault⟩
    · exact ⟨_, _, hfault⟩
    · exact ⟨_, _, hfault⟩
  | nameAndType h =>
    rcases (hexact.nameAndType.error error).mp h with
      hfault | ⟨name, descriptor, -, hfault | ⟨-, hfault⟩⟩
    · exact ⟨_, _, hfault⟩
    · exact ⟨_, _, hfault⟩
    · exact ⟨_, _, hfault⟩

/-- A constant that refers to a slot with another constant than a text is not followed there. -/
structure Unfollowed (pool : ConstantPool) (target : UInt16) (found : Tag) : Prop where
  string : ∀ index, pool.Holds index (.string target) →
    pool.string index = .error (.unexpected target .utf8 found)
  methodType : ∀ index, pool.Holds index (.methodType target) →
    pool.methodType index = .error (.unexpected target .utf8 found)
  name : ∀ index descriptor, pool.Holds index (.nameAndType target descriptor) →
    pool.nameAndType index = .error (.unexpected target .utf8 found)
  descriptor : ∀ index name text, pool.Holds index (.nameAndType name target) →
    pool.Holds name (.utf8 text) → pool.nameAndType index = .error (.unexpected target .utf8 found)

/-- A constant that is no text is told of where it is referred to. -/
theorem Holds.unfollowed {target : UInt16} {constant : Constant} (h : pool.Holds target constant)
    (other : constant.tag ≠ .utf8) : pool.Unfollowed target constant.tag := by
  have hfault : pool.Fault .utf8 target (.unexpected target .utf8 constant.tag) :=
    .unexpected h other
  refine ⟨fun index hindex => ?_, fun index hindex => ?_, fun index descriptor hindex => ?_,
    fun index name text hindex hname => ?_⟩
  · exact ((pool.exact index).string.error _).mpr (.inr ⟨target, hindex, hfault⟩)
  · exact ((pool.exact index).methodType.error _).mpr (.inr ⟨target, hindex, hfault⟩)
  · refine ((pool.exact index).nameAndType.error _).mpr (.inr ⟨target, descriptor, hindex, ?_⟩)
    exact .inl hfault
  · refine ((pool.exact index).nameAndType.error _).mpr (.inr ⟨name, target, hindex, ?_⟩)
    exact .inr ⟨⟨text, hname⟩, hfault⟩

/-- In any slots, look-ups at any index answer what is there and nothing else, and the faults of
slots are told as they are. A constant of an unexpected kind is named by its own kind, which is
never that of the constant before a slot that cannot be used. A constant that is no text is not
followed where it is referred to, also if it refers to itself. An index that is out of bounds comes
with the number of slots, although the count is that number only up to 65536. -/
theorem lookups_exact (pool : ConstantPool) :
    (∀ index, pool.Exact index) ∧
    (∀ index place expected found, pool.Reports index (.unexpected place expected found) →
      ∃ constant, pool.Holds place constant ∧ found = constant.tag ∧ found ≠ expected ∧
        found ≠ .long) ∧
    (∀ target constant, pool.Holds target constant → constant.tag ≠ .utf8 →
      pool.Unfollowed target constant.tag) ∧
    (∀ index place count, pool.Reports index (.outOfBounds place count) →
      count.toNat = pool.slots.size ∧ count ≤ place) ∧
    pool.count.toNat = pool.slots.size % 65536 := by
  refine ⟨pool.exact, fun index place expected found h => ?_,
    fun target constant h other => h.unfollowed other, fun index place count h => ?_,
    pool.toNat_count⟩
  · obtain ⟨_, _, hfault⟩ := h.exists_fault
    cases hfault with
    | absent h => cases h
    | unexpected holds other => exact ⟨_, holds, rfl, other, Constant.tag_ne_long _⟩
  · obtain ⟨_, _, hfault⟩ := h.exists_fault
    cases hfault with
    | absent h =>
      cases h with
      | outOfBounds size beyond => exact ⟨size, beyond⟩

example : (ConstantPool.mk #[.vacant, .holds (.string 1)]).string 1 =
    .error (.unexpected 1 .utf8 .string) := by
  rfl

end ConstantPool

end ClassOutline
