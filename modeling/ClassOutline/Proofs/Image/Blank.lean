import ClassOutline.Proofs.Image.Outcome

/-!
# What nobody looks at

An image with everything set to zero that the walk passes over (`Image.blank`), all sizes and counts
kept. Images with the same blank are decoded alike, whatever follows them and whether or not they
make sense; flags of a method that differ show in the flags of that method only
(`result_decode_append_of_blank`).
-/

namespace ClassOutline

namespace Image

/-! ## The constant pool -/

/-- The constant without its payload, if that is not kept. -/
def Entry.blank : Entry → Entry
  | integer _ => integer 0
  | float _ => float 0
  | long _ => long 0
  | double _ => double 0
  | classRef _ => classRef 0
  | fieldRef _ _ => fieldRef 0 0
  | invokeDynamic _ _ => invokeDynamic 0 0
  | entry => entry

@[simp] theorem Entry.tag_blank (entry : Entry) : entry.blank.tag = entry.tag := by
  cases entry <;> rfl

@[simp] theorem Entry.slots_blank (entry : Entry) : entry.blank.slots = entry.slots := by
  cases entry <;> rfl

theorem Entry.outcome_blank (index : UInt16) (entry : Entry) :
    entry.blank.outcome index = entry.outcome index := by
  cases entry <;> rfl

theorem slotTotal_map_blank (entries : List Entry) :
    slotTotal (entries.map Entry.blank) = slotTotal entries := by
  induction entries with
  | nil => rfl
  | cons entry entries ih => rw [List.map_cons, slotTotal, slotTotal, ih, Entry.tag_blank]

theorem fills_map_blank_iff {left : Nat} {entries : List Entry} :
    Fills left (entries.map Entry.blank) ↔ Fills left entries := by
  have hlast : (entries.map Entry.blank).getLast?.any (·.tag.isWide) =
      entries.getLast?.any (·.tag.isWide) := by
    rw [List.getLast?_map]
    cases entries.getLast? <;> simp
  rw [Fills, Fills, slotTotal_map_blank, hlast]

theorem slotsFrom_map_blank (index : Nat) (entries : List Entry) :
    slotsFrom index (entries.map Entry.blank) = slotsFrom index entries := by
  induction entries generalizing index with
  | nil => rfl
  | cons entry entries ih =>
    rw [List.map_cons, slotsFrom, slotsFrom, Entry.outcome_blank, Entry.tag_blank, ih]

namespace Pool

/-- The pool without the payloads that are not kept. -/
def blank (pool : Pool) : Pool :=
  ⟨pool.count, pool.entries.map Entry.blank, fills_map_blank_iff.mpr pool.fills⟩

@[simp] theorem slots_blank (pool : Pool) : pool.blank.slots = pool.slots := by
  simp [slots, blank, List.flatMap_map]

@[simp] theorem text?_blank (pool : Pool) : pool.blank.text? = pool.text? := by
  funext index
  rw [text?, text?, slots_blank]

@[simp] theorem resolve_blank (pool : Pool) : pool.blank.resolve = pool.resolve := by
  funext index
  rw [resolve, resolve, constantPool, constantPool, slots_blank]

/-- A pool without the payloads that are not kept reads like the pool. -/
theorem outcome_blank (pool : Pool) : pool.blank.outcome = pool.outcome := by
  rw [outcome, outcome, blank, slotsFrom_map_blank]

end Pool

/-! ## Attributes -/

/-- As many bytes, all zero. -/
def Counted.blank {width : Nat} (bytes : Counted width UInt8) : Counted width UInt8 :=
  bytes.map fun _ => 0

def Attribute.blank (attr : Attribute) : Attribute :=
  { attr with payload := attr.payload.blank }

def Line.blank (line : Line) : Line :=
  { line with startPc := 0 }

/-- The table without its declared length and the lines' places. -/
def LineTable.blank (table : LineTable) : LineTable :=
  ⟨0, table.lines.map Line.blank⟩

namespace CodeAttribute

/-- The attribute with its lines, if it is a line number table, and without anything else. -/
def blank : CodeAttribute → CodeAttribute
  | lineTable name table => lineTable name table.blank
  | other attr => other attr.blank

theorem named_blank_iff {pool : Pool} {attr : CodeAttribute} :
    attr.blank.Named pool.blank ↔ attr.Named pool := by
  cases attr <;> simp [blank, Named, Attribute.blank]

theorem outcome_blank (pool : Pool) (order : Int32) (found : Position) (attr : CodeAttribute) :
    attr.blank.outcome pool.blank order found = attr.outcome pool order found := by
  cases attr with
  | lineTable name table =>
    have hlines : table.blank.lines.items.map Line.line = table.lines.items.map Line.line := by
      simp [LineTable.blank, Line.blank, Function.comp_def]
    rw [blank, outcome, outcome, hlines, Pool.resolve_blank]
  | other attr => rw [blank, outcome, outcome, Attribute.blank, Pool.resolve_blank]

end CodeAttribute

namespace Code

/-- The attributes of the code, and nothing else of it but sizes and counts. -/
def blank (code : Code) : Code where
  declared := 0
  maxStack := 0
  maxLocals := 0
  bytecode := code.bytecode.blank
  handlers := code.handlers.map fun _ => ⟨0, 0, 0, 0⟩
  attributes := code.attributes.map CodeAttribute.blank

/-- The lengths may have to be reported for one and not for the other. -/
theorem result_outcome_blank (pool : Pool) (order : Int32) (code : Code) :
    (code.blank.outcome pool.blank order).result = (code.outcome pool order).result := by
  rw [outcome, outcome]
  refine Logged.result_bind_congr ?_ fun found => ?_
  · simp only [blank, Counted.items_map, List.foldlM_map, CodeAttribute.outcome_blank]
  · exact Logged.result_bind_congr (by simp) fun _ => rfl

end Code

namespace MethodAttribute

/-- The attribute with what is looked at, if it is Code, and without anything else. -/
def blank : MethodAttribute → MethodAttribute
  | code name body => code name body.blank
  | other attr => other attr.blank

theorem named_blank_iff {pool : Pool} {attr : MethodAttribute} :
    attr.blank.Named pool.blank ↔ attr.Named pool := by
  cases attr with
  | code name body => simp [blank, Named, Code.blank, CodeAttribute.named_blank_iff]
  | other attr => simp [blank, Named, Attribute.blank]

theorem result_outcome_blank (pool : Pool) (order : Int32) (signature : String) (found : Position)
    (attr : MethodAttribute) :
    (attr.blank.outcome pool.blank order signature found).result =
      (attr.outcome pool order signature found).result := by
  cases attr with
  | code name body =>
    rw [blank, outcome, outcome, Pool.resolve_blank]
    exact Logged.result_bind_congr rfl fun _ => body.result_outcome_blank pool order
  | other attr => rw [blank, outcome, outcome, Attribute.blank, Pool.resolve_blank]

end MethodAttribute

/-! ## Members -/

/-- The sizes of the field's attributes, and nothing else of it. -/
def FieldInfo.blank (field : FieldInfo) : FieldInfo :=
  ⟨0, 0, 0, field.attributes.map fun attr => ⟨0, attr.payload.blank⟩⟩

namespace MethodInfo

/-- The method with what is looked at in its attributes. -/
def blank (info : MethodInfo) : MethodInfo :=
  { info with attributes := info.attributes.map MethodAttribute.blank }

theorem result_outcome_blank (pool : Pool) (index : Nat) (info : MethodInfo) :
    (info.blank.outcome pool.blank index).result = (info.outcome pool index).result := by
  rw [outcome, outcome, Pool.resolve_blank]
  refine Logged.result_bind_congr rfl fun name => ?_
  refine Logged.result_bind_congr rfl fun descriptor => ?_
  refine Logged.result_bind_congr rfl fun signature => ?_
  refine Logged.result_bind_congr ?_ fun position => rfl
  exact Logged.result_foldlM_map_congr
    (fun attr found => attr.result_outcome_blank pool _ signature found) _ _

theorem result_outcomeAll_blank (pool : Pool) (infos : List MethodInfo) :
    (outcomeAll pool.blank (infos.map blank)).result = (outcomeAll pool infos).result := by
  rw [outcomeAll, List.zipIdx_map]
  exact Logged.result_mapM_map_congr (fun entry => entry.1.result_outcome_blank pool entry.2) _

end MethodInfo

theorem Attribute.outcome_blank (pool : Pool) (attr : Attribute) :
    attr.blank.outcome pool.blank = attr.outcome pool := by
  rw [outcome, outcome, Pool.resolve_blank, blank]

theorem Attribute.outcomeAll_blank (pool : Pool) (attributes : List Attribute) :
    outcomeAll pool.blank (attributes.map blank) = outcomeAll pool attributes := by
  simp only [outcomeAll, List.foldlM_map, outcome_blank]

/-! ## Whole images -/

/-- The image with everything set to zero that is passed over. -/
def blank (image : Image) : Image where
  minorVersion := 0
  majorVersion := 0
  pool := image.pool.blank
  flags := 0
  thisClass := 0
  superClass := 0
  interfaces := image.interfaces.map fun _ => 0
  fields := image.fields.map FieldInfo.blank
  methods := image.methods.map MethodInfo.blank
  attributes := image.attributes.map Attribute.blank
  named := by
    intro _ hblank _ hblank'
    obtain ⟨info, hinfo, rfl⟩ := List.mem_map.mp hblank
    obtain ⟨attr, hattr, rfl⟩ := List.mem_map.mp hblank'
    exact MethodAttribute.named_blank_iff.mpr (image.named info hinfo attr hattr)

theorem result_outcome_blank (image : Image) :
    image.blank.outcome.result = image.outcome.result := by
  rw [outcome, outcome]
  refine Logged.result_bind_congr (congrArg Logged.result image.pool.outcome_blank) fun pool => ?_
  refine Logged.result_bind_congr rfl fun _ => ?_
  have hmethods := MethodInfo.result_outcomeAll_blank image.pool image.methods.items
  refine Logged.result_bind_congr hmethods fun methods => ?_
  refine Logged.result_bind_congr ?_ fun _ => ?_
  · exact congrArg Logged.result (Attribute.outcomeAll_blank image.pool _)
  · simp [blank]

/-! ## Flags of methods -/

def MethodInfo.withFlags (flags : UInt16) (info : MethodInfo) : MethodInfo :=
  { info with flags }

/-- The image with other flags of the method in the given place. -/
def withMethodFlags (place : Nat) (flags : UInt16) (image : Image) : Image :=
  { image with
    methods := image.methods.modify place (MethodInfo.withFlags flags)
    named := by
      intro info hinfo
      obtain ⟨index, hindex⟩ := List.mem_iff_getElem?.mp hinfo
      rw [Counted.modify, List.getElem?_modify] at hindex
      obtain ⟨original, horiginal, rfl⟩ := Option.map_eq_some_iff.mp hindex
      have hnamed := image.named original (List.mem_of_getElem? horiginal)
      split <;> exact hnamed }

end Image

def Method.withFlags (flags : UInt16) (method : Method) : Method :=
  { method with flags := .truncate flags }

def Outline.withMethodFlags (place : Nat) (flags : UInt16) (outline : Outline) : Outline :=
  ⟨outline.methods.modify place (Method.withFlags flags)⟩

namespace Image

/-- Other flags show in what is found, and in nothing else. -/
theorem MethodInfo.result_outcome_withFlags (pool : Pool) (index : Nat) (flags : UInt16)
    (info : MethodInfo) :
    ((info.withFlags flags).outcome pool index).result =
      (info.outcome pool index).result.map (Method.withFlags flags) := by
  rw [outcome, outcome]
  refine Logged.result_bind_map_right rfl fun name => ?_
  refine Logged.result_bind_map_right rfl fun descriptor => ?_
  refine Logged.result_bind_map_right rfl fun signature => ?_
  refine Logged.result_bind_map_right rfl fun position => ?_
  refine Logged.result_bind_map_right (by simp) fun _ => ?_
  exact Logged.result_bind_map_right rfl fun _ => rfl

theorem MethodInfo.result_outcomeAll_withFlags (pool : Pool) (place : Nat) (flags : UInt16)
    (infos : List MethodInfo) :
    (outcomeAll pool (infos.modify place (withFlags flags))).result =
      (outcomeAll pool infos).result.map (·.modify place (Method.withFlags flags)) := by
  have hinfo : ∀ (info : MethodInfo) (index : Nat),
      ((info.withFlags flags).outcome pool index).result =
        (info.outcome pool index).result.map (Method.withFlags flags) :=
    fun info index => info.result_outcome_withFlags pool index flags
  exact Logged.result_mapM_modify (fun info index => info.outcome pool index) hinfo infos place 0

/-- Other flags of one method change the flags in the outline, and nothing else. -/
theorem result_outcome_withMethodFlags (place : Nat) (flags : UInt16) (image : Image) :
    (image.withMethodFlags place flags).outcome.result = image.outcome.result.map fun summary =>
      { summary with outline := summary.outline.withMethodFlags place flags } := by
  rw [outcome, outcome]
  refine Logged.result_bind_map_right rfl fun pool => ?_
  refine Logged.result_bind_map_right rfl fun _ => ?_
  have hmethods := MethodInfo.result_outcomeAll_withFlags image.pool place flags image.methods.items
  refine Logged.result_bind_map hmethods fun methods => ?_
  exact Logged.result_bind_map_right rfl fun _ => rfl

/-! ## Decoding -/

theorem result_decode_blank (image : Image) (rest : List UInt8) :
    (Outline.decode (image.blank.bytes ++ rest)).result =
      (Outline.decode (image.bytes ++ rest)).result := by
  rw [Outline.result_decode, Outline.result_decode, result_runOn_append, result_runOn_append,
    result_outcome_blank]

theorem result_decode_withMethodFlags (place : Nat) (flags : UInt16) (image : Image)
    (rest : List UInt8) :
    (Outline.decode ((image.withMethodFlags place flags).bytes ++ rest)).result =
      (Outline.decode (image.bytes ++ rest)).result.map (·.withMethodFlags place flags) := by
  rw [Outline.result_decode, Outline.result_decode, result_runOn_append, result_runOn_append,
    result_outcome_withMethodFlags]
  cases image.outcome.result <;> rfl

/-- Images with the same blank are decoded alike, whatever follows them and whether or not they make
sense. If a method has other flags as well, the same method of the outline has them, and all else is
as before. -/
theorem result_decode_append_of_blank (first second : Image) (rest : List UInt8) :
    (first.blank = second.blank →
      (Outline.decode (first.bytes ++ rest)).result =
        (Outline.decode (second.bytes ++ rest)).result) ∧
    ∀ place flags, first.blank = (second.withMethodFlags place flags).blank →
      (Outline.decode (first.bytes ++ rest)).result =
        (Outline.decode (second.bytes ++ rest)).result.map (·.withMethodFlags place flags) := by
  refine ⟨fun h => ?_, fun place flags h => ?_⟩
  · rw [← result_decode_blank first, h, result_decode_blank]
  · rw [← result_decode_blank first, h, result_decode_blank, result_decode_withMethodFlags]

/-- A class with a method `void f()`, and with a version, a super class and a field of its own. -/
def oneMethod (majorVersion superClass field flags : UInt16) : Image :=
  have hnone : 0 < 256 ^ 2 := by decide
  have hone : 1 < 256 ^ 2 := by decide
  { minorVersion := 0
    majorVersion
    pool :=
      { count := 4
        entries := [.classRef superClass, .utf8 ⟨[0x66], hone⟩,
          .utf8 ⟨[0x28, 0x29, 0x56], by decide⟩]
        fills := .inl rfl }
    flags := 0
    thisClass := 1
    superClass
    interfaces := ⟨[], hnone⟩
    fields := ⟨[⟨1, field, field, ⟨[], hnone⟩⟩], hone⟩
    methods := ⟨[⟨flags, 2, 3, ⟨[], hnone⟩⟩], hone⟩
    attributes := ⟨[], hnone⟩
    named := by simp }

theorem result_decode_append_of_blank_oneMethod :
    (oneMethod 52 1 9 0x401).bytes ≠ (oneMethod 61 7 8 0x401).bytes ∧
    (Outline.decode (oneMethod 52 1 9 0x401).bytes).result.isOk = true ∧
    (Outline.decode ((oneMethod 52 1 9 0x401).bytes ++ [0])).result =
      (Outline.decode ((oneMethod 61 7 8 0x401).bytes ++ [0])).result ∧
    (Outline.decode ((oneMethod 52 1 9 0x401).bytes ++ [0])).result =
      (Outline.decode ((oneMethod 61 7 8 2).bytes ++ [0])).result.map
        (·.withMethodFlags 0 0x401) :=
  ⟨by decide, by decide +kernel, (result_decode_append_of_blank _ _ _).1 rfl,
    (result_decode_append_of_blank _ _ _).2 0 0x401 rfl⟩

end Image

end ClassOutline
