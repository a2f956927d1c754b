import ClassOutline.Proofs.Image.Accepting

/-!
# What an image means

When an image makes sense (`Image.Valid`) and what its outline then is (`Image.outline`), both said
without the walk: the names and descriptors that are looked up lead to texts, descriptors describe
something, and of several Code attributes or line number tables the last one counts. Main statement:
a class file is decoded exactly if it starts with an image that makes sense, and then to that
image's outline (`result_decode_eq_ok_iff`).
-/

namespace ClassOutline.Image

/-! ## What makes sense -/

def Pool.HasText (pool : Pool) (index : UInt16) : Prop :=
  ∃ text, pool.text? index = some text

/-- The names of the attribute, and of the attributes in it if it is Code, are texts. -/
def MethodAttribute.Valid (pool : Pool) : MethodAttribute → Prop
  | code name body => pool.HasText name ∧ ∀ attr ∈ body.attributes.items, pool.HasText attr.name
  | other attr => pool.HasText attr.name

/-- The method has a name, a descriptor that describes something, and attributes with names. -/
def MethodInfo.Valid (pool : Pool) (info : MethodInfo) : Prop :=
  pool.HasText info.name ∧
    (∃ descriptor described, pool.text? info.descriptor = some descriptor ∧
      MethodDescriptor.parse descriptor = .ok described) ∧
    ∀ attr ∈ info.attributes.items, attr.Valid pool

/-- All texts can be decoded, methods make sense, and attributes of the class have names. The names
of fields, their descriptors and the names of their attributes may be anything. -/
def Valid (image : Image) : Prop :=
  image.pool.Valid ∧
    (∀ info ∈ image.methods.items, info.Valid image.pool) ∧
    ∀ attr ∈ image.attributes.items, image.pool.HasText attr.name

/-! ## Outlines -/

/-- The text in a slot; nothing where there is none. -/
def Pool.textAt (pool : Pool) (index : UInt16) : String :=
  (pool.text? index).getD ""

/-- The smallest line of a line number table. -/
def LineTable.position (order : Int32) (table : LineTable) : Position :=
  .ofLines order (table.lines.items.map Line.line)

/-- The position that the last line number table gives. -/
def Code.position (order : Int32) (code : Code) : Position :=
  match code.lastTable? with
  | none => .unlined order
  | some table => table.position order

/-- The position that the last Code attribute gives. -/
def MethodInfo.position (order : Int32) (info : MethodInfo) : Position :=
  match info.lastCode? with
  | none => .absent
  | some code => code.position order

/-- The signature of a method whose descriptor describes something. -/
def MethodInfo.signature (pool : Pool) (info : MethodInfo) : String :=
  match MethodDescriptor.parse (pool.textAt info.descriptor) with
  | .ok described => described.signature (pool.textAt info.name)
  | .error _ => ""

def MethodInfo.method (pool : Pool) (index : Nat) (info : MethodInfo) : Method where
  order := Int32.ofNat index
  flags := .truncate info.flags
  name := pool.textAt info.name
  descriptor := pool.textAt info.descriptor
  signature := info.signature pool
  position := info.position (Int32.ofNat index)

def outline (image : Image) : Outline where
  methods := image.methods.items.zipIdx.map fun entry => entry.1.method image.pool entry.2

/-! ## What the walk finds -/

namespace CodeAttribute

theorem result_outcome_eq_ok_iff {pool : Pool} {order : Int32} {attr : CodeAttribute}
    {found position : Position} :
    (attr.outcome pool order found).result = .ok position ↔
      pool.HasText attr.name ∧ position = (attr.table?.map (·.position order)).getD found := by
  have hresolve : ∀ (index : UInt16) (replaced : Position),
      (pool.resolve index >>= fun _ => pure replaced).result = .ok position ↔
        pool.HasText index ∧ position = replaced := by
    intro index replaced
    simp only [Logged.result_bind_eq_ok_iff, Pool.result_resolve_eq_ok_iff, Logged.result_pure]
    constructor
    · rintro ⟨text, htext, hposition⟩
      exact ⟨⟨text, htext⟩, (Except.ok.inj hposition).symm⟩
    · rintro ⟨⟨text, htext⟩, rfl⟩
      exact ⟨text, htext, rfl⟩
  cases attr with
  | lineTable name table => exact hresolve name _
  | other attr => exact hresolve attr.name _

end CodeAttribute

theorem Code.result_outcome_eq_ok_iff {pool : Pool} {order : Int32} {code : Code}
    {position : Position} :
    (code.outcome pool order).result = .ok position ↔
      (∀ attr ∈ code.attributes.items, pool.HasText attr.name) ∧
        position = code.position order := by
  have hlast : ((code.attributes.items.filterMap fun attr =>
      attr.table?.map (·.position order)).getLast?).getD (.unlined order) =
        code.position order := by
    rw [← List.map_filterMap, List.getLast?_map, Code.position, Code.lastTable?]
    cases (code.attributes.items.filterMap CodeAttribute.table?).getLast? <;> rfl
  have hloop : ∀ found, (code.attributes.items.foldlM (CodeAttribute.outcome pool order)
      (.unlined order)).result = .ok found ↔
        (∀ attr ∈ code.attributes.items, pool.HasText attr.name) ∧ found = code.position order := by
    intro found
    rw [← hlast]
    refine Logged.result_foldlM_eq_ok_iff fun attr _ _ _ => ?_
    exact CodeAttribute.result_outcome_eq_ok_iff
  simp only [outcome, Logged.result_bind_eq_ok_iff, hloop, Logged.result_noteIf, Logged.result_pure]
  constructor
  · rintro ⟨_, ⟨hattrs, rfl⟩, -, -, hposition⟩
    exact ⟨hattrs, (Except.ok.inj hposition).symm⟩
  · rintro ⟨hattrs, rfl⟩
    exact ⟨_, ⟨hattrs, rfl⟩, (), trivial, rfl⟩

namespace MethodAttribute

theorem result_outcome_eq_ok_iff {pool : Pool} {order : Int32} {signature : String}
    {attr : MethodAttribute} {found position : Position} :
    (attr.outcome pool order signature found).result = .ok position ↔
      attr.Valid pool ∧ position = (attr.code?.map (·.position order)).getD found := by
  cases attr with
  | code name body =>
    simp only [outcome, Logged.result_bind_eq_ok_iff, Pool.result_resolve_eq_ok_iff,
      Code.result_outcome_eq_ok_iff, Valid, code?, Pool.HasText]
    constructor
    · rintro ⟨text, htext, hattrs, rfl⟩
      exact ⟨⟨⟨text, htext⟩, hattrs⟩, rfl⟩
    · rintro ⟨⟨⟨text, htext⟩, hattrs⟩, rfl⟩
      exact ⟨text, htext, hattrs, rfl⟩
  | other attr =>
    simp only [outcome, Logged.result_bind_eq_ok_iff, Pool.result_resolve_eq_ok_iff,
      Logged.result_note, Logged.result_pure, Valid, code?, Pool.HasText]
    constructor
    · rintro ⟨text, htext, -, -, hposition⟩
      exact ⟨⟨text, htext⟩, (Except.ok.inj hposition).symm⟩
    · rintro ⟨⟨text, htext⟩, rfl⟩
      exact ⟨text, htext, (), trivial, rfl⟩

end MethodAttribute

namespace MethodInfo

/-- The loop over the attributes ends with the position that the last Code gives. -/
theorem result_foldlM_outcome_eq_ok_iff {pool : Pool} {order : Int32} {signature : String}
    {info : MethodInfo} {position : Position} :
    (info.attributes.items.foldlM (MethodAttribute.outcome pool order signature) .absent).result =
      .ok position ↔
        (∀ attr ∈ info.attributes.items, attr.Valid pool) ∧ position = info.position order := by
  have hlast : ((info.attributes.items.filterMap fun attr =>
      attr.code?.map (·.position order)).getLast?).getD .absent = info.position order := by
    rw [← List.map_filterMap, List.getLast?_map, MethodInfo.position, lastCode?]
    cases (info.attributes.items.filterMap MethodAttribute.code?).getLast? <;> rfl
  rw [← hlast]
  refine Logged.result_foldlM_eq_ok_iff fun attr _ _ _ => ?_
  exact MethodAttribute.result_outcome_eq_ok_iff

theorem result_outcome_eq_ok_iff {pool : Pool} {index : Nat} {info : MethodInfo} {found : Method} :
    (info.outcome pool index).result = .ok found ↔
      info.Valid pool ∧ found = info.method pool index := by
  simp only [outcome, Logged.result_bind_eq_ok_iff, Pool.result_resolve_eq_ok_iff,
    Logged.result_ofExcept_eq_ok_iff, result_foldlM_outcome_eq_ok_iff, Logged.result_noteIf,
    Logged.result_note, Logged.result_pure, methodSignature]
  constructor
  · rintro ⟨name, hname, descriptor, hdescriptor, signature, hsignature, _, ⟨hattrs, rfl⟩,
      -, -, -, -, hfound⟩
    cases hparse : MethodDescriptor.parse descriptor with
    | error error => simp [hparse, Except.map] at hsignature
    | ok described =>
      refine ⟨⟨⟨name, hname⟩, ⟨descriptor, described, hdescriptor, hparse⟩, hattrs⟩, ?_⟩
      obtain rfl : described.signature name = signature := by
        simpa [hparse, Except.map] using hsignature
      rw [← Except.ok.inj hfound]
      simp [method, signature, Pool.textAt, hname, hdescriptor, hparse]
  · rintro ⟨⟨⟨name, hname⟩, ⟨descriptor, described, hdescriptor, hparse⟩, hattrs⟩, rfl⟩
    refine ⟨name, hname, descriptor, hdescriptor, described.signature name, ?_,
      info.position (Int32.ofNat index), ⟨hattrs, rfl⟩, (), trivial, (), trivial, ?_⟩
    · rw [hparse, Except.map]
    · simp [method, signature, Pool.textAt, hname, hdescriptor, hparse]

end MethodInfo

theorem Attribute.result_outcome_eq_ok_iff {pool : Pool} {attr : Attribute} {state : Unit} :
    (attr.outcome pool).result = .ok state ↔ pool.HasText attr.name := by
  simp [outcome, Logged.result_bind_eq_ok_iff, Pool.result_resolve_eq_ok_iff, Pool.HasText]

theorem MethodInfo.result_outcomeAll_eq_ok_iff {pool : Pool} {infos : List MethodInfo}
    {methods : List Method} :
    (outcomeAll pool infos).result = .ok methods ↔
      (∀ info ∈ infos, info.Valid pool) ∧
        methods = infos.zipIdx.map fun entry => entry.1.method pool entry.2 := by
  rw [outcomeAll, Logged.result_mapM_eq_ok_iff fun entry _ _ => result_outcome_eq_ok_iff]
  refine and_congr_left fun _ => ⟨fun h info hinfo => ?_, fun h entry hentry => ?_⟩
  · obtain ⟨index, hentry⟩ := List.mem_iff_getElem?.mp hinfo
    exact h (info, index) (List.mk_mem_zipIdx_iff_getElem?.mpr hentry)
  · exact h entry.1 (List.fst_mem_of_mem_zipIdx hentry)

theorem Attribute.result_outcomeAll_eq_ok_iff {pool : Pool} {attributes : List Attribute}
    {state : Unit} :
    (outcomeAll pool attributes).result = .ok state ↔
      ∀ attr ∈ attributes, pool.HasText attr.name := by
  have hattr : ∀ attr ∈ attributes, ∀ state state' : Unit,
      (attr.outcome pool).result = .ok state' ↔
        pool.HasText attr.name ∧ state' = (none : Option Unit).getD state := by
    intro attr _ state state'
    rw [result_outcome_eq_ok_iff, and_iff_left rfl]
  rw [outcomeAll, Logged.result_foldlM_eq_ok_iff hattr, and_iff_left rfl]

theorem result_outcome_eq_ok_iff {image : Image} {summary : ClassSummary} :
    image.outcome.result = .ok summary ↔
      image.Valid ∧ summary = ⟨image.fields.items.length, image.outline⟩ := by
  simp only [outcome, Logged.result_bind_eq_ok_iff, Pool.result_outcome_eq_ok_iff,
    MethodInfo.result_outcomeAll_eq_ok_iff, Attribute.result_outcomeAll_eq_ok_iff,
    Logged.result_note, Logged.result_pure]
  constructor
  · rintro ⟨_, ⟨hpool, rfl⟩, -, -, _, ⟨hmethods, rfl⟩, -, hattrs, hsummary⟩
    exact ⟨⟨hpool, hmethods, hattrs⟩, (Except.ok.inj hsummary).symm⟩
  · rintro ⟨⟨hpool, hmethods, hattrs⟩, rfl⟩
    exact ⟨_, ⟨hpool, rfl⟩, (), trivial, _, ⟨hmethods, rfl⟩, (), hattrs, rfl⟩

/-! ## Decoding -/

/-- A class file is decoded exactly if it starts with an image that makes sense, and to the outline
of that image. -/
theorem result_decode_eq_ok_iff {bytes : List UInt8} {outline : Outline} :
    (Outline.decode bytes).result = .ok outline ↔
      ∃ (image : Image) (rest : List UInt8),
        bytes = image.bytes ++ rest ∧ image.Valid ∧ outline = image.outline := by
  rw [Outline.result_decode]
  constructor
  · intro h
    cases hrun : (ClassFile.summary.runOn bytes).result with
    | error error => simp [hrun, Except.map] at h
    | ok summary =>
      obtain ⟨image, rest, rfl⟩ := exists_of_result_runOn hrun
      obtain rfl : summary.outline = outline := by simpa [hrun, Except.map] using h
      rw [result_runOn_append, result_outcome_eq_ok_iff] at hrun
      obtain ⟨hvalid, rfl⟩ := hrun
      exact ⟨image, rest, rfl, hvalid, rfl⟩
  · rintro ⟨image, rest, rfl, hvalid, rfl⟩
    rw [result_runOn_append, result_outcome_eq_ok_iff.mpr ⟨hvalid, rfl⟩, Except.map]

end ClassOutline.Image
