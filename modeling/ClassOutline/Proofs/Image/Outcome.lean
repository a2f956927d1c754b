import ClassOutline.Proofs.Image.Pool

/-!
# What the walk over an image does

For every part of an image, the outcome of reading it: a value or the error at which the walk stops,
with the records logged on the way. The outcome is a function of the image's parts, whether they
make sense or not. Main statement: on the bytes of an image, whatever follows them, the walk has the
image's outcome (`decodes_summary`).
-/

namespace ClassOutline.Image

open Decoder

/-! ## Attributes -/

theorem decodes_skipAttribute (offset : Nat) (payload : Counted 4 UInt8) :
    Decodes offset ClassFile.skipAttribute (payload.count ++ payload.items) (pure ()) := by
  refine .bind_pure (payload.decodes_count32 _) ?_
  rw [payload.toNat_length32]
  exact decodes_skip _ _

theorem decodes_lineNumbers (offset : Nat) (table : LineTable) :
    Decodes offset ClassFile.lineNumbers table.bytes (pure (table.lines.items.map Line.line)) := by
  rw [LineTable.bytes, List.append_assoc]
  refine .bind_pure (decodes_word32 _ _) (.bind_pure (table.lines.decodes_count16 _) ?_)
  rw [table.lines.toNat_length16]
  refine decodes_require_bind ?_ ?_
  · exact Nat.le_of_eq (length_flatMap_of_length Line.length_bytes _).symm
  · have hline : ∀ (entry : Line) (i : Nat), (entry, i) ∈ table.lines.items.zipIdx → ∀ offset,
        Decodes offset (word16 >>= fun _ => word16) entry.bytes (pure entry.line) := by
      intro entry i _ offset
      exact .bind_pure (decodes_word16 _ _) (decodes_word16 _ _)
    have hvalues : table.lines.items.zipIdx.map (fun entry => entry.1.line) =
        table.lines.items.map Line.line := by
      rw [← Function.comp_def Line.line, ← List.map_map, List.zipIdx_map_fst]
    have hlines := decodes_collect table.lines.items hline (offset + 4 + 2)
    simpa [hvalues] using hlines

namespace CodeAttribute

/-- One attribute of a Code attribute: a line number table replaces the position found so far. -/
def outcome (pool : Pool) (order : Int32) (found : Position) : CodeAttribute → Logged Position
  | lineTable name table => do
    let _ ← pool.resolve name
    return .ofLines order (table.lines.items.map Line.line)
  | other attr => do
    let _ ← pool.resolve attr.name
    return found

theorem decodes_codeAttribute (offset : Nat) {pool : Pool} (order : Int32) (found : Position)
    {attr : CodeAttribute} (h : attr.Named pool) :
    Decodes offset (ClassFile.codeAttribute pool.constantPool order found) attr.bytes
      (attr.outcome pool order found) := by
  cases attr with
  | lineTable name table =>
    refine (pool.decodes_indexedText _ _).bind fun text htext => ?_
    rw [if_pos (Pool.eq_of_result_resolve htext h)]
    exact (decodes_lineNumbers _ table).bind_pure_nil (decodes_done _ _)
  | other attr =>
    rw [bytes, Attribute.bytes, List.append_assoc]
    refine (pool.decodes_indexedText _ _).bind fun text htext => ?_
    rw [if_neg (Pool.ne_of_result_resolve htext h)]
    exact (decodes_skipAttribute _ attr.payload).bind_pure_nil (decodes_done _ _)

end CodeAttribute

namespace Code

/-- A Code attribute: the position that its last line number table gives. A declared length that is
not that of the contents is reported. -/
def outcome (pool : Pool) (order : Int32) (code : Code) : Logged Position := do
  let found ← code.attributes.items.foldlM (CodeAttribute.outcome pool order) (.unlined order)
  .noteIf (code.contents.length ≠ code.declared.toNat)
    (.codeLength code.declared code.contents.length)
  return found

/-- A Code attribute that is written is read, and its outcome is that of its parts. -/
theorem decodes_code (offset : Nat) {pool : Pool} (order : Int32) {code : Code}
    (h : ∀ attr ∈ code.attributes.items, attr.Named pool) :
    Decodes offset (ClassFile.code pool.constantPool order) code.bytes
      (code.outcome pool order) := by
  have hcontents : code.contents = spell16 code.maxStack ++ (spell16 code.maxLocals ++
      (code.bytecode.count ++ (code.bytecode.items ++ (code.handlers.count ++
        (code.handlers.items.flatMap Handler.bytes ++ (code.attributes.count ++
          code.attributes.items.flatMap CodeAttribute.bytes)))))) := by
    simp only [contents, List.append_assoc]
  have hlength := congrArg List.length hcontents
  simp only [List.length_append] at hlength
  have hstop : ∀ start : Nat, start + code.contents.length - start = code.contents.length :=
    fun start => Nat.add_sub_cancel_left ..
  have hattrs : ∀ offset found, Decodes offset
      (iterate (ClassFile.codeAttribute pool.constantPool order) code.attributes.items.length found)
      (code.attributes.items.flatMap CodeAttribute.bytes)
      (code.attributes.items.foldlM (CodeAttribute.outcome pool order) found) :=
    decodes_iterate _ fun attr hmem offset found =>
      CodeAttribute.decodes_codeAttribute offset order found (h attr hmem)
  rw [bytes]
  refine .bind_pure (decodes_word32 _ _) (decodes_position_bind _ rfl ?_)
  rw [hcontents]
  refine .bind_pure (decodes_word16 _ _) (.bind_pure (decodes_word16 _ _) ?_)
  refine .bind_pure (code.bytecode.decodes_count32 _) ?_
  rw [code.bytecode.toNat_length32]
  refine .bind_pure (decodes_skip _ _) (.bind_pure (code.handlers.decodes_count16 _) ?_)
  rw [code.handlers.toNat_length16]
  refine .bind_pure (decodes_skip_flatMap _ Handler.length_bytes _) ?_
  refine .bind_pure (code.attributes.decodes_count16 _) ?_
  rw [code.attributes.toNat_length16]
  refine (hattrs _ _).bind_nil fun found _ => ?_
  -- the two positions enclose the contents, so their difference is the contents' length
  refine decodes_position_bind (offset + (spell32 code.declared).length + code.contents.length)
    (by omega) ?_
  rw [hstop]
  exact decodes_ite_log (decodes_done _ _)

end Code

namespace MethodAttribute

/-- One attribute of a method: Code replaces the position found so far, every other one is reported.
-/
def outcome (pool : Pool) (order : Int32) (signature : String) (found : Position) :
    MethodAttribute → Logged Position
  | code name body => do
    let _ ← pool.resolve name
    body.outcome pool order
  | other attr => do
    let name ← pool.resolve attr.name
    .note (.skippedMethodAttribute name signature)
    return found

theorem decodes_methodAttribute (offset : Nat) {pool : Pool} (order : Int32) (signature : String)
    (found : Position) {attr : MethodAttribute} (h : attr.Named pool) :
    Decodes offset (ClassFile.methodAttribute pool.constantPool order signature found) attr.bytes
      (attr.outcome pool order signature found) := by
  cases attr with
  | code name body =>
    refine (pool.decodes_indexedText _ _).bind fun text htext => ?_
    rw [if_pos (Pool.eq_of_result_resolve htext h.1)]
    exact body.decodes_code _ order h.2
  | other attr =>
    rw [bytes, Attribute.bytes, List.append_assoc]
    refine (pool.decodes_indexedText _ _).bind fun text htext => ?_
    rw [if_neg (Pool.ne_of_result_resolve htext h)]
    refine decodes_log_bind ?_
    exact (decodes_skipAttribute _ attr.payload).bind_pure_nil (decodes_done _ _)

end MethodAttribute

/-! ## Members -/

theorem decodes_skipField (offset : Nat) (field : FieldInfo) :
    Decodes offset ClassFile.skipField field.bytes (pure ()) := by
  have hattr : ∀ attr ∈ field.attributes.items, ∀ (offset : Nat) (state : Unit),
      Decodes offset (word16 >>= fun _ => ClassFile.skipAttribute) attr.bytes (pure ()) := by
    intro attr _ offset _
    rw [Attribute.bytes, List.append_assoc]
    exact .bind_pure (decodes_word16 _ _) (decodes_skipAttribute _ _)
  simp only [FieldInfo.bytes, List.append_assoc]
  refine .bind_pure (decodes_word16 _ _) (.bind_pure (decodes_word16 _ _) ?_)
  refine .bind_pure (decodes_word16 _ _) (.bind_pure (field.attributes.decodes_count16 _) ?_)
  rw [field.attributes.toNat_length16]
  simpa using decodes_iterate field.attributes.items hattr _ ()

namespace MethodInfo

/-- A method with the given index in the class. Its name, its descriptor and the names of its
attributes are looked up in this order. -/
def outcome (pool : Pool) (index : Nat) (info : MethodInfo) : Logged Method := do
  let order := Int32.ofNat index
  let flags := MethodFlags.truncate info.flags
  let name ← pool.resolve info.name
  let descriptor ← pool.resolve info.descriptor
  let signature ← .ofExcept .descriptor (methodSignature name descriptor)
  let position ←
    info.attributes.items.foldlM (MethodAttribute.outcome pool order signature) .absent
  .noteIf (position = .absent ∧ flags.expectsCode) (.missingCode signature)
  .note (.method order signature position)
  return { order, flags, name, descriptor, signature, position }

/-- A method that is written is read, and its outcome is that of its parts. -/
theorem decodes_method (offset : Nat) {pool : Pool} (index : Nat) {info : MethodInfo}
    (h : ∀ attr ∈ info.attributes.items, attr.Named pool) :
    Decodes offset (ClassFile.method pool.constantPool index) info.bytes
      (info.outcome pool index) := by
  have hattrs : ∀ signature offset found, Decodes offset
      (iterate (ClassFile.methodAttribute pool.constantPool (Int32.ofNat index) signature)
        info.attributes.items.length found)
      (info.attributes.items.flatMap MethodAttribute.bytes)
      (info.attributes.items.foldlM
        (MethodAttribute.outcome pool (Int32.ofNat index) signature) found) :=
    fun signature => decodes_iterate _ fun attr hmem offset found =>
      MethodAttribute.decodes_methodAttribute offset _ signature found (h attr hmem)
  simp only [bytes, List.append_assoc]
  refine .bind_pure (decodes_word16 _ _) ?_
  refine (pool.decodes_indexedText _ _).bind fun name _ => ?_
  refine (pool.decodes_indexedText _ _).bind fun descriptor _ => ?_
  refine decodes_ofExcept_bind fun signature _ => ?_
  refine .bind_pure (info.attributes.decodes_count16 _) ?_
  rw [info.attributes.toNat_length16]
  refine (hattrs signature _ _).bind_nil fun position _ => ?_
  exact decodes_ite_log (decodes_log_bind (decodes_done _ _))

def outcomeAll (pool : Pool) (methods : List MethodInfo) : Logged (List Method) :=
  methods.zipIdx.mapM fun entry => entry.1.outcome pool entry.2

end MethodInfo

/-- An attribute of the class, which is only reported. -/
def Attribute.outcome (pool : Pool) (attr : Attribute) : Logged Unit := do
  let name ← pool.resolve attr.name
  .note (.skippedClassAttribute name)

def Attribute.outcomeAll (pool : Pool) (attributes : List Attribute) : Logged Unit :=
  attributes.foldlM (fun _ attr => attr.outcome pool) ()

theorem decodes_skipClassAttribute (offset : Nat) (pool : Pool) (attr : Attribute) :
    Decodes offset (ClassFile.skipClassAttribute pool.constantPool) attr.bytes
      (attr.outcome pool) := by
  rw [Attribute.bytes, List.append_assoc]
  refine (pool.decodes_indexedText _ _).bind fun name _ => ?_
  have hskip := decodes_skipAttribute (offset + (spell16 attr.name).length) attr.payload
  have hlog := (decodes_log _ (.skippedClassAttribute name)).bind fun _ _ => hskip
  simpa using hlog

/-! ## Whole images -/

def outcome (image : Image) : Logged ClassSummary := do
  let pool ← image.pool.outcome
  .note (.poolRead pool.count)
  let methods ← MethodInfo.outcomeAll image.pool image.methods.items
  Attribute.outcomeAll image.pool image.attributes.items
  return { fields := image.fields.items.length, outline := ⟨methods⟩ }

/-- An image is read as its parts say, whatever follows it. -/
theorem decodes_summary (offset : Nat) (image : Image) :
    Decodes offset ClassFile.summary image.bytes image.outcome := by
  have hfields : ∀ offset, Decodes offset
      (iterate (fun _ => ClassFile.skipField) image.fields.items.length ())
      (image.fields.items.flatMap FieldInfo.bytes)
      (image.fields.items.foldlM (fun _ _ => pure ()) ()) :=
    fun offset => decodes_iterate _
      (fun field _ offset _ => decodes_skipField offset field) offset ()
  simp only [List.foldlM_pure] at hfields
  have hmethods : ∀ offset, Decodes offset
      (collect (ClassFile.method image.pool.constantPool) image.methods.items.length)
      (image.methods.items.flatMap MethodInfo.bytes)
      (MethodInfo.outcomeAll image.pool image.methods.items) :=
    decodes_collect _ fun info index hmem offset =>
      MethodInfo.decodes_method offset index (image.named info (List.fst_mem_of_mem_zipIdx hmem))
  have hattrs : ∀ offset, Decodes offset
      (iterate (fun _ => ClassFile.skipClassAttribute image.pool.constantPool)
        image.attributes.items.length ())
      (image.attributes.items.flatMap Attribute.bytes)
      (Attribute.outcomeAll image.pool image.attributes.items) :=
    fun offset => decodes_iterate _
      (fun attr _ offset _ => decodes_skipClassAttribute offset image.pool attr) offset ()
  simp only [bytes, List.append_assoc]
  refine .bind_pure (decodes_word32 _ _) ?_
  simp only [ne_eq, not_true_eq_false, if_false]
  refine .bind_pure (decodes_word16 _ _) (.bind_pure (decodes_word16 _ _) ?_)
  refine (image.pool.decodes_constantPool _).bind fun pool hpool => ?_
  obtain ⟨-, rfl⟩ := Pool.result_outcome_eq_ok_iff.mp hpool
  refine decodes_log_bind ?_
  refine .bind_pure (decodes_word16 _ _) (.bind_pure (decodes_word16 _ _) ?_)
  refine .bind_pure (decodes_word16 _ _) (.bind_pure (image.interfaces.decodes_count16 _) ?_)
  rw [image.interfaces.toNat_length16]
  refine .bind_pure (decodes_skip_flatMap _ length_spell16 _) ?_
  refine .bind_pure (image.fields.decodes_count16 _) ?_
  rw [image.fields.toNat_length16]
  refine .bind_pure (hfields _) (.bind_pure (image.methods.decodes_count16 _) ?_)
  rw [image.methods.toNat_length16]
  refine (hmethods _).bind fun methods _ => ?_
  refine .bind_pure (image.attributes.decodes_count16 _) ?_
  rw [image.attributes.toNat_length16]
  exact (hattrs _).bind_nil fun _ _ => decodes_done _ _

/-- What follows an image does not matter. -/
theorem result_runOn_append (image : Image) (rest : List UInt8) :
    (ClassFile.summary.runOn (image.bytes ++ rest)).result = image.outcome.result := by
  rw [runOn, Cursor.start_eq_of]
  exact (image.decodes_summary 0 rest #[]).1

/-- A walk that succeeds stops at the end of the image. -/
theorem offset_runOn_append {image : Image} {summary : ClassSummary}
    (h : image.outcome.result = .ok summary) (rest : List UInt8) :
    (ClassFile.summary.runOn (image.bytes ++ rest)).stop.offset = image.bytes.length := by
  rw [runOn, Cursor.start_eq_of, (image.decodes_summary 0 rest #[]).2.2 summary h]
  simp

end ClassOutline.Image
