import ClassOutline.Proofs.Image.Layout
import ClassOutline.Proofs.Image.Reduction

/-!
# What a complete walk reports

The records of a walk over a class file, part by part and without the walk: of a Code attribute the
length that it declares, if it is not that of what it contains; of every other attribute its name;
of a method that no Code is missing, unless its flags say that there is none; and of a method what
its outline says. Main statement: the log of whatever is decoded consists of these records, each at
its level and in the order of the parts, and of nothing else (`Outline.log_of_decode`).
-/

namespace ClassOutline

/-- A method with these flags should have code exactly if neither of two bits is set. -/
theorem MethodFlags.expectsCode_truncate_iff {bits : UInt16} :
    (truncate bits).expectsCode = true ↔
      bits &&& MethodFlag.accAbstract.bit = 0 ∧ bits &&& MethodFlag.accNative.bit = 0 := by
  simp [expectsCode, contains_truncate]

/-! ## Wordings -/

/-- The pieces stand in the text, one after the other. -/
inductive Carries : String → List String → Prop where
  | nil {text : String} : Carries text []
  | cons {before piece after : String} {pieces : List String} (rest : Carries after pieces) :
    Carries (before ++ piece ++ after) (piece :: pieces)

theorem carries_weave {words data : List String} (h : data.length ≤ words.length) :
    Carries (weave words data) data := by
  fun_induction weave words data with
  | case1 data =>
    obtain rfl := List.eq_nil_of_length_eq_zero (Nat.le_zero.mp h)
    exact .nil
  | case2 => exact .nil
  | case3 word words datum data ih => exact .cons (ih (Nat.le_of_succ_le_succ h))

/-- What a record tells is part of its wording. -/
theorem Record.carries_message (record : Record) : Carries record.message record.data := by
  refine carries_weave ?_
  cases record <;> simp [data, words]

theorem Position.carries_text (position : Position) : Carries position.text position.data :=
  carries_weave (Nat.le_succ 3)

namespace Image

open Logged

/-! ## Reports -/

/-- Of a Code attribute: its declared length and that of its contents, where they differ. -/
def Code.report (code : Code) : List (Level × Record) :=
  if code.contents.length ≠ code.declared.toNat then
    [(.warn, .codeLength code.declared code.contents.length)]
  else []

/-- Of an attribute of the method with the given signature: what Code reports, or the name of an
attribute that is passed over. -/
def MethodAttribute.report (pool : Pool) (signature : String) :
    MethodAttribute → List (Level × Record)
  | code _ body => body.report
  | other attr => [(.trace, .skippedMethodAttribute (pool.textAt attr.name) signature)]

instance (pool : Pool) (attr : MethodAttribute) : Decidable (attr.IsCode pool) :=
  inferInstanceAs (Decidable (_ = _))

/-- None of the method's attributes is named Code, and it is neither abstract nor native. -/
def MethodInfo.LacksCode (pool : Pool) (info : MethodInfo) : Prop :=
  (∀ attr ∈ info.attributes.items, ¬attr.IsCode pool) ∧
    info.flags &&& MethodFlag.accAbstract.bit = 0 ∧ info.flags &&& MethodFlag.accNative.bit = 0

instance (pool : Pool) (info : MethodInfo) : Decidable (info.LacksCode pool) :=
  inferInstanceAs (Decidable (_ ∧ _))

/-- Of a method: the reports of its attributes, that it lacks code, and what the outline tells. -/
def MethodInfo.report (pool : Pool) (method : Method) (info : MethodInfo) :
    List (Level × Record) :=
  info.attributes.items.flatMap (MethodAttribute.report pool method.signature) ++
    (if info.LacksCode pool then [(.debug, .missingCode method.signature)] else []) ++
    [(.trace, .method method.order method.signature method.position)]

def Attribute.report (pool : Pool) (attr : Attribute) : List (Level × Record) :=
  [(.trace, .skippedClassAttribute (pool.textAt attr.name))]

/-- Of an image before the walk over it is complete. -/
def report (image : Image) (outline : Outline) : List (Level × Record) :=
  [(.debug, .poolRead (max image.pool.count 1))] ++
    (image.methods.items.zip outline.methods).flatMap
      (fun entry => entry.1.report image.pool entry.2) ++
    image.attributes.items.flatMap (Attribute.report image.pool)

/-! ## Constants and texts -/

theorem Entry.reports_outcome (entry : Entry) (index : UInt16) :
    (entry.outcome index).Reports [] := by
  cases entry with
  | utf8 payload => exact (reports_ofExcept _ _).bind_pure _
  | _ => exact reports_pure _

/-- Nothing is reported of constants. -/
theorem reports_slotsFrom (index : Nat) (entries : List Entry) :
    (slotsFrom index entries).Reports [] := by
  induction entries generalizing index with
  | nil => exact reports_pure []
  | cons entry entries ih =>
    refine (entry.reports_outcome _).bind_nil fun slot _ => ?_
    exact (ih _).bind_pure _

namespace Pool

/-- Nothing is reported while a pool is read. -/
theorem reports_outcome (pool : Pool) : pool.outcome.Reports [] :=
  (reports_slotsFrom 1 pool.entries).bind_pure _

theorem reports_resolve (pool : Pool) (index : UInt16) : (pool.resolve index).Reports [] :=
  reports_ofExcept _ _

theorem textAt_eq {pool : Pool} {index : UInt16} {text : String}
    (h : (pool.resolve index).result = .ok text) : pool.textAt index = text := by
  rw [textAt, result_resolve_eq_ok_iff.mp h, Option.getD_some]

theorem count_constantPool (pool : Pool) : pool.constantPool.count = max pool.count 1 := by
  have hone : (1 : UInt16).toNat = 1 := rfl
  rw [← UInt16.toNat_inj, pool.toNat_count_constantPool]
  show _ = (if pool.count ≤ 1 then 1 else pool.count).toNat
  by_cases hle : pool.count ≤ 1
  · rw [if_pos hle]
    rw [UInt16.le_iff_toNat_le] at hle
    omega
  · rw [if_neg hle]
    rw [UInt16.le_iff_toNat_le] at hle
    omega

end Pool

/-! ## What the walk reports -/

theorem CodeAttribute.reports_outcome (pool : Pool) (order : Int32) (found : Position)
    (attr : CodeAttribute) : (attr.outcome pool order found).Reports [] := by
  cases attr with
  | lineTable name table => exact (pool.reports_resolve name).bind_pure _
  | other attr => exact (pool.reports_resolve attr.name).bind_pure _

theorem Code.reports_outcome (pool : Pool) (order : Int32) (code : Code) :
    (code.outcome pool order).Reports code.report := by
  have hattrs : (code.attributes.items.foldlM (CodeAttribute.outcome pool order)
      (.unlined order)).Reports (code.attributes.items.flatMap fun _ => []) :=
    .foldlM (fun attr _ found => attr.reports_outcome pool order found) _
  rw [List.flatMap_eq_nil_iff.mpr fun _ _ => rfl] at hattrs
  exact hattrs.bind_nil fun found _ => (reports_noteIf _ _).bind_pure _

theorem MethodAttribute.reports_outcome (pool : Pool) (order : Int32) (signature : String)
    (found : Position) (attr : MethodAttribute) :
    (attr.outcome pool order signature found).Reports (attr.report pool signature) := by
  cases attr with
  | code name body =>
    exact (pool.reports_resolve name).bind_nil fun _ _ => body.reports_outcome pool order
  | other attr =>
    refine (pool.reports_resolve attr.name).bind_nil fun text htext => ?_
    rw [MethodAttribute.report, Pool.textAt_eq htext]
    exact (reports_note _).bind_pure _

namespace MethodInfo

/-- The signature made of the texts that were looked up is the method's. -/
theorem signature_eq {pool : Pool} {info : MethodInfo} {name descriptor signature : String}
    (hname : (pool.resolve info.name).result = .ok name)
    (hdescriptor : (pool.resolve info.descriptor).result = .ok descriptor)
    (h : methodSignature name descriptor = .ok signature) : info.signature pool = signature := by
  rw [methodSignature, map_eq_ok_iff] at h
  obtain ⟨described, hparse, rfl⟩ := h
  rw [MethodInfo.signature, Pool.textAt_eq hname, Pool.textAt_eq hdescriptor, hparse]

/-- No Code is what the position at the end of the loop over all attributes tells. -/
theorem lacksCode_iff {pool : Pool} {info : MethodInfo} {index : Nat} (small : index < 2 ^ 31)
    (named : ∀ attr ∈ info.attributes.items, attr.Named pool) :
    info.position (Int32.ofNat index) = .absent ∧
      (MethodFlags.truncate info.flags).expectsCode = true ↔ info.LacksCode pool := by
  rw [position_eq_absent_iff named small, MethodFlags.expectsCode_truncate_iff, LacksCode]

/-- A method is reported after what is in it. -/
theorem reports_outcome {pool : Pool} {info : MethodInfo} {index : Nat} (small : index < 2 ^ 31)
    (named : ∀ attr ∈ info.attributes.items, attr.Named pool) :
    (info.outcome pool index).Reports (info.report pool (info.method pool index)) := by
  refine (pool.reports_resolve info.name).bind_nil fun name hname => ?_
  refine (pool.reports_resolve info.descriptor).bind_nil fun descriptor hdescriptor => ?_
  refine (reports_ofExcept _ _).bind_nil fun signature hmade => ?_
  have hsignature := signature_eq hname hdescriptor (result_ofExcept_eq_ok_iff.mp hmade)
  have hattrs : (info.attributes.items.foldlM
      (MethodAttribute.outcome pool (Int32.ofNat index) signature) .absent).Reports
        (info.attributes.items.flatMap (MethodAttribute.report pool signature)) :=
    .foldlM (fun attr _ found => attr.reports_outcome pool _ signature found) _
  rw [MethodInfo.report, List.append_assoc, method, hsignature]
  refine hattrs.bind fun position hposition => ?_
  obtain ⟨-, rfl⟩ := result_foldlM_outcome_eq_ok_iff.mp hposition
  rw [← if_congr (lacksCode_iff small named) rfl rfl]
  exact (reports_noteIf _ _).bind fun _ _ => (reports_note _).bind_pure _

theorem reports_outcomeAll {image : Image} :
    (outcomeAll image.pool image.methods.items).Reports
      ((image.methods.items.zip image.outline.methods).flatMap
        fun entry => entry.1.report image.pool entry.2) := by
  have hzip : image.methods.items.zip image.outline.methods =
      image.methods.items.zipIdx.map fun entry =>
        (entry.1, entry.1.method image.pool entry.2) := by
    have hmap : (image.methods.items.zipIdx.map Prod.fst).zip image.outline.methods = _ :=
      List.zip_map'
    rwa [List.zipIdx_map_fst] at hmap
  rw [hzip, List.flatMap_map]
  refine .mapM fun entry hentry => ?_
  have hinfo := List.mk_mem_zipIdx_iff_getElem?.mp hentry
  exact reports_outcome (index_lt hinfo) (image.named _ (List.fst_mem_of_mem_zipIdx hentry))

end MethodInfo

theorem Attribute.reports_outcome (pool : Pool) (attr : Attribute) :
    (attr.outcome pool).Reports (attr.report pool) := by
  refine (pool.reports_resolve attr.name).bind_nil fun name hname => ?_
  rw [Attribute.report, Pool.textAt_eq hname]
  exact reports_note _

/-- The walk over an image reports its parts in their order. -/
theorem reports_outcome (image : Image) : image.outcome.Reports (image.report image.outline) := by
  refine image.pool.reports_outcome.bind_nil fun pool hpool => ?_
  obtain ⟨-, rfl⟩ := Pool.result_outcome_eq_ok_iff.mp hpool
  rw [report, ← image.pool.count_constantPool, List.append_assoc]
  refine (reports_note _).bind fun _ _ => MethodInfo.reports_outcomeAll.bind fun methods _ => ?_
  have hattrs : (Attribute.outcomeAll image.pool image.attributes.items).Reports
      (image.attributes.items.flatMap (Attribute.report image.pool)) :=
    .foldlM (fun attr _ _ => attr.reports_outcome image.pool) ()
  exact hattrs.bind_pure _

/-- A method with code is never reported as one that lacks code. -/
theorem MethodInfo.missingCode_not_mem_report {pool : Pool} {info : MethodInfo}
    {attr : MethodAttribute} (hmem : attr ∈ info.attributes.items) (hcode : attr.IsCode pool)
    (method : Method) (level : Level) (signature : String) :
    (level, .missingCode signature) ∉ info.report pool method := by
  have hattr : ∀ other : MethodAttribute,
      (level, .missingCode signature) ∉ other.report pool method.signature := by
    intro other
    cases other with
    | code name body =>
      rw [MethodAttribute.report, Code.report]
      split <;> simp
    | other attr => simp [MethodAttribute.report]
  have hlacks : ¬info.LacksCode pool := fun h => h.1 attr hmem hcode
  simp [report, hlacks, hattr]

/-- What a walk logs before it ends on an image is the report of its parts. -/
theorem map_log_runOn_append {image : Image} (h : image.Valid) (rest : List UInt8) :
    (ClassFile.summary.runOn (image.bytes ++ rest)).log.toList.map
      (fun record => (record.level, record)) = image.report image.outline := by
  rw [Decoder.runOn, Cursor.start_eq_of, (image.decodes_summary 0 rest #[]).2.1, Array.empty_append]
  exact image.reports_outcome _ (result_outcome_eq_ok_iff.mpr ⟨h, rfl⟩)

end Image

namespace Outline

/-- Of whatever is decoded, and however it is taken apart: its parts make sense and make up the
outline, in which a method's order is its place; what is logged is the report of the parts, and then
how many fields and methods there are and where the walk stopped, behind the last attribute of the
class; and no method with code is reported as one that lacks code. What a record tells is part of
its wording, and so are the parts of a position. -/
theorem log_of_decode {bytes : List UInt8} {outline : Outline}
    (decoded : (decode bytes).result = .ok outline) :
    (∃ (image : Image) (rest : List UInt8), bytes = image.bytes ++ rest) ∧
    (∀ record ∈ (decode bytes).log.toList, Carries record.message record.data) ∧
    (∀ method ∈ outline.methods, Carries method.position.text method.position.data) ∧
    ∀ (image : Image) (rest : List UInt8), bytes = image.bytes ++ rest →
      image.Valid ∧ outline = image.outline ∧
      (∀ (index : Nat) (method : Method), outline.methods[index]? = some method →
        method.order.toInt = index) ∧
      (decode bytes).log.toList.map (fun record => (record.level, record)) =
        image.report outline ++ [(.debug, .classRead image.fields.items.length
          image.methods.items.length image.bytes.length bytes.length)] ∧
      ∀ info ∈ image.methods.items, (∃ attr ∈ info.attributes.items, attr.IsCode image.pool) →
        ∀ (method : Method) (level : Level) (signature : String),
          (level, .missingCode signature) ∉ info.report image.pool method := by
  refine ⟨?_, fun record _ => record.carries_message,
    fun method _ => method.position.carries_text, ?_⟩
  · obtain ⟨image, rest, hbytes, -, -⟩ := Image.exists_valid_of_decode decoded
    exact ⟨image, rest, hbytes⟩
  · rintro image rest rfl
    have hresult := decoded
    rw [result_decode, map_eq_ok_iff] at hresult
    obtain ⟨summary, hrun, rfl⟩ := hresult
    have houtcome := hrun
    rw [Image.result_runOn_append] at houtcome
    obtain ⟨hvalid, rfl⟩ := Image.result_outcome_eq_ok_iff.mp houtcome
    refine ⟨hvalid, rfl, fun index method h => (sound_of_decode decoded h).order, ?_, ?_⟩
    · rw [log_decode_of_ok hrun, Array.toList_push, List.map_append,
        Image.map_log_runOn_append hvalid, Image.offset_runOn_append houtcome]
      simp [Image.outline, Record.level]
    · rintro info - ⟨attr, hmem, hcode⟩ method level signature
      exact Image.MethodInfo.missingCode_not_mem_report hmem hcode method level signature

/-- A class file with three methods: one with an attribute that is passed over and with a Code that
declares no length; one without attributes; and one that is abstract. An attribute of the class and
two more bytes follow. -/
def reportedParts : List UInt8 :=
  [0xCA, 0xFE, 0xBA, 0xBE, 0, 0, 0, 0x34, 0, 5,
    1, 0, 1, 0x66, 1, 0, 3, 0x28, 0x29, 0x56, 1, 0, 4, 0x43, 0x6F, 0x64, 0x65, 1, 0, 1, 0x58,
    0, 0, 0, 0, 0, 0, 0, 0, 0, 0, 0, 3,
    0, 1, 0, 1, 0, 2, 0, 2, 0, 4, 0, 0, 0, 1, 7,
    0, 3, 0, 0, 0, 0, 0, 0, 0, 0, 0, 0, 0, 0, 0, 0, 0, 0,
    0, 1, 0, 1, 0, 2, 0, 0,
    4, 0, 0, 1, 0, 2, 0, 0,
    0, 1, 0, 4, 0, 0, 0, 0, 9, 9]

def reportedPartsOutline : Outline where
  methods :=
    [{ order := 0, flags := .truncate 1, name := "f", descriptor := "()V", signature := "void f()",
       position := .unlined 0 },
      { order := 1, flags := .truncate 1, name := "f", descriptor := "()V",
        signature := "void f()", position := .absent },
      { order := 2, flags := .truncate 0x400, name := "f", descriptor := "()V",
        signature := "void f()", position := .absent }]

theorem log_of_decode_reportedParts :
    (decode reportedParts).result = .ok reportedPartsOutline ∧
    (decode reportedParts).log.toList.map (fun record => (record.level, record)) =
      [(.debug, .poolRead 5),
        (.trace, .skippedMethodAttribute "X" "void f()"),
        (.warn, .codeLength 0 12),
        (.trace, .method 0 "void f()" (.unlined 0)),
        (.debug, .missingCode "void f()"),
        (.trace, .method 1 "void f()" .absent),
        (.trace, .method 2 "void f()" .absent),
        (.trace, .skippedClassAttribute "X"),
        (.debug, .classRead 0 3 100 102)] ∧
    ∃ (image : Image) (rest : List UInt8), reportedParts = image.bytes ++ rest ∧
      image.Valid ∧ reportedPartsOutline = image.outline ∧
      (decode reportedParts).log.toList.map (fun record => (record.level, record)) =
        image.report reportedPartsOutline ++ [(.debug, .classRead image.fields.items.length
          image.methods.items.length image.bytes.length reportedParts.length)] := by
  have hdecode : (decode reportedParts).result = .ok reportedPartsOutline := by decide +kernel
  obtain ⟨⟨image, rest, hbytes⟩, -, -, himage⟩ := log_of_decode hdecode
  obtain ⟨hvalid, houtline, -, hlog, -⟩ := himage image rest hbytes
  exact ⟨hdecode, by decide +kernel, image, rest, hbytes, hvalid, houtline, hlog⟩

end Outline

end ClassOutline
