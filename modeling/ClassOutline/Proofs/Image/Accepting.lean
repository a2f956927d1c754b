import ClassOutline.Proofs.Decoder.Accepting
import ClassOutline.Proofs.Image.Outcome

/-!
# What the walk has taken when it succeeds

Every part of the walk that ends with a value has taken the bytes of such a part of an image. Main
statement: a whole walk that succeeds has taken an image (`accepts_summary`).
-/

namespace ClassOutline.Image

open Decoder

/-! ## Counts -/

namespace Counted

variable {width : Nat} {α : Type} {items : List α}

/-- Items that are as many as was announced, with what announced them. -/
theorem exists_of_length {count : Nat} (h : items.length = count) (hfits : count < 256 ^ width) :
    ∃ list : Counted width α, list.items = items ∧ list.count = toBigEndian width count := by
  subst h
  exact ⟨⟨items, hfits⟩, rfl, rfl⟩

theorem exists_of_length16 {count : UInt16} (h : items.length = count.toNat) :
    ∃ list : Counted 2 α, list.items = items ∧ list.count = spell16 count :=
  exists_of_length h count.toNat_lt

theorem exists_of_length32 {count : UInt32} (h : items.length = count.toNat) :
    ∃ list : Counted 4 α, list.items = items ∧ list.count = spell32 count :=
  exists_of_length h count.toNat_lt

end Counted

/-! ## The constant pool -/

theorem accepts_payload (index : UInt16) (tag : Tag) :
    Accepts (ClassFile.payload index tag) fun _ text =>
      ∃ entry : Entry, entry.tag = tag ∧ text = entry.payload := by
  cases tag with
  | utf8 =>
    refine accepts_word16.bind_spell fun count => ?_
    refine (accepts_take count.toNat).bind ?_
    rintro read _ ⟨rfl, hlength⟩
    obtain ⟨payload, rfl, hcount⟩ := Counted.exists_of_length16 hlength
    refine Accepts.bind_nil (accepts_ofExcept _ _) fun text _ => (accepts_done _).mono ?_
    rintro _ _ ⟨-, rfl⟩
    exact ⟨.utf8 payload, rfl, by simp [Entry.payload, hcount]⟩
  | methodRef =>
    refine (accepts_word16_pair _).mono ?_
    rintro _ _ ⟨first, second, htext⟩
    exact ⟨.methodRef first second, rfl, htext⟩
  | interfaceMethodRef =>
    refine (accepts_word16_pair _).mono ?_
    rintro _ _ ⟨first, second, htext⟩
    exact ⟨.interfaceMethodRef first second, rfl, htext⟩
  | nameAndType =>
    refine (accepts_word16_pair _).mono ?_
    rintro _ _ ⟨first, second, htext⟩
    exact ⟨.nameAndType first second, rfl, htext⟩
  | methodHandle =>
    refine accepts_word8.bind_spell fun kind => accepts_word16.map ?_
    rintro reference _ rfl
    exact ⟨.methodHandle kind reference, rfl, rfl⟩
  | string => exact accepts_word16.map fun word text htext => ⟨.string word, rfl, htext⟩
  | methodType => exact accepts_word16.map fun word text htext => ⟨.methodType word, rfl, htext⟩
  | classRef =>
    refine (accepts_skip 2).map fun _ text hlength => ?_
    obtain ⟨word, htext⟩ := exists_spell16 hlength
    exact ⟨.classRef word, rfl, htext⟩
  | integer =>
    refine (accepts_skip 4).map fun _ text hlength => ?_
    obtain ⟨word, htext⟩ := exists_spell32 hlength
    exact ⟨.integer word, rfl, htext⟩
  | float =>
    refine (accepts_skip 4).map fun _ text hlength => ?_
    obtain ⟨word, htext⟩ := exists_spell32 hlength
    exact ⟨.float word, rfl, htext⟩
  | fieldRef =>
    refine (accepts_skip 4).map fun _ text hlength => ?_
    obtain ⟨first, second, htext⟩ := exists_spell16_pair hlength
    exact ⟨.fieldRef first second, rfl, htext⟩
  | invokeDynamic =>
    refine (accepts_skip 4).map fun _ text hlength => ?_
    obtain ⟨first, second, htext⟩ := exists_spell16_pair hlength
    exact ⟨.invokeDynamic first second, rfl, htext⟩
  | long =>
    refine (accepts_skip 8).map fun _ text hlength => ?_
    obtain ⟨word, htext⟩ := exists_spell64 hlength
    exact ⟨.long word, rfl, htext⟩
  | double =>
    refine (accepts_skip 8).map fun _ text hlength => ?_
    obtain ⟨word, htext⟩ := exists_spell64 hlength
    exact ⟨.double word, rfl, htext⟩

/-- What is taken for slots is constants that fill them. -/
theorem accepts_slotsOnto (left : Nat) (slots : Array Slot) :
    Accepts (ClassFile.slotsOnto left slots) fun _ text =>
      ∃ entries : List Entry, Fills left entries ∧ text = entries.flatMap Entry.bytes := by
  -- a constant leaves one or two slots fewer, so the induction is over all smaller numbers
  induction left using Nat.strongRecOn generalizing slots with
  | ind left ih =>
    obtain _ | left := left
    · refine (accepts_done slots).mono ?_
      rintro _ _ ⟨-, rfl⟩
      exact ⟨[], fills_nil_iff.mpr rfl, rfl⟩
    rw [ClassFile.slotsOnto]
    refine accepts_word8.bind_spell fun code => ?_
    cases htag : Tag.ofCode? code with
    | none => exact (accepts_fail _).mono fun _ _ h => h.elim
    | some tag =>
      refine (accepts_payload _ tag).bind fun slot text' hentry => ?_
      obtain ⟨entry, rfl, rfl⟩ := hentry
      obtain rfl := Tag.ofCode?_eq_some_iff.mp htag
      cases hwide : entry.tag.isWide with
      | false =>
        refine (ih left (by omega) _).mono ?_
        rintro _ _ ⟨entries, hfills, rfl⟩
        refine ⟨entry :: entries, (fills_cons_narrow_iff hwide).mpr hfills, ?_⟩
        rw [List.flatMap_cons, Entry.bytes, List.append_assoc]
      | true =>
        obtain _ | left := left
        · refine (accepts_done _).mono ?_
          rintro _ _ ⟨-, rfl⟩
          refine ⟨[entry], (fills_one_cons_wide_iff hwide).mpr rfl, ?_⟩
          rw [List.flatMap_cons, Entry.bytes, List.append_assoc, List.flatMap_nil]
        · refine (ih left (by omega) _).mono ?_
          rintro _ _ ⟨entries, hfills, rfl⟩
          refine ⟨entry :: entries, (fills_cons_wide_iff hwide).mpr hfills, ?_⟩
          rw [List.flatMap_cons, Entry.bytes, List.append_assoc]

/-- What is taken for a pool is one, and its slots are what was read. -/
theorem accepts_constantPool :
    Accepts ClassFile.constantPool fun read text =>
      ∃ pool : Pool, text = pool.bytes ∧ read = pool.constantPool := by
  have hsyntax : Accepts ClassFile.constantPool fun _ text =>
      ∃ pool : Pool, text = pool.bytes := by
    refine accepts_word16.bind_spell fun count => ?_
    refine Accepts.bind_nil (accepts_require _) fun _ _ => ?_
    refine (accepts_slotsOnto _ _).map ?_
    rintro slots _ ⟨entries, hfills, rfl⟩
    have hmax : count.toNat - 1 = max count.toNat 1 - 1 := by omega
    exact ⟨⟨count, entries, hmax ▸ hfills⟩, rfl⟩
  refine hsyntax.and_result.mono ?_
  rintro read _ ⟨⟨pool, rfl⟩, hresult⟩
  have hread := hresult pool.outcome fun offset => pool.decodes_constantPool offset
  exact ⟨pool, rfl, (Pool.result_outcome_eq_ok_iff.mp hread).2⟩

theorem accepts_indexedText (pool : Pool) :
    Accepts (ClassFile.indexedText pool.constantPool) fun text bytes =>
      ∃ index, pool.text? index = some text ∧ bytes = spell16 index := by
  refine accepts_word16.bind fun index bytes hindex => (accepts_ofExcept _ _).mono ?_
  rintro text _ ⟨htext, rfl⟩
  exact ⟨index, Pool.utf8_constantPool_eq_ok_iff.mp htext, by rw [hindex, List.append_nil]⟩

/-! ## Attributes -/

theorem accepts_skipAttribute :
    Accepts ClassFile.skipAttribute fun _ text =>
      ∃ payload : Counted 4 UInt8, text = payload.count ++ payload.items := by
  refine accepts_word32.bind_spell fun size => (accepts_skip _).mono fun _ text' hlength => ?_
  obtain ⟨payload, rfl, hcount⟩ := Counted.exists_of_length32 hlength
  exact ⟨payload, by rw [hcount]⟩

theorem accepts_lineNumbers :
    Accepts ClassFile.lineNumbers fun _ text => ∃ table : LineTable, text = table.bytes := by
  have hline : ∀ index : Nat, Accepts (word16 >>= fun _ => word16) fun _ text =>
      ∃ line : Line, True ∧ text = line.bytes := by
    intro index
    refine accepts_word16.bind_spell fun startPc => accepts_word16.mono ?_
    rintro line _ rfl
    exact ⟨⟨startPc, line⟩, trivial, rfl⟩
  refine accepts_word32.bind_spell fun declared => ?_
  refine accepts_word16.bind_spell fun count => ?_
  refine Accepts.bind_nil (accepts_require _) fun _ _ => ?_
  refine (accepts_collect hline _).mono ?_
  rintro _ _ ⟨items, hlength, -, rfl⟩
  obtain ⟨lines, rfl, hlines⟩ := Counted.exists_of_length16 hlength
  exact ⟨⟨declared, lines⟩, by simp [LineTable.bytes, hlines]⟩

theorem accepts_codeAttribute (pool : Pool) (order : Int32) (found : Position) :
    Accepts (ClassFile.codeAttribute pool.constantPool order found) fun _ text =>
      ∃ attr : CodeAttribute, attr.Named pool ∧ text = attr.bytes := by
  refine (accepts_indexedText pool).bind fun name text htext => ?_
  obtain ⟨index, hname, rfl⟩ := htext
  by_cases htable : name = "LineNumberTable"
  · rw [if_pos htable]
    refine accepts_lineNumbers.map ?_
    rintro _ _ ⟨table, rfl⟩
    exact ⟨.lineTable index table, by rw [CodeAttribute.Named, hname, htable], rfl⟩
  · rw [if_neg htable]
    refine accepts_skipAttribute.map ?_
    rintro _ _ ⟨payload, rfl⟩
    refine ⟨.other ⟨index, payload⟩, ?_, by simp [CodeAttribute.bytes, Attribute.bytes]⟩
    rw [CodeAttribute.Named, hname]
    simpa using htable

theorem exists_handler {text : List UInt8} (h : text.length = 8) :
    ∃ handler : Handler, text = handler.bytes := by
  obtain ⟨startPc, rest, rfl, hrest⟩ := exists_spell16_append 6 h
  obtain ⟨endPc, rest', rfl, hrest'⟩ := exists_spell16_append 4 hrest
  obtain ⟨handlerPc, catchType, rfl⟩ := exists_spell16_pair hrest'
  exact ⟨⟨startPc, endPc, handlerPc, catchType⟩, by simp [Handler.bytes]⟩

/-- What is taken for a Code attribute is one, with the attributes that their names make them. -/
theorem accepts_code (pool : Pool) (order : Int32) :
    Accepts (ClassFile.code pool.constantPool order) fun _ text =>
      ∃ code : Code, (∀ attr ∈ code.attributes.items, attr.Named pool) ∧ text = code.bytes := by
  refine accepts_word32.bind_spell fun declared => ?_
  refine Accepts.bind_nil accepts_position fun start _ => ?_
  refine accepts_word16.bind_spell fun maxStack => ?_
  refine accepts_word16.bind_spell fun maxLocals => ?_
  refine accepts_word32.bind_spell fun codeSize => ?_
  refine (accepts_skip _).bind fun _ text₅ hcode => ?_
  refine accepts_word16.bind_spell fun handlerCount => ?_
  refine (accepts_skip_items (fun _ => exists_handler) _).bind ?_
  rintro _ _ ⟨handlers, hlength, rfl⟩
  refine accepts_word16.bind_spell fun attributeCount => ?_
  refine (accepts_iterate (accepts_codeAttribute pool order) _ _).bind ?_
  rintro found _ ⟨attributes, hlength', hnamed, rfl⟩
  refine Accepts.bind_nil accepts_position fun stop _ => ?_
  obtain ⟨bytecode, rfl, hbytecode⟩ := Counted.exists_of_length32 hcode
  obtain ⟨handlers, rfl, hhandlers⟩ := Counted.exists_of_length16 hlength
  obtain ⟨attributes, rfl, hattributes⟩ := Counted.exists_of_length16 hlength'
  refine accepts_ite_log _ _ ((accepts_done found).mono ?_)
  rintro _ _ ⟨-, rfl⟩
  refine ⟨⟨declared, maxStack, maxLocals, bytecode, handlers, attributes⟩, hnamed, ?_⟩
  simp [Code.bytes, Code.contents, hbytecode, hhandlers, hattributes]

theorem accepts_methodAttribute (pool : Pool) (order : Int32) (signature : String)
    (found : Position) :
    Accepts (ClassFile.methodAttribute pool.constantPool order signature found) fun _ text =>
      ∃ attr : MethodAttribute, attr.Named pool ∧ text = attr.bytes := by
  refine (accepts_indexedText pool).bind fun name text htext => ?_
  obtain ⟨index, hname, rfl⟩ := htext
  by_cases hcode : name = "Code"
  · rw [if_pos hcode]
    refine (accepts_code pool order).mono ?_
    rintro _ _ ⟨body, hnamed, rfl⟩
    exact ⟨.code index body, ⟨by rw [hname, hcode], hnamed⟩, rfl⟩
  · rw [if_neg hcode]
    refine accepts_log_bind _ (accepts_skipAttribute.map ?_)
    rintro _ _ ⟨payload, rfl⟩
    refine ⟨.other ⟨index, payload⟩, ?_, by simp [MethodAttribute.bytes, Attribute.bytes]⟩
    rw [MethodAttribute.Named, hname]
    simpa using hcode

/-! ## Members -/

theorem accepts_skipField :
    Accepts ClassFile.skipField fun _ text =>
      ∃ field : FieldInfo, True ∧ text = field.bytes := by
  have hattr : ∀ state : Unit, Accepts (word16 >>= fun _ => ClassFile.skipAttribute) fun _ text =>
      ∃ attr : Attribute, True ∧ text = attr.bytes := by
    intro state
    refine accepts_word16.bind_spell fun name => accepts_skipAttribute.mono ?_
    rintro _ _ ⟨payload, rfl⟩
    exact ⟨⟨name, payload⟩, trivial, by simp [Attribute.bytes]⟩
  refine accepts_word16.bind_spell fun flags => ?_
  refine accepts_word16.bind_spell fun name => ?_
  refine accepts_word16.bind_spell fun descriptor => ?_
  refine accepts_word16.bind_spell fun count => ?_
  refine (accepts_iterate hattr _ _).mono ?_
  rintro _ _ ⟨items, hlength, -, rfl⟩
  obtain ⟨attributes, rfl, hattributes⟩ := Counted.exists_of_length16 hlength
  refine ⟨⟨flags, name, descriptor, attributes⟩, trivial, ?_⟩
  simp [FieldInfo.bytes, hattributes]

/-- What is taken for a method is one. -/
theorem accepts_method (pool : Pool) (index : Nat) :
    Accepts (ClassFile.method pool.constantPool index) fun _ text =>
      ∃ info : MethodInfo, (∀ attr ∈ info.attributes.items, attr.Named pool) ∧
        text = info.bytes := by
  refine accepts_word16.bind_spell fun flags => ?_
  refine (accepts_indexedText pool).bind ?_
  rintro name _ ⟨nameIndex, -, rfl⟩
  refine (accepts_indexedText pool).bind ?_
  rintro descriptor _ ⟨descriptorIndex, -, rfl⟩
  refine Accepts.bind_nil (accepts_ofExcept _ _) fun signature _ => ?_
  refine accepts_word16.bind_spell fun count => ?_
  refine (accepts_iterate (accepts_methodAttribute pool _ signature) _ _).bind ?_
  rintro position _ ⟨items, hlength, hnamed, rfl⟩
  obtain ⟨attributes, rfl, hattributes⟩ := Counted.exists_of_length16 hlength
  refine accepts_ite_log _ _ (accepts_log_bind _ ((accepts_done _).mono ?_))
  rintro _ _ ⟨-, rfl⟩
  refine ⟨⟨flags, nameIndex, descriptorIndex, attributes⟩, hnamed, ?_⟩
  simp [MethodInfo.bytes, hattributes]

theorem accepts_skipClassAttribute (pool : Pool) :
    Accepts (ClassFile.skipClassAttribute pool.constantPool) fun _ text =>
      ∃ attr : Attribute, True ∧ text = attr.bytes := by
  refine (accepts_indexedText pool).bind ?_
  rintro name _ ⟨index, -, rfl⟩
  refine accepts_log_bind _ (accepts_skipAttribute.mono ?_)
  rintro _ _ ⟨payload, rfl⟩
  exact ⟨⟨index, payload⟩, trivial, by simp [Attribute.bytes]⟩

/-! ## Whole images -/

/-- What a walk has taken when it succeeds is an image. -/
theorem accepts_summary :
    Accepts ClassFile.summary fun _ text => ∃ image : Image, text = image.bytes := by
  refine accepts_word32.bind_spell fun magic => ?_
  by_cases hmagic : magic ≠ ClassFile.magicNumber
  · rw [if_pos hmagic]
    exact (accepts_fail _).bind fun _ _ h => h.elim
  obtain rfl : magic = ClassFile.magicNumber := Decidable.not_not.mp hmagic
  rw [if_neg hmagic]
  refine accepts_word16.bind_spell fun minorVersion => ?_
  refine accepts_word16.bind_spell fun majorVersion => ?_
  refine accepts_constantPool.bind ?_
  rintro _ _ ⟨pool, rfl, rfl⟩
  refine accepts_log_bind _ ?_
  refine accepts_word16.bind_spell fun flags => ?_
  refine accepts_word16.bind_spell fun thisClass => ?_
  refine accepts_word16.bind_spell fun superClass => ?_
  refine accepts_word16.bind_spell fun interfaceCount => ?_
  refine (accepts_skip_items (fun _ => exists_spell16) _).bind ?_
  rintro _ _ ⟨interfaces, hlength, rfl⟩
  obtain ⟨interfaces, rfl, hinterfaces⟩ := Counted.exists_of_length16 hlength
  refine accepts_word16.bind_spell fun fieldCount => ?_
  refine (accepts_iterate (fun _ => accepts_skipField) _ _).bind ?_
  rintro _ _ ⟨fields, hlength, -, rfl⟩
  obtain ⟨fields, rfl, hfields⟩ := Counted.exists_of_length16 hlength
  refine accepts_word16.bind_spell fun methodCount => ?_
  refine (accepts_collect (accepts_method pool) _).bind ?_
  rintro _ _ ⟨methods, hlength, hnamed, rfl⟩
  obtain ⟨methods, rfl, hmethods⟩ := Counted.exists_of_length16 hlength
  refine accepts_word16.bind_spell fun attributeCount => ?_
  refine (accepts_iterate (fun _ => accepts_skipClassAttribute pool) _ _).map ?_
  rintro _ _ ⟨attributes, hlength, -, rfl⟩
  obtain ⟨attributes, rfl, hattributes⟩ := Counted.exists_of_length16 hlength
  refine ⟨⟨minorVersion, majorVersion, pool, flags, thisClass, superClass, interfaces, fields,
    methods, attributes, hnamed⟩, ?_⟩
  simp [bytes, hinterfaces, hfields, hmethods, hattributes]

/-- Bytes that are decoded start with an image. -/
theorem exists_of_result_runOn {bytes : List UInt8} {summary : ClassSummary}
    (h : (ClassFile.summary.runOn bytes).result = .ok summary) :
    ∃ (image : Image) (rest : List UInt8), bytes = image.bytes ++ rest := by
  rw [runOn, Cursor.start_eq_of] at h
  obtain ⟨text, rest, hbytes, -, image, rfl⟩ := accepts_summary 0 bytes #[] summary h
  exact ⟨image, rest, hbytes⟩

end ClassOutline.Image
