import ClassOutline.Proofs.Image.Entries

/-!
# Which attribute decides a position

Where the code of a method starts is told by the last of its attributes that is named Code, and in
it by the last that is named as a line number table, whatever stands before, between and after them.
What these two tell is said by the names of attributes alone (`MethodInfo.Places`), without a reader
and without loops that overwrite what was found before. Main statement: this is the position of
every method of a decoded class file, and nothing else is (`Outline.position_of_decode`).
-/

namespace ClassOutline.Image

/-! ## Last items -/

/-- The item has the property, and none after it has. -/
def LastWith {α : Type} (p : α → Prop) (items : List α) (item : α) : Prop :=
  ∃ before after, items = before ++ item :: after ∧ p item ∧ ∀ later ∈ after, ¬p later

section LastWith

variable {α β : Type} {p : α → Prop} {items : List α} {item : α}

theorem LastWith.mem (h : LastWith p items item) : item ∈ items := by
  rcases h with ⟨before, after, rfl, -, -⟩
  simp

variable {f : α → Option β} (hf : ∀ item ∈ items, (f item).isSome ↔ p item)
include hf

theorem getLast?_filterMap_eq_none_iff :
    (items.filterMap f).getLast? = none ↔ ∀ item ∈ items, ¬p item := by
  simp only [List.getLast?_eq_none_iff, List.filterMap_eq_nil_iff]
  refine forall₂_congr fun item hitem => ?_
  rw [← hf item hitem, Option.not_isSome_iff_eq_none]

/-- What is picked last is picked from the last item from which something is. -/
theorem getLast?_filterMap_eq_some_iff {value : β} :
    (items.filterMap f).getLast? = some value ↔
      ∃ item, LastWith p items item ∧ f item = some value := by
  rw [List.getLast?_filterMap, List.findSome?_eq_some_iff]
  constructor
  · -- The search runs from the end, so what it has passed is what stands after the item.
    rintro ⟨after, item, before, hitems, hvalue, hafter⟩
    have hsplit : items = before.reverse ++ item :: after.reverse := by
      simpa using congrArg List.reverse hitems
    have hp : p item := (hf item (by simp [hsplit])).mp (by simp [hvalue])
    refine ⟨item, ⟨_, _, hsplit, hp, fun later hlater hp => ?_⟩, hvalue⟩
    have hpicked := (hf later (by simp [hsplit, List.mem_reverse.mp hlater])).mpr hp
    simp [hafter later (List.mem_reverse.mp hlater)] at hpicked
  · rintro ⟨item, ⟨before, after, rfl, -, hafter⟩, hvalue⟩
    refine ⟨after.reverse, item, before.reverse, by simp, hvalue, fun later hlater => ?_⟩
    have hlater : later ∈ after := List.mem_reverse.mp hlater
    have hnone := mt (hf later (by simp [hlater])).mp (hafter later hlater)
    exact Option.not_isSome_iff_eq_none.mp hnone

end LastWith

/-! ## Attributes by their names -/

def MethodAttribute.IsCode (pool : Pool) (attr : MethodAttribute) : Prop :=
  pool.text? attr.name = some "Code"

/-- The attribute of a Code attribute is named as a line number table. -/
def CodeAttribute.IsTable (pool : Pool) (attr : CodeAttribute) : Prop :=
  pool.text? attr.name = some "LineNumberTable"

section Named

variable {pool : Pool}

theorem CodeAttribute.Named.isSome_table?_iff {attr : CodeAttribute} (h : attr.Named pool) :
    attr.table?.isSome ↔ attr.IsTable pool := by
  cases attr with
  | lineTable slot table => exact iff_of_true rfl h
  | other attr => exact iff_of_false Bool.false_ne_true h

theorem MethodAttribute.Named.isSome_code?_iff {attr : MethodAttribute} (h : attr.Named pool) :
    attr.code?.isSome ↔ attr.IsCode pool := by
  cases attr with
  | code slot body => exact iff_of_true rfl h.1
  | other attr => exact iff_of_false Bool.false_ne_true h

end Named

/-! ## What the last attributes tell -/

/-- The position that a Code attribute of the method in place `order` tells: the least of the lines
in its last line number table, if there is such a table and a line in it. -/
inductive Code.Places (pool : Pool) (order : Int32) (code : Code) : Position → Prop where
  | untabled (none : ∀ attr ∈ code.attributes.items, ¬attr.IsTable pool) :
      Places pool order code (.unlined order)
  | empty {name : UInt16} {table : LineTable}
      (last : LastWith (·.IsTable pool) code.attributes.items (.lineTable name table))
      (empty : table.lines.items = []) : Places pool order code (.unlined order)
  | lined {name : UInt16} {table : LineTable} {entry : Line}
      (last : LastWith (·.IsTable pool) code.attributes.items (.lineTable name table))
      (mem : entry ∈ table.lines.items)
      (least : ∀ other ∈ table.lines.items, entry.line ≤ other.line) :
      Places pool order code (.ofLine (Int32.ofNat entry.line.toNat) order)

/-- The position that the attributes of the method in place `order` tell. -/
inductive MethodInfo.Places (pool : Pool) (order : Int32) (info : MethodInfo) : Position → Prop
  | absent (none : ∀ attr ∈ info.attributes.items, ¬attr.IsCode pool) :
      Places pool order info .absent
  | coded {name : UInt16} {body : Code} {position : Position}
      (last : LastWith (·.IsCode pool) info.attributes.items (.code name body))
      (places : body.Places pool order position) : Places pool order info position

namespace Code

variable {pool : Pool} {order : Int32} {code : Code} {position : Position}
  (named : ∀ attr ∈ code.attributes.items, attr.Named pool)
include named

theorem lastTable?_eq_none_iff :
    code.lastTable? = none ↔ ∀ attr ∈ code.attributes.items, ¬attr.IsTable pool :=
  getLast?_filterMap_eq_none_iff fun attr hattr => (named attr hattr).isSome_table?_iff

theorem lastTable?_eq_some_iff {table : LineTable} :
    code.lastTable? = some table ↔
      ∃ name, LastWith (·.IsTable pool) code.attributes.items (.lineTable name table) := by
  rw [lastTable?,
    getLast?_filterMap_eq_some_iff fun attr hattr => (named attr hattr).isSome_table?_iff]
  constructor
  · rintro ⟨attr, hlast, htable⟩
    cases attr with
    | other attr => cases htable
    | lineTable name found => exact ⟨name, Option.some.inj htable ▸ hlast⟩
  · rintro ⟨name, hlast⟩
    exact ⟨_, hlast, rfl⟩

/-- The position of a Code attribute is the one that its last table tells. -/
theorem places_iff : code.Places pool order position ↔ code.position order = position := by
  constructor
  · intro h
    cases h with
    | untabled none => rw [Code.position, (lastTable?_eq_none_iff named).mpr none]
    | empty last empty =>
      rw [Code.position, (lastTable?_eq_some_iff named).mpr ⟨_, last⟩]
      simp only [LineTable.position, empty, List.map_nil, Position.ofLines, List.min?_nil]
    | lined last mem least =>
      rw [Code.position, (lastTable?_eq_some_iff named).mpr ⟨_, last⟩]
      have hmin := List.min?_eq_some_iff.mpr
        ⟨List.mem_map_of_mem (f := Line.line) mem, by simpa using least⟩
      simp only [LineTable.position, Position.ofLines, hmin]
  · rintro rfl
    cases htable : code.lastTable? with
    | none =>
      rw [Code.position, htable]
      exact .untabled ((lastTable?_eq_none_iff named).mp htable)
    | some table =>
      obtain ⟨name, last⟩ := (lastTable?_eq_some_iff named).mp htable
      rw [Code.position, htable]
      simp only [LineTable.position, Position.ofLines]
      cases hmin : (table.lines.items.map Line.line).min? with
      | none => exact .empty last (by simpa using hmin)
      | some line =>
        obtain ⟨hmem, hleast⟩ := List.min?_eq_some_iff.mp hmin
        obtain ⟨entry, hentry, rfl⟩ := List.mem_map.mp hmem
        exact .lined last hentry (by simpa using hleast)

end Code

namespace MethodInfo

variable {pool : Pool} {order : Int32} {info : MethodInfo} {position : Position}
  (named : ∀ attr ∈ info.attributes.items, attr.Named pool)
include named

theorem lastCode?_eq_none_iff_named :
    info.lastCode? = none ↔ ∀ attr ∈ info.attributes.items, ¬attr.IsCode pool :=
  getLast?_filterMap_eq_none_iff fun attr hattr => (named attr hattr).isSome_code?_iff

theorem lastCode?_eq_some_iff {body : Code} :
    info.lastCode? = some body ↔
      ∃ name, LastWith (·.IsCode pool) info.attributes.items (.code name body) := by
  rw [lastCode?,
    getLast?_filterMap_eq_some_iff fun attr hattr => (named attr hattr).isSome_code?_iff]
  constructor
  · rintro ⟨attr, hlast, hcode⟩
    cases attr with
    | other attr => cases hcode
    | code name found => exact ⟨name, Option.some.inj hcode ▸ hlast⟩
  · rintro ⟨name, hlast⟩
    exact ⟨_, hlast, rfl⟩

/-- The position of a method is the one that its last Code attribute tells. -/
theorem places_iff : info.Places pool order position ↔ info.position order = position := by
  have hbody : ∀ {name : UInt16} {body : Code},
      LastWith (·.IsCode pool) info.attributes.items (.code name body) →
        ∀ attr ∈ body.attributes.items, attr.Named pool := by
    intro name body hlast
    exact (named _ hlast.mem).2
  constructor
  · intro h
    cases h with
    | absent none => rw [MethodInfo.position, (lastCode?_eq_none_iff_named named).mpr none]
    | coded last places =>
      rw [MethodInfo.position, (lastCode?_eq_some_iff named).mpr ⟨_, last⟩]
      exact (Code.places_iff (hbody last)).mp places
  · rintro rfl
    cases hcode : info.lastCode? with
    | none =>
      rw [MethodInfo.position, hcode]
      exact .absent ((lastCode?_eq_none_iff_named named).mp hcode)
    | some body =>
      obtain ⟨name, last⟩ := (lastCode?_eq_some_iff named).mp hcode
      rw [MethodInfo.position, hcode]
      exact .coded last ((Code.places_iff (hbody last)).mpr rfl)

/-- The position of a method without code is that of no method with code. -/
theorem position_eq_absent_iff {index : Nat} (small : index < 2 ^ 31) :
    info.position (Int32.ofNat index) = .absent ↔
      ∀ attr ∈ info.attributes.items, ¬attr.IsCode pool := by
  rw [← lastCode?_eq_none_iff_named named, lastCode?_eq_none_iff]
  constructor
  · intro hposition hcode
    have hplace : (info.position (Int32.ofNat index)).order.toInt =
        if info.HasCode then (index : Int) else -1 := (info.exact_method small pool).place
    rw [hposition, if_pos hcode] at hplace
    have habsent : Position.absent.order.toInt = -1 := rfl
    omega
  · intro hcode
    exact position_eq_of_not_hasCode hcode _

end MethodInfo

/-! ## Attributes that are passed over -/

section Skipped

variable {pool : Pool}

/-- An attribute with any other name is passed over by its length, one with the name of a line
number table as well. -/
theorem MethodAttribute.Named.exists_other {attr : MethodAttribute} (h : attr.Named pool)
    (hname : ¬attr.IsCode pool) : ∃ skipped : Attribute, attr = .other skipped := by
  cases attr with
  | code slot body => exact absurd h.1 hname
  | other skipped => exact ⟨skipped, rfl⟩

/-- Within Code it is so too, and with an attribute that is named Code as well. -/
theorem CodeAttribute.Named.exists_other {attr : CodeAttribute} (h : attr.Named pool)
    (hname : ¬attr.IsTable pool) : ∃ skipped : Attribute, attr = .other skipped := by
  cases attr with
  | lineTable slot table => exact absurd h hname
  | other skipped => exact ⟨skipped, rfl⟩

end Skipped

end ClassOutline.Image

namespace ClassOutline

/-- Of whatever is decoded, and however it is taken apart: a method is without position exactly if
none of its attributes is named Code; its position is what its last Code attribute and the last line
number table in that one tell; and the attributes that have other names are passed over. -/
theorem Outline.position_of_decode {bytes : List UInt8} {outline : Outline}
    (decoded : (decode bytes).result = .ok outline) :
    (∃ (image : Image) (rest : List UInt8), bytes = image.bytes ++ rest) ∧
    ∀ (image : Image) (rest : List UInt8), bytes = image.bytes ++ rest →
      outline.methods.length = image.methods.items.length ∧
      ∀ (index : Nat) (info : Image.MethodInfo), image.methods.items[index]? = some info →
        ∃ method, outline.methods[index]? = some method ∧
          (method.position = .absent ↔
            ∀ attr ∈ info.attributes.items, ¬attr.IsCode image.pool) ∧
          (∀ position, method.position = position ↔
            info.Places image.pool (Int32.ofNat index) position) ∧
          (∀ attr ∈ info.attributes.items, ¬attr.IsCode image.pool →
            ∃ skipped, attr = .other skipped) ∧
          ∀ name body, .code name body ∈ info.attributes.items →
            ∀ attr ∈ body.attributes.items, ¬attr.IsTable image.pool →
              ∃ skipped, attr = .other skipped := by
  constructor
  · obtain ⟨image, rest, hbytes, -, -⟩ := Image.exists_valid_of_decode decoded
    exact ⟨image, rest, hbytes⟩
  · rintro image rest rfl
    obtain rfl := Image.eq_outline_of_decode decoded
    refine ⟨by simp [Image.outline], fun index info hinfo => ?_⟩
    have hnamed := image.named info (List.mem_of_getElem? hinfo)
    refine ⟨info.method image.pool index, ?_, ?_, ?_, ?_, ?_⟩
    · rw [Image.getElem?_methods_outline, hinfo, Option.map_some]
    · exact Image.MethodInfo.position_eq_absent_iff hnamed (Image.index_lt hinfo)
    · intro position
      exact (Image.MethodInfo.places_iff hnamed).symm
    · intro attr hattr hname
      exact (hnamed attr hattr).exists_other hname
    · intro name body hbody attr hattr hname
      exact ((hnamed _ hbody).2 attr hattr).exists_other hname

/-- A class file with three methods: one with a line number table outside of Code; one, abstract,
whose last Code has a line number table, an attribute named Code and an empty table; and one whose
last Code has two tables, the last one with the lines 5, 3 and 5. -/
def strayAttributes : List UInt8 :=
  [0xCA, 0xFE, 0xBA, 0xBE, 0, 0, 0, 0x34, 0, 5,
    1, 0, 1, 0x66, 1, 0, 3, 0x28, 0x29, 0x56, 1, 0, 4, 0x43, 0x6F, 0x64, 0x65,
    1, 0, 0x0F, 0x4C, 0x69, 0x6E, 0x65, 0x4E, 0x75, 0x6D, 0x62, 0x65, 0x72, 0x54, 0x61, 0x62,
    0x6C, 0x65,
    0, 0, 0, 0, 0, 0, 0, 0, 0, 0, 0, 3,
    0, 1, 0, 1, 0, 2, 0, 1,
    0, 4, 0, 0, 0, 2, 0, 1,
    4, 0, 0, 1, 0, 2, 0, 2,
    0, 3, 0, 0, 0, 0, 0, 0, 0, 0, 0, 0, 0, 0, 0, 0, 0, 1, 0, 4, 0, 0, 0, 0, 0, 1, 0, 0, 0, 7,
    0, 3, 0, 0, 0, 0, 0, 0, 0, 0, 0, 0, 0, 0, 0, 0, 0, 3, 0, 4, 0, 0, 0, 0, 0, 1, 0, 0, 0, 9, 0,
    3, 0, 0, 0, 2, 0, 5, 0, 4, 0, 0, 0, 0, 0, 0,
    0, 1, 0, 1, 0, 2, 0, 4,
    0, 3, 0, 0, 0, 0, 0, 0, 0, 0, 0, 0, 0, 0, 0, 0, 0, 1, 0, 4, 0, 0, 0, 0, 0, 1, 0, 0, 0, 1,
    0, 1, 0, 0, 0, 1, 7,
    0, 3, 0, 0, 0, 0, 0, 0, 0, 0, 0, 0, 0, 0, 0, 0, 0, 2, 0, 4, 0, 0, 0, 0, 0, 1, 0, 0, 0, 8, 0,
    4, 0, 0, 0, 0, 0, 3, 0, 0, 0, 5, 0, 1, 0, 3, 0, 2, 0, 5,
    0, 4, 0, 0, 0, 1, 9,
    0, 0]

def strayAttributesOutline : Outline where
  methods :=
    [{ order := 0, flags := .truncate 1, name := "f", descriptor := "()V", signature := "void f()",
       position := .absent },
      { order := 1, flags := .truncate 0x400, name := "f", descriptor := "()V",
        signature := "void f()", position := .unlined 1 },
      { order := 2, flags := .truncate 1, name := "f", descriptor := "()V",
        signature := "void f()", position := .ofLine 3 2 }]

theorem Outline.position_of_decode_strayAttributes :
    (decode strayAttributes).result = .ok strayAttributesOutline ∧
    (∃ (image : Image) (rest : List UInt8), strayAttributes = image.bytes ++ rest) ∧
    ∀ (image : Image) (rest : List UInt8), strayAttributes = image.bytes ++ rest →
      ∀ (index : Nat) (info : Image.MethodInfo), image.methods.items[index]? = some info →
        ∃ method, strayAttributesOutline.methods[index]? = some method ∧
          ∀ position, method.position = position ↔
            info.Places image.pool (Int32.ofNat index) position := by
  have hdecode : (decode strayAttributes).result = .ok strayAttributesOutline := by
    decide +kernel
  obtain ⟨htaken, hmethods⟩ := position_of_decode hdecode
  refine ⟨hdecode, htaken, fun image rest hbytes index info hinfo => ?_⟩
  obtain ⟨method, hmethod, -, hplaces, -⟩ := (hmethods image rest hbytes).2 index info hinfo
  exact ⟨method, hmethod, hplaces⟩

end ClassOutline
