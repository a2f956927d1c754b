import ClassOutline.Proofs.Image.Meaning
import Mathlib.Data.List.Forall2

/-!
# What determines an outline

Two class files may differ in everything but what the outline tells of their methods. It tells of a
method its flags, its name, its descriptor, whether it has code, and the least of the line numbers
that its code has last (`MethodInfo.Agrees`); where these are the same, method by method, so are the
outlines and the maps of positions (`Outline.eq_of_agree`).
-/

namespace ClassOutline

/-! ## Sets of line numbers -/

/-- The least line does not depend on the order of the lines, nor on how often they occur. -/
theorem min?_eq_of_mem_iff {lines lines' : List UInt16} (h : ∀ line, line ∈ lines ↔ line ∈ lines') :
    lines.min? = lines'.min? := by
  cases hmin : lines.min? with
  | none =>
    obtain rfl : lines = [] := List.min?_eq_none_iff.mp hmin
    have hnil : lines' = [] := by
      rw [List.eq_nil_iff_forall_not_mem]
      intro line hline
      simpa using (h line).mpr hline
    rw [hnil, List.min?_nil]
  | some least =>
    rw [List.min?_eq_some_iff] at hmin
    simp only [h] at hmin
    exact (List.min?_eq_some_iff.mpr hmin).symm

/-- How often and in what order line numbers occur does not matter. -/
theorem Position.ofLines_eq_of_mem_iff (order : Int32) {lines lines' : List UInt16}
    (h : ∀ line, line ∈ lines ↔ line ∈ lines') : ofLines order lines = ofLines order lines' := by
  rw [ofLines, ofLines, min?_eq_of_mem_iff h]

namespace Image

/-! ## Methods that agree -/

namespace MethodInfo

/-- One of the attributes is Code. -/
def HasCode (info : MethodInfo) : Prop :=
  ∃ attr ∈ info.attributes.items, attr.code?.isSome

instance (info : MethodInfo) : Decidable info.HasCode :=
  inferInstanceAs (Decidable (∃ attr ∈ _, _))

/-- The line numbers that count: those in the last line number table of the last Code attribute. -/
def lines (info : MethodInfo) : List UInt16 :=
  match info.lastCode?.bind Code.lastTable? with
  | none => []
  | some table => table.lines.items.map Line.line

/-- Two methods, each with the pool of its class, of which an outline tells the same: the flags that
have a meaning, the texts of name and descriptor, whether there is code, and the set of line numbers
that count. -/
structure Agrees (pool pool' : Pool) (info info' : MethodInfo) : Prop where
  flags : MethodFlags.truncate info.flags = .truncate info'.flags
  name : pool.text? info.name = pool'.text? info'.name
  descriptor : pool.text? info.descriptor = pool'.text? info'.descriptor
  code : info.HasCode ↔ info'.HasCode
  lines : ∀ line, line ∈ info.lines ↔ line ∈ info'.lines

theorem lastCode?_eq_none_iff {info : MethodInfo} : info.lastCode? = none ↔ ¬info.HasCode := by
  rw [lastCode?, List.getLast?_eq_none_iff, List.filterMap_eq_nil_iff, HasCode]
  simp

/-- The position is that of the line numbers that count, which may be none, if there is code. -/
theorem position_eq_of_hasCode {info : MethodInfo} (h : info.HasCode) (order : Int32) :
    info.position order = .ofLines order info.lines := by
  unfold position lines
  cases hcode : info.lastCode? with
  | none => exact absurd h (lastCode?_eq_none_iff.mp hcode)
  | some code =>
    simp only [Option.bind_some, Code.position]
    cases code.lastTable? <;> rfl

theorem position_eq_of_not_hasCode {info : MethodInfo} (h : ¬info.HasCode) (order : Int32) :
    info.position order = .absent := by
  rw [position, lastCode?_eq_none_iff.mpr h]

variable {pool pool' : Pool} {info info' : MethodInfo}

/-- Methods that agree have the same position. -/
theorem Agrees.position_eq (h : Agrees pool pool' info info') (order : Int32) :
    info.position order = info'.position order := by
  by_cases hcode : info.HasCode
  · rw [position_eq_of_hasCode hcode, position_eq_of_hasCode (h.code.mp hcode)]
    exact Position.ofLines_eq_of_mem_iff order h.lines
  · have hcode' : ¬info'.HasCode := fun hcode' => hcode (h.code.mpr hcode')
    rw [position_eq_of_not_hasCode hcode, position_eq_of_not_hasCode hcode']

theorem Agrees.method_eq (h : Agrees pool pool' info info') (index : Nat) :
    info.method pool index = info'.method pool' index := by
  simp only [method, signature, Pool.textAt, h.name, h.descriptor, h.flags, h.position_eq]

end MethodInfo

/-! ## Images that agree -/

/-- Methods that agree one by one are the same in the outline. -/
theorem methods_eq_of_agree {pool pool' : Pool} {infos infos' : List MethodInfo}
    (h : List.Forall₂ (MethodInfo.Agrees pool pool') infos infos') (start : Nat) :
    ((infos.zipIdx start).map fun entry => entry.1.method pool entry.2) =
      (infos'.zipIdx start).map fun entry => entry.1.method pool' entry.2 := by
  induction h generalizing start with
  | nil => rfl
  | cons hinfo _ ih =>
    rw [List.zipIdx_cons, List.zipIdx_cons, List.map_cons, List.map_cons, ih,
      hinfo.method_eq start]

theorem eq_outline_of_decode {image : Image} {rest : List UInt8} {outline : Outline}
    (h : (Outline.decode (image.bytes ++ rest)).result = .ok outline) :
    outline = image.outline := by
  rw [Outline.result_decode, result_runOn_append, map_eq_ok_iff] at h
  obtain ⟨summary, hresult, rfl⟩ := h
  obtain ⟨-, rfl⟩ := result_outcome_eq_ok_iff.mp hresult
  rfl

end Image

/-- Two class files that are decoded, whatever their pools, their other parts and what follows them:
if they have as many methods and these agree one by one, then their outlines are the same, and so
are their maps of positions. -/
theorem Outline.eq_of_agree {image image' : Image} {rest rest' : List UInt8}
    {outline outline' : Outline}
    (decoded : (decode (image.bytes ++ rest)).result = .ok outline)
    (decoded' : (decode (image'.bytes ++ rest')).result = .ok outline')
    (agree : List.Forall₂ (Image.MethodInfo.Agrees image.pool image'.pool) image.methods.items
      image'.methods.items) :
    outline = outline' ∧
      (Positions.decode (image.bytes ++ rest)).result = .ok outline.positions ∧
      (Positions.decode (image'.bytes ++ rest')).result = .ok outline.positions := by
  have hsame : outline = outline' := by
    rw [Image.eq_outline_of_decode decoded, Image.eq_outline_of_decode decoded', Image.outline,
      Image.outline, Image.methods_eq_of_agree agree 0]
  subst hsame
  rw [Positions.result_decode, Positions.result_decode, decoded, decoded']
  exact ⟨rfl, rfl, rfl⟩

namespace Image

/-- The texts `f`, `()V`, `Code` and `LineNumberTable`. -/
def lineTexts : Fin 4 → List UInt8
  | 0 => [0x66]
  | 1 => [0x28, 0x29, 0x56]
  | 2 => [0x43, 0x6F, 0x64, 0x65]
  | 3 => [0x4C, 0x69, 0x6E, 0x65, 0x4E, 0x75, 0x6D, 0x62, 0x65, 0x72, 0x54, 0x61, 0x62, 0x6C, 0x65]

theorem length_lineTexts (which : Fin 4) : (lineTexts which).length < 256 ^ 2 := by
  revert which
  decide

def lineConstants (which : Fin 4) : Entry :=
  .utf8 ⟨lineTexts which, length_lineTexts which⟩

/-- A Code attribute with one line number table, whose name is in slot `name`. -/
def codeOfLines (name : UInt16) (lines : Counted 2 Line) : Code where
  declared := 0
  maxStack := 1
  maxLocals := 1
  bytecode := ⟨[0xB1], by decide⟩
  handlers := ⟨[], by decide⟩
  attributes := ⟨[.lineTable name ⟨0, lines⟩], by simp⟩

/-- A method with code for lines 7 and 5. -/
def onceCoded : MethodInfo where
  flags := 1
  name := 1
  descriptor := 2
  attributes := ⟨[.code 3 (codeOfLines 4 ⟨[⟨0, 7⟩, ⟨4, 5⟩], by decide⟩)], by decide⟩

/-- A method with a flag that has no meaning, and with two Code attributes, the last one for lines 5
and 7. -/
def twiceCoded : MethodInfo where
  flags := 0x8001
  name := 6
  descriptor := 5
  attributes :=
    ⟨[.code 4 (codeOfLines 3 ⟨[⟨0, 1⟩], by decide⟩),
      .code 4 (codeOfLines 3 ⟨[⟨0, 5⟩, ⟨1, 7⟩, ⟨2, 5⟩], by decide⟩)], by decide⟩

/-- A class with one method, `void f()`. -/
def fewConstants : Image where
  minorVersion := 0
  majorVersion := 52
  pool :=
    { count := 5
      entries := [lineConstants 0, lineConstants 1, lineConstants 2, lineConstants 3]
      fills := .inl rfl }
  flags := 0
  thisClass := 0
  superClass := 0
  interfaces := ⟨[], by decide⟩
  fields := ⟨[], by decide⟩
  methods := ⟨[onceCoded], by decide⟩
  attributes := ⟨[], by decide⟩
  named := by decide +kernel

/-- Another class with one method, `void f()`: its constants are in another order and after a long,
and it has an interface. -/
def manyConstants : Image where
  minorVersion := 3
  majorVersion := 61
  pool :=
    { count := 7
      entries := [.long 0, lineConstants 3, lineConstants 2, lineConstants 1, lineConstants 0]
      fills := .inl rfl }
  flags := 1
  thisClass := 9
  superClass := 9
  interfaces := ⟨[9], by decide⟩
  fields := ⟨[], by decide⟩
  methods := ⟨[twiceCoded], by decide⟩
  attributes := ⟨[], by decide⟩
  named := by decide +kernel

def outlineOfLines : Outline where
  methods :=
    [{ order := 0, flags := .truncate 1, name := "f", descriptor := "()V", signature := "void f()",
       position := ⟨5, 0, true⟩ }]

theorem agrees_coded :
    MethodInfo.Agrees fewConstants.pool manyConstants.pool onceCoded twiceCoded := by
  have honce : onceCoded.lines = [7, 5] := rfl
  have htwice : twiceCoded.lines = [5, 7, 5] := rfl
  refine ⟨by decide, by decide +kernel, by decide +kernel, by decide, fun line => ?_⟩
  rw [honce, htwice]
  grind

end Image

theorem Outline.eq_of_agree_constants :
    (decode (Image.fewConstants.bytes ++ [0])).result = .ok Image.outlineOfLines ∧
    (decode (Image.manyConstants.bytes ++ [])).result = .ok Image.outlineOfLines ∧
    (Positions.decode (Image.fewConstants.bytes ++ [0])).result =
      .ok Image.outlineOfLines.positions ∧
    (Positions.decode (Image.manyConstants.bytes ++ [])).result =
      .ok Image.outlineOfLines.positions := by
  have hfew : (decode (Image.fewConstants.bytes ++ [0])).result = .ok Image.outlineOfLines := by
    decide +kernel
  have hmany : (decode (Image.manyConstants.bytes ++ [])).result = .ok Image.outlineOfLines := by
    decide +kernel
  obtain ⟨-, hpositions, hpositions'⟩ := eq_of_agree hfew hmany (.cons Image.agrees_coded .nil)
  exact ⟨hfew, hmany, hpositions, hpositions'⟩

end ClassOutline
