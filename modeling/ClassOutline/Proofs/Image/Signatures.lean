import ClassOutline.Proofs.Descriptor.Signature
import ClassOutline.Proofs.Image.Meaning
import ClassOutline.Proofs.Outline.Positions

/-!
# Signatures in outlines

Every method of a decoded outline has the signature that belongs to its name and its descriptor
(`methodSignature_of_mem`). Main statement: where class names are plain, methods that differ in name
or descriptor differ in signature, so that the map of positions keeps all of them
(`signatures_identify_methods`).
-/

namespace ClassOutline

/-! ## What a decoded outline says -/

namespace Image

/-- What is decoded starts with an image that makes sense. -/
theorem exists_valid_of_decode {bytes : List UInt8} {outline : Outline}
    (h : (Outline.decode bytes).result = .ok outline) :
    ∃ (image : Image) (rest : List UInt8),
      bytes = image.bytes ++ rest ∧ image.Valid ∧ outline = image.outline := by
  rw [Outline.result_decode, map_eq_ok_iff] at h
  obtain ⟨summary, hrun, rfl⟩ := h
  obtain ⟨image, rest, rfl⟩ := exists_of_result_runOn hrun
  rw [result_runOn_append, result_outcome_eq_ok_iff] at hrun
  obtain ⟨hvalid, rfl⟩ := hrun
  exact ⟨image, rest, rfl, hvalid, rfl⟩

theorem MethodInfo.methodSignature_method {pool : Pool} {info : MethodInfo} (h : info.Valid pool)
    (index : Nat) :
    methodSignature (info.method pool index).name (info.method pool index).descriptor =
      .ok (info.method pool index).signature := by
  obtain ⟨-, ⟨descriptor, described, hdescriptor, hparse⟩, -⟩ := h
  simp [method, signature, methodSignature, Pool.textAt, hdescriptor, hparse, Except.map]

end Image

namespace Outline

variable {bytes : List UInt8} {outline : Outline}

/-- The signature of a decoded method is that of its name and descriptor. -/
theorem methodSignature_of_mem (hdecode : (decode bytes).result = .ok outline) {method : Method}
    (h : method ∈ outline.methods) :
    methodSignature method.name method.descriptor = .ok method.signature := by
  obtain ⟨image, rest, -, ⟨-, hmethods, -⟩, rfl⟩ := Image.exists_valid_of_decode hdecode
  obtain ⟨⟨info, index⟩, hinfo, rfl⟩ := List.mem_map.mp h
  exact Image.MethodInfo.methodSignature_method
    (hmethods info (List.fst_mem_of_mem_zipIdx hinfo)) index

theorem exists_parse_of_mem (hdecode : (decode bytes).result = .ok outline) {method : Method}
    (h : method ∈ outline.methods) :
    ∃ described, MethodDescriptor.parse method.descriptor = .ok described := by
  have hsignature := methodSignature_of_mem hdecode h
  rw [methodSignature, map_eq_ok_iff] at hsignature
  obtain ⟨described, hparse, -⟩ := hsignature
  exact ⟨described, hparse⟩

/-- Methods with plain class names that differ in name or descriptor have different signatures. -/
theorem nodup_signatures (hdecode : (decode bytes).result = .ok outline)
    (distinct : (outline.methods.map fun method => (method.name, method.descriptor)).Nodup)
    (plain : ∀ method ∈ outline.methods, PlainNames method.descriptor) :
    (outline.methods.map Method.signature).Nodup := by
  refine distinct.of_map.map_on fun first hfirst second hsecond hsame => ?_
  obtain ⟨described, hparse⟩ := exists_parse_of_mem hdecode hfirst
  obtain ⟨described', hparse'⟩ := exists_parse_of_mem hdecode hsecond
  obtain ⟨hname, hdescriptor⟩ := methodSignature_inj hparse hparse' (plain first hfirst)
    (plain second hsecond) (by
      rw [methodSignature_of_mem hdecode hfirst, methodSignature_of_mem hdecode hsecond, hsame])
  exact List.inj_on_of_nodup_map distinct hfirst hsecond (Prod.ext hname hdescriptor)

/-! ## Telling methods apart -/

/-- Of two names and two descriptors with plain class names, the signatures are the same only if
both are; so the map of a class whose methods have such class names and differ in name or descriptor
has an entry for each method, with its position. -/
theorem signatures_identify_methods :
    (∀ (name₁ descriptor₁ name₂ descriptor₂ : String) (method₁ method₂ : MethodDescriptor),
      MethodDescriptor.parse descriptor₁ = .ok method₁ →
      MethodDescriptor.parse descriptor₂ = .ok method₂ →
      PlainNames descriptor₁ → PlainNames descriptor₂ →
      methodSignature name₁ descriptor₁ = methodSignature name₂ descriptor₂ →
        name₁ = name₂ ∧ descriptor₁ = descriptor₂) ∧
    ∀ (bytes : List UInt8) (outline : Outline),
      (decode bytes).result = .ok outline →
      (outline.methods.map fun method => (method.name, method.descriptor)).Nodup →
      (∀ method ∈ outline.methods, PlainNames method.descriptor) →
        outline.positions.size = outline.methods.length ∧
        ∀ method ∈ outline.methods,
          outline.positions[method.signature]? = some method.position := by
  refine ⟨fun _ _ _ _ _ _ parsed₁ parsed₂ plain₁ plain₂ h =>
    methodSignature_inj parsed₁ parsed₂ plain₁ plain₂ h,
    fun bytes outline hdecode distinct plain => ?_⟩
  have hsignatures := nodup_signatures hdecode distinct plain
  exact ⟨size_positions_of_nodup hsignatures,
    fun method hmethod => getElem?_positions_of_nodup hsignatures hmethod⟩

/-- A class file with two methods of one name, neither with code. -/
def overloads : List UInt8 :=
  [0xCA, 0xFE, 0xBA, 0xBE, 0, 0, 0, 0x34, 0, 4,
    1, 0, 1, 0x66, 1, 0, 3, 0x28, 0x29, 0x56,
    1, 0, 8, 0x28, 0x4C, 0x61, 0x2F, 0x62, 0x3B, 0x29, 0x56,
    0, 0, 0, 0, 0, 0, 0, 0, 0, 0, 0, 2,
    4, 1, 0, 1, 0, 2, 0, 0, 4, 1, 0, 1, 0, 3, 0, 0, 0, 0]

def overloadsOutline : Outline where
  methods :=
    [{ order := 0, flags := .truncate 0x401, name := "f", descriptor := "()V",
       signature := "void f()", position := .absent },
      { order := 1, flags := .truncate 0x401, name := "f", descriptor := "(La/b;)V",
        signature := "void f(a.b)", position := .absent }]

theorem result_decode_overloads : (decode overloads).result = .ok overloadsOutline := by
  have hsome : (decode overloads).result.toOption = some overloadsOutline := by decide +kernel
  cases h : (decode overloads).result with
  | error error => simp [h, Except.toOption] at hsome
  | ok outline =>
    rw [h] at hsome
    rw [Option.some.inj hsome]

theorem plain_overloads : ∀ method ∈ overloadsOutline.methods, PlainNames method.descriptor := by
  have hnone : PlainNames "()V" := by
    refine (plainNames_text ⟨[], .void, by decide⟩).mpr ?_
    simp [Written.Descriptor.Plain, Written.Descriptor.classNames, Written.Result.classNames]
  have hone : PlainNames "(La/b;)V" := by
    refine (plainNames_text
      ⟨[⟨0, .object ⟨['a', '/', 'b'], by decide⟩⟩], .void, by decide⟩).mpr ?_
    intro name hname
    obtain rfl : name = ⟨['a', '/', 'b'], by decide⟩ := List.mem_singleton.mp hname
    exact ⟨by decide, by simp, fun type => by cases type <;> decide, by decide⟩
  simp [overloadsOutline, hnone, hone]

theorem signatures_identify_methods_overloads :
    (decode overloads).result = .ok overloadsOutline ∧
      overloadsOutline.positions.size = 2 ∧
      overloadsOutline.positions["void f(a.b)"]? = some .absent := by
  have hkept := signatures_identify_methods.2 overloads overloadsOutline result_decode_overloads
    (by decide) plain_overloads
  exact ⟨result_decode_overloads, hkept.1, hkept.2 _ (List.mem_of_getElem? (i := 1) rfl)⟩

end Outline

end ClassOutline
