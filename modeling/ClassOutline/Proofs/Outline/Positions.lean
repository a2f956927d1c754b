import ClassOutline.Outline.Basic
import Mathlib.Data.List.Dedup

/-!
# What the map of positions keeps

The map has one entry for every signature that occurs (`keys_positions_perm`). Where no signature
occurs twice it therefore keeps all methods, each with its own position.
-/

namespace ClassOutline.Outline

/-- The map has the signatures that methods are declared with. -/
theorem mem_positions_iff {outline : Outline} {signature : String} :
    signature ∈ outline.positions ↔ signature ∈ outline.methods.map Method.signature := by
  rw [Std.TreeMap.mem_iff_isSome_getElem?, getElem?_positions, Option.isSome_map, find?,
    List.find?_isSome]
  simp

/-- The signatures in the map are those of the methods, without repetition. -/
theorem keys_positions_perm (outline : Outline) :
    outline.positions.keys.Perm (outline.methods.map Method.signature).dedup := by
  refine (List.perm_ext_iff_of_nodup Std.TreeMap.nodup_keys (List.nodup_dedup _)).mpr ?_
  intro signature
  rw [Std.TreeMap.mem_keys, mem_positions_iff, List.mem_dedup]

/-- The map has as many entries as there are different signatures. -/
theorem size_positions (outline : Outline) :
    outline.positions.size = (outline.methods.map Method.signature).dedup.length := by
  rw [← Std.TreeMap.length_keys, (keys_positions_perm outline).length_eq]

/-- Every entry of the map is the signature and the position of one of the methods. -/
theorem exists_method_of_getElem?_positions {outline : Outline} {signature : String}
    {position : Position} (h : outline.positions[signature]? = some position) :
    ∃ (index : Nat) (method : Method), outline.methods[index]? = some method ∧
      method.signature = signature ∧ method.position = position := by
  rw [getElem?_positions, Option.map_eq_some_iff] at h
  obtain ⟨method, hfind, hposition⟩ := h
  have hsignature : method.signature = signature := by simpa using List.find?_some hfind
  have hmem : method ∈ outline.methods := List.mem_reverse.mp (List.mem_of_find?_eq_some hfind)
  obtain ⟨index, hindex⟩ := List.mem_iff_getElem?.mp hmem
  exact ⟨index, method, hindex, hsignature, hposition⟩

/-- The search finds the method with the signature after which no other one has it. -/
theorem find?_eq_some_iff {outline : Outline} {signature : String} {method : Method} :
    outline.find? signature = some method ↔
      ∃ index, outline.methods[index]? = some method ∧ method.signature = signature ∧
        ∀ later ∈ outline.methods.drop (index + 1), later.signature ≠ signature := by
  simp only [find?, List.find?_eq_some_iff_append, decide_eq_true_eq, Bool.not_eq_true',
    decide_eq_false_iff_not]
  constructor
  · rintro ⟨hsignature, after, before, hmethods, hafter⟩
    have hsplit : outline.methods = before.reverse ++ method :: after.reverse := by
      simpa using congrArg List.reverse hmethods
    refine ⟨before.length, by simp [hsplit], hsignature, ?_⟩
    rw [hsplit, ← List.length_reverse, List.drop_length_add_append]
    simpa using hafter
  · rintro ⟨index, hindex, hsignature, hlater⟩
    obtain ⟨hlt, hmethod⟩ := List.getElem?_eq_some_iff.mp hindex
    have hsplit := List.take_append_drop index outline.methods
    rw [List.drop_eq_getElem_cons hlt, hmethod] at hsplit
    refine ⟨hsignature, (outline.methods.drop (index + 1)).reverse,
      (outline.methods.take index).reverse, ?_, by simpa using hlater⟩
    simpa using congrArg List.reverse hsplit.symm

/-! ## Distinct signatures -/

section Distinct

variable {outline : Outline} (distinct : (outline.methods.map Method.signature).Nodup)
include distinct

theorem size_positions_of_nodup : outline.positions.size = outline.methods.length := by
  rw [size_positions, distinct.dedup, List.length_map]

theorem find?_signature_of_nodup {method : Method} (h : method ∈ outline.methods) :
    outline.find? method.signature = some method := by
  have hfound : (outline.find? method.signature).isSome := by
    rw [find?, List.find?_isSome]
    exact ⟨method, List.mem_reverse.mpr h, by simp⟩
  obtain ⟨found, hfind⟩ := Option.isSome_iff_exists.mp hfound
  have hsame : found.signature = method.signature := by simpa using List.find?_some hfind
  have hmem : found ∈ outline.methods := List.mem_reverse.mp (List.mem_of_find?_eq_some hfind)
  rw [hfind, List.inj_on_of_nodup_map distinct hmem h hsame]

/-- Where no two methods have one signature, the map has the position of every method. -/
theorem getElem?_positions_of_nodup {method : Method} (h : method ∈ outline.methods) :
    outline.positions[method.signature]? = some method.position := by
  rw [getElem?_positions, find?_signature_of_nodup distinct h, Option.map_some]

end Distinct

end ClassOutline.Outline
