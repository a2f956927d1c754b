import ClassOutline.Outline.Decode
import ClassOutline.Proofs.Decoder.Logged
import ClassOutline.Proofs.Outline.Positions

/-!
# One look-up, two ways

The map of positions is filled from the first method to the last and overwrites; the search goes
from the last method to the first and stops. Both come upon the last method with a signature, in a
class file that was decoded and in any other list of methods, however often a signature occurs in
it. Main statement: `Outline.lookups_agree`.
-/

namespace ClassOutline

namespace Outline

theorem mem_positions_iff_isSome_find? {outline : Outline} {signature : String} :
    signature ∈ outline.positions ↔ (outline.find? signature).isSome := by
  rw [Std.TreeMap.mem_iff_isSome_getElem?, getElem?_positions, Option.isSome_map]

/-- The map of two lists in sequence is that of the first one with the entries of the second one
written over it. -/
theorem positions_append_equiv (first second : List Method) :
    (Outline.mk (first ++ second)).positions.Equiv
      ((Outline.mk first).positions ∪ (Outline.mk second).positions) := by
  apply Std.TreeMap.Equiv.of_forall_constGet?_eq
  intro signature
  rw [getElem?_positions_append, Std.TreeMap.getElem?_union]

end Outline

/-- The map of a class file is there exactly if its outline is. -/
theorem Positions.result_decode_eq_ok_iff_exists {bytes : List UInt8} {positions : Positions} :
    (decode bytes).result = .ok positions ↔
      ∃ outline, (Outline.decode bytes).result = .ok outline ∧ positions = outline.positions := by
  rw [result_decode, map_eq_ok_iff]
  simp only [eq_comm]

/-- For any list of methods and any text: the map has an entry exactly if the search finds a method,
the entry is the position of that method, and that method is the last one with the signature; the
map has as many entries as there are signatures; the map of a list that goes on overrides, signature
by signature, the map of its beginning; and the map of a class file is there exactly if the outline
is, and is the map of the outline. -/
theorem Outline.lookups_agree :
    (∀ (outline : Outline) (signature : String),
      (signature ∈ outline.positions ↔ (outline.find? signature).isSome) ∧
      outline.positions[signature]? = (outline.find? signature).map Method.position ∧
      ∀ method, outline.find? signature = some method ↔
        ∃ index, outline.methods[index]? = some method ∧ method.signature = signature ∧
          ∀ later ∈ outline.methods.drop (index + 1), later.signature ≠ signature) ∧
    (∀ outline : Outline,
      outline.positions.size = (outline.methods.map Method.signature).dedup.length) ∧
    (∀ first second : List Method,
      (∀ signature : String, (Outline.mk (first ++ second)).positions[signature]? =
        (Outline.mk second).positions[signature]?.or (Outline.mk first).positions[signature]?) ∧
      (Outline.mk (first ++ second)).positions.Equiv
        ((Outline.mk first).positions ∪ (Outline.mk second).positions)) ∧
    ∀ (bytes : List UInt8) (positions : Positions),
      (Positions.decode bytes).result = .ok positions ↔
        ∃ outline, (decode bytes).result = .ok outline ∧ positions = outline.positions := by
  refine ⟨fun outline signature => ⟨?_, ?_, ?_⟩, ?_, fun first second => ⟨?_, ?_⟩, ?_⟩
  · exact mem_positions_iff_isSome_find?
  · exact getElem?_positions outline signature
  · intro method
    exact find?_eq_some_iff
  · exact size_positions
  · exact getElem?_positions_append first second
  · exact positions_append_equiv first second
  · intro bytes positions
    exact Positions.result_decode_eq_ok_iff_exists

end ClassOutline
