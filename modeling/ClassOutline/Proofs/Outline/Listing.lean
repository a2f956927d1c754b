import ClassOutline.Outline.Listing
import Mathlib.Data.List.Nodup
import Mathlib.Data.Nat.Digits.Defs

/-!
# One order for every listing

Entries whose signatures differ can be printed in one order only, so it does not matter in which
order they come (`sort_eq_of_perm`). Lines that are written one below the other can be told apart
again if there are no line breaks in them (`splitOn_lineBreak`).
-/

namespace ClassOutline.Listing

variable {first second : Entry} {entries sorted : List Entry}

/-! ## Order -/

instance : Std.TransCmp order :=
  inferInstanceAs (Std.TransCmp (compareLex _ _))

theorem order_eq (first second : Entry) :
    order first second = (compare first.2.order second.2.order).then
      (compare first.1 second.1) := rfl

/-- Only entries with one signature are equal in order. -/
theorem fst_eq_of_order_eq_eq (h : order first second = .eq) : first.1 = second.1 := by
  rw [order_eq, Ordering.then_eq_eq] at h
  exact Std.LawfulEqOrd.eq_of_compare h.2

/-- A method's place decides first. -/
theorem isLE_order_of_toInt_lt (h : first.2.order.toInt < second.2.order.toInt) :
    (order first second).isLE := by
  have hlt : compare first.2.order second.2.order = .lt :=
    Std.compare_eq_lt.mpr (Int32.lt_iff_toInt_lt.mpr h)
  rw [order_eq, hlt]
  rfl

/-- The signature decides where the places are the same. -/
theorem isLE_order_of_lt (horder : first.2.order = second.2.order) (h : first.1 < second.1) :
    (order first second).isLE := by
  have hlt : compare first.1 second.1 = .lt := compareOfLessAndEq_eq_lt.mpr h
  rw [order_eq, horder, Std.ReflOrd.compare_self, hlt]
  rfl

/-! ## Sorting -/

theorem isLE_order_or (first second : Entry) :
    ((order first second).isLE || (order second first).isLE) = true := by
  have hswap : order second first = (order first second).swap := Std.OrientedCmp.eq_swap
  rw [hswap]
  cases order first second <;> rfl

/-- What is sorted is in order. -/
theorem pairwise_sort (entries : List Entry) :
    (sort entries).Pairwise fun first second => (order first second).isLE := by
  apply List.pairwise_mergeSort
  · intro first second third h h'
    exact Std.TransCmp.isLE_trans h h'
  · exact isLE_order_or

/-- However entries with different signatures come, there is one order to print them in. -/
theorem sort_eq_of_perm (hperm : entries.Perm sorted) (hkeys : (sorted.map Prod.fst).Nodup)
    (hsorted : sorted.Pairwise fun first second => (order first second).isLE) :
    sort entries = sorted := by
  refine List.Perm.eq_of_pairwise ?_ (pairwise_sort entries) hsorted
    ((List.mergeSort_perm entries _).trans hperm)
  intro first second hfirst hsecond hle hge
  have heq : order first second = .eq := Std.OrientedCmp.isLE_antisymm hle hge
  refine List.inj_on_of_nodup_map hkeys ?_ hsecond (fst_eq_of_order_eq_eq heq)
  exact hperm.mem_iff.mp (List.mem_mergeSort.mp hfirst)

/-! ## Lines -/

theorem toList_pushn (text : String) (c : Char) (count : Nat) :
    (text.pushn c count).toList = text.toList ++ List.replicate count c := by
  induction count with
  | zero => exact (List.append_nil _).symm
  | succ count ih =>
    rw [String.pushn, Nat.repeat, ← String.pushn, String.toList_push, ih, List.append_assoc,
      ← List.replicate_succ']

/-- A text is padded with blanks in front of it. -/
theorem toList_padLeft (width : Nat) (text : String) :
    (padLeft width text).toList = List.replicate (width - text.length) ' ' ++ text.toList := by
  rw [padLeft, String.toList_append, toList_pushn, String.toList_empty, List.nil_append]

theorem toList_join_lines (lines : List String) :
    (String.join (lines.map (· ++ "\n"))).toList =
      lines.flatMap fun line => line.toList ++ ['\n'] := by
  rw [String.toList_join, List.flatMap_map]
  exact List.flatMap_congr fun line _ => String.toList_append

/-- A line adds one line break to those in it. -/
theorem count_lineBreak (lines : List String) :
    (String.join (lines.map (· ++ "\n"))).toList.count '\n' =
      (lines.map fun line => line.toList.count '\n' + 1).sum := by
  rw [toList_join_lines, List.count_flatMap]
  congr 2
  funext line
  simp

theorem intercalate_lines (lines : List (List Char)) :
    ['\n'].intercalate (lines ++ [[]]) = lines.flatMap (· ++ ['\n']) := by
  induction lines with
  | nil => rfl
  | cons line lines ih =>
    obtain ⟨next, rest, hrest⟩ := List.exists_cons_of_ne_nil (l := lines ++ [[]]) (by simp)
    rw [List.cons_append, List.flatMap_cons, ← ih, hrest, List.intercalate_cons_cons]

/-- What stands between the line breaks are the lines, and nothing after the last. -/
theorem splitOn_lineBreak {lines : List String} (h : ∀ line ∈ lines, '\n' ∉ line.toList) :
    (String.join (lines.map (· ++ "\n"))).toList.splitOn '\n' =
      lines.map String.toList ++ [[]] := by
  have hjoin : (String.join (lines.map (· ++ "\n"))).toList =
      ['\n'].intercalate (lines.map String.toList ++ [[]]) := by
    rw [toList_join_lines, intercalate_lines, List.flatMap_map]
  rw [hjoin, List.splitOn_intercalate]
  · rw [List.forall_mem_append, List.forall_mem_map]
    exact ⟨h, by simp⟩
  · simp

end ClassOutline.Listing
