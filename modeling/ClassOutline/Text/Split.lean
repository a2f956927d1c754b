/-!
# Cutting a text at a separator

`splitFirst` cuts at the first occurrence of a character and `splitLast` at the last one. Main
statements: a cut is exactly a way to write the text around the separator with none before it
(`splitFirst_eq_some_iff`) or none after it (`splitLast_eq_some_iff`), and there is none exactly
when the separator does not occur.
-/

namespace ClassOutline.Text

variable {sep : Char} {text before after : List Char}

/-! ## The first occurrence -/

/-- What stands before and after the first `sep`. -/
def splitFirst (sep : Char) (text : List Char) : Option (List Char × List Char) :=
  match text.dropWhile (· != sep) with
  | [] => none
  | _ :: after => some (text.takeWhile (· != sep), after)

@[simp] theorem splitFirst_nil : splitFirst sep [] = none := rfl

theorem splitFirst_cons (c : Char) (text : List Char) :
    splitFirst sep (c :: text) =
      if c = sep then some ([], text)
      else (splitFirst sep text).map fun (before, after) => (c :: before, after) := by
  unfold splitFirst
  by_cases h : c = sep
  · simp [h]
  · simp only [List.dropWhile_cons, List.takeWhile_cons, bne_iff_ne, ne_eq, h, not_false_eq_true,
      if_true, if_false]
    split <;> rfl

/-- The first cut is the way to write the text around the separator with none before it. -/
theorem splitFirst_eq_some_iff :
    splitFirst sep text = some (before, after) ↔ text = before ++ sep :: after ∧ sep ∉ before := by
  induction text generalizing before with
  | nil => simp
  | cons c text ih =>
    rw [splitFirst_cons]
    by_cases h : c = sep
    · subst h
      cases before <;> simp [eq_comm]
      intro hc
      simp [hc]
    · rw [if_neg h, Option.map_eq_some_iff]
      cases before with
      | nil => simp [h]
      | cons b before =>
        constructor
        · rintro ⟨⟨before', after'⟩, hcut, heq⟩
          simp only [Prod.mk.injEq, List.cons.injEq] at heq
          obtain ⟨⟨rfl, rfl⟩, rfl⟩ := heq
          obtain ⟨rfl, hnot⟩ := ih.mp hcut
          exact ⟨rfl, by simp [hnot, Ne.symm h]⟩
        · rintro ⟨heq, hnot⟩
          simp only [List.cons_append, List.cons.injEq] at heq
          obtain ⟨rfl, heq⟩ := heq
          exact ⟨(before, after), ih.mpr ⟨heq, fun hmem => hnot (List.mem_cons_of_mem _ hmem)⟩, rfl⟩

theorem splitFirst_eq_none_iff : splitFirst sep text = none ↔ sep ∉ text := by
  induction text with
  | nil => simp
  | cons c text ih =>
    rw [splitFirst_cons]
    by_cases h : c = sep
    · simp [h]
    · simp [h, ih, Ne.symm h]

theorem length_lt_of_splitFirst (h : splitFirst sep text = some (before, after)) :
    after.length < text.length := by
  rw [(splitFirst_eq_some_iff.mp h).1]
  simp only [List.length_append, List.length_cons]
  omega

/-- Texts that are cut at the same place have the same parts. -/
theorem append_sep_inj_of_notMem_before {before' after' : List Char} (hbefore : sep ∉ before)
    (hbefore' : sep ∉ before') (h : before ++ sep :: after = before' ++ sep :: after') :
    before = before' ∧ after = after' := by
  have hcut := splitFirst_eq_some_iff.mpr ⟨h, hbefore'⟩
  rw [splitFirst_eq_some_iff.mpr ⟨rfl, hbefore⟩] at hcut
  obtain ⟨rfl, rfl⟩ := Prod.mk.inj (Option.some.inj hcut)
  exact ⟨rfl, rfl⟩

/-! ## The last occurrence -/

def splitLast (sep : Char) (text : List Char) : Option (List Char × List Char) :=
  (splitFirst sep text.reverse).map fun (after, before) => (before.reverse, after.reverse)

/-- The last cut is the way to write the text around the separator with none after it. -/
theorem splitLast_eq_some_iff :
    splitLast sep text = some (before, after) ↔ text = before ++ sep :: after ∧ sep ∉ after := by
  have flip : text.reverse = after.reverse ++ sep :: before.reverse ↔
      text = before ++ sep :: after := by
    rw [List.reverse_eq_iff]
    simp
  rw [splitLast, Option.map_eq_some_iff]
  constructor
  · rintro ⟨⟨after', before'⟩, hcut, heq⟩
    simp only [Prod.mk.injEq] at heq
    obtain ⟨rfl, rfl⟩ := heq
    obtain ⟨htext, hnot⟩ := splitFirst_eq_some_iff.mp hcut
    exact ⟨flip.mp (by simpa using htext), by simpa using hnot⟩
  · rintro ⟨htext, hnot⟩
    exact ⟨(after.reverse, before.reverse),
      splitFirst_eq_some_iff.mpr ⟨flip.mpr htext, by simpa using hnot⟩, by simp⟩

theorem append_sep_inj_of_notMem_after {before' after' : List Char} (hafter : sep ∉ after)
    (hafter' : sep ∉ after') (h : before ++ sep :: after = before' ++ sep :: after') :
    before = before' ∧ after = after' := by
  have hcut := splitLast_eq_some_iff.mpr ⟨h, hafter'⟩
  rw [splitLast_eq_some_iff.mpr ⟨rfl, hafter⟩] at hcut
  obtain ⟨rfl, rfl⟩ := Prod.mk.inj (Option.some.inj hcut)
  exact ⟨rfl, rfl⟩

theorem splitLast_eq_none_iff : splitLast sep text = none ↔ sep ∉ text := by
  simp [splitLast, splitFirst_eq_none_iff]

example : splitLast ')' ['a', ')', 'b', ')', 'c'] = some (['a', ')', 'b'], ['c']) := by decide

end ClassOutline.Text
