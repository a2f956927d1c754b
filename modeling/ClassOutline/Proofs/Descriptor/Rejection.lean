import ClassOutline.Proofs.Decoder.Logged
import ClassOutline.Proofs.Descriptor.Grammar
import Mathlib.Logic.ExistsUnique

/-!
# Why a text is no descriptor

What is left of a text after as many types as it begins with is its residue (`IsResidue`), and what
is wrong with a residue shows behind its opening brackets (`ResidueFault`). Residues and their
faults are said by written types, without a reader. Main statement: a text is rejected for an
unbalanced pair of parentheses, for the residue of its parameters, or, only if there is none, for
its return type, and for nothing else (`parse_eq_error_iff_rejected`).
-/

namespace ClassOutline

namespace Written

variable {text residue rest : List Char}

/-! ## Residues -/

/-- A type stands at the front of the text. -/
def StartsWithType (text : List Char) : Prop :=
  ∃ (type : Field) (rest : List Char), text = type.chars ++ rest

/-- What is left of a text after the longest sequence of types at its front. -/
def IsResidue (text residue : List Char) : Prop :=
  ∃ types : List Field, text = types.flatMap Field.chars ++ residue ∧
    ∀ (others : List Field) (rest : List Char), text = others.flatMap Field.chars ++ rest →
      (others.flatMap Field.chars).length ≤ (types.flatMap Field.chars).length

/-- No sequence of types at the front of a text runs past a place where no type starts. -/
theorem exists_append_of_flatMap_append {types others : List Field}
    (stuck : ¬StartsWithType residue)
    (h : types.flatMap Field.chars ++ residue = others.flatMap Field.chars ++ rest) :
    ∃ more, types = others ++ more := by
  -- Type by type the two sequences are the same, for no type is the beginning of another one.
  induction others generalizing types with
  | nil => exact ⟨types, rfl⟩
  | cons type others ih =>
    rw [List.flatMap_cons, List.append_assoc] at h
    cases types with
    | nil => exact absurd ⟨type, _, h⟩ stuck
    | cons type' types =>
      rw [List.flatMap_cons, List.append_assoc] at h
      obtain ⟨rfl, hrest⟩ := Field.chars_append_inj h
      obtain ⟨more, rfl⟩ := ih hrest
      exact ⟨more, rfl⟩

/-- The longest sequence of types is the one after which no type starts. -/
theorem isResidue_iff :
    IsResidue text residue ↔
      (∃ types : List Field, text = types.flatMap Field.chars ++ residue) ∧
        ¬StartsWithType residue := by
  constructor
  · rintro ⟨types, rfl, longest⟩
    refine ⟨⟨types, rfl⟩, ?_⟩
    rintro ⟨type, rest, rfl⟩
    have hlonger := longest (types ++ [type]) rest (by simp)
    have hpos := List.length_pos_iff.mpr type.chars_ne_nil
    simp only [List.flatMap_append, List.flatMap_singleton, List.length_append] at hlonger
    omega
  · rintro ⟨⟨types, rfl⟩, stuck⟩
    refine ⟨types, rfl, fun others rest h => ?_⟩
    obtain ⟨more, rfl⟩ := exists_append_of_flatMap_append stuck h
    simp

theorem isResidue_self_iff : IsResidue text text ↔ ¬StartsWithType text := by
  rw [isResidue_iff]
  exact and_iff_right ⟨[], rfl⟩

theorem isResidue_nil : IsResidue [] [] := by
  rw [isResidue_self_iff]
  rintro ⟨type, rest, h⟩
  exact type.chars_ne_nil (List.append_eq_nil_iff.mp h.symm).1

theorem isResidue_chars_append_iff (type : Field) :
    IsResidue (type.chars ++ text) residue ↔ IsResidue text residue := by
  rw [isResidue_iff, isResidue_iff]
  refine and_congr_left fun stuck => ⟨?_, ?_⟩
  · rintro ⟨types, h⟩
    cases types with
    | nil => exact absurd ⟨type, text, h.symm⟩ stuck
    | cons type' types =>
      rw [List.flatMap_cons, List.append_assoc] at h
      exact ⟨types, (Field.chars_append_inj h).2⟩
  · rintro ⟨types, rfl⟩
    exact ⟨type :: types, by simp⟩

/-- A text has one residue. -/
theorem IsResidue.eq {residue' : List Char} (h : IsResidue text residue)
    (h' : IsResidue text residue') : residue = residue' := by
  obtain ⟨types, rfl, longest⟩ := h
  obtain ⟨types', htext, longest'⟩ := h'
  have hle := longest types' residue' htext
  have hge := longest' types residue rfl
  exact (List.append_inj htext (by omega)).2

/-! ## Faults of residues -/

/-- What is wrong with a text that starts with no type: after any number of opening brackets, the
text ends, a class name does not, or something else stands there than a letter for a type. -/
inductive ResidueFault : List Char → DescriptorFault → Prop
  | missing (dimensions : Nat) : ResidueFault (List.replicate dimensions '[') .missingType
  | unterminated (dimensions : Nat) (rest : List Char) :
      ResidueFault (List.replicate dimensions '[' ++ 'L' :: rest) .unterminatedObject
  | void (dimensions : Nat) (rest : List Char) :
      ResidueFault (List.replicate dimensions '[' ++ 'V' :: rest) .voidValue
  | invalid (dimensions : Nat) {c : Char} (rest : List Char) (bracket : c ≠ '[') (object : c ≠ 'L')
      (void : c ≠ 'V') :
      ResidueFault (List.replicate dimensions '[' ++ c :: rest) (.invalidCharacter c)

/-! ## Reading one type -/

theorem startsWithType_of_scan {type : FieldType} (h : FieldType.scan text = .ok (type, rest)) :
    StartsWithType text := by
  obtain ⟨field, htext, -⟩ := exists_field_of_scan h
  exact ⟨field, rest, htext⟩

theorem exists_brackets (text : List Char) :
    ∃ (dimensions : Nat) (rest : List Char),
      text = List.replicate dimensions '[' ++ rest ∧ rest.head? ≠ some '[' := by
  induction text with
  | nil => exact ⟨0, [], rfl, by simp⟩
  | cons c text ih =>
    by_cases hc : c = '['
    · obtain ⟨dimensions, rest, rfl, hrest⟩ := ih
      exact ⟨dimensions + 1, rest, by rw [hc]; rfl, hrest⟩
    · exact ⟨0, c :: text, rfl, by simpa using hc⟩

/-- Brackets are counted, and an error behind them is passed on. -/
theorem scan_brackets_append (dimensions : Nat) (rest : List Char) (h : rest.head? ≠ some '[') :
    FieldType.scan (List.replicate dimensions '[' ++ rest) =
      (ElementType.scan rest).map fun read => (⟨read.1, dimensions⟩, read.2) := by
  have hbrackets : ∀ c ∈ List.replicate dimensions '[', (c == '[') = true := by simp
  have hrest : rest.takeWhile (· == '[') = [] ∧ rest.dropWhile (· == '[') = rest := by
    cases rest with
    | nil => simp
    | cons c rest =>
      have hc : c ≠ '[' := by simpa using h
      simp [hc]
  rw [FieldType.scan, List.takeWhile_append_of_pos hbrackets,
    List.dropWhile_append_of_pos hbrackets, hrest.1, hrest.2]
  cases ElementType.scan rest <;> simp [Except.map]

theorem residueFault_of_scan {dimensions : Nat} {fault : DescriptorFault}
    (hrest : rest.head? ≠ some '[') (h : ElementType.scan rest = .error fault) :
    ResidueFault (List.replicate dimensions '[' ++ rest) fault := by
  cases rest with
  | nil =>
    rw [List.append_nil, ← Except.error.inj h]
    exact .missing dimensions
  | cons c rest =>
    simp only [ElementType.scan] at h
    split at h
    · rename_i hobject
      split at h
      · cases h
      · rw [hobject, ← Except.error.inj h]
        exact .unterminated dimensions rest
    · rename_i hobject
      split at h
      · rename_i hvoid
        rw [hvoid, ← Except.error.inj h]
        exact .void dimensions rest
      · rename_i hvoid
        split at h
        · cases h
        · rw [← Except.error.inj h]
          exact .invalid dimensions rest (by simpa using hrest) hobject hvoid

/-- A type is not read exactly where none starts, and for the fault that there is. -/
theorem scan_eq_error_iff {fault : DescriptorFault} :
    FieldType.scan text = .error fault ↔ ¬StartsWithType text ∧ ResidueFault text fault := by
  constructor
  · intro h
    constructor
    · rintro ⟨type, rest, rfl⟩
      rw [type.scan_chars_append] at h
      cases h
    · obtain ⟨dimensions, rest, rfl, hrest⟩ := exists_brackets text
      rw [scan_brackets_append dimensions rest hrest, map_eq_error_iff] at h
      exact residueFault_of_scan hrest h
  · rintro ⟨stuck, h⟩
    -- The fault of a class name, or of a letter, is one only where the type is not complete.
    have hread : ∀ read, FieldType.scan text ≠ .ok read := fun read hscan =>
      stuck (startsWithType_of_scan hscan)
    cases h with
    | missing dimensions =>
      have hscan := scan_brackets_append dimensions [] (by simp)
      simpa [ElementType.scan, Except.map] using hscan
    | unterminated dimensions rest =>
      have hscan := scan_brackets_append dimensions ('L' :: rest) (by simp)
      rw [hscan] at hread ⊢
      simp only [ElementType.scan, if_true] at hread ⊢
      cases hcut : Text.splitFirst ';' rest with
      | none => rfl
      | some parts =>
        rw [hcut] at hread
        exact absurd rfl (hread _)
    | void dimensions rest =>
      have hscan := scan_brackets_append dimensions ('V' :: rest) (by simp)
      simpa [ElementType.scan, Except.map] using hscan
    | invalid dimensions rest bracket object void =>
      rename_i c
      have hscan := scan_brackets_append dimensions (c :: rest) (by simpa using bracket)
      rw [hscan] at hread ⊢
      simp only [ElementType.scan, object, void, if_false] at hread ⊢
      cases hcode : BaseType.ofCode? c with
      | none => rfl
      | some type =>
        rw [hcode] at hread
        exact absurd rfl (hread _)

/-! ## Reading types to the end -/

/-- Types are not read to the end exactly where something is left of the text. -/
theorem scanAll_eq_error_iff {read : List FieldType} {fault : DescriptorFault} :
    FieldType.scanAll read text = .error fault ↔
      ∃ residue, IsResidue text residue ∧ residue ≠ [] ∧ ResidueFault residue fault := by
  induction read, text using FieldType.scanAll.induct with
  | case1 read =>
    rw [FieldType.scanAll]
    constructor
    · intro h
      cases h
    · rintro ⟨residue, hresidue, hne, -⟩
      exact absurd (hresidue.eq isResidue_nil) hne
  | case2 read c text found hscan =>
    obtain ⟨stuck, hfound⟩ := scan_eq_error_iff.mp hscan
    have hself := isResidue_self_iff.mpr stuck
    rw [scanAll_of_scan_error read hscan]
    constructor
    · rintro h
      rw [← Except.error.inj h]
      exact ⟨c :: text, hself, List.cons_ne_nil _ _, hfound⟩
    · rintro ⟨residue, hresidue, -, hfault⟩
      rw [hresidue.eq hself] at hfault
      have hscan' := scan_eq_error_iff.mpr ⟨stuck, hfault⟩
      rw [Except.error.inj (hscan.symm.trans hscan')]
  | case3 read c text type rest hscan ih =>
    obtain ⟨field, htext, -⟩ := exists_field_of_scan hscan
    rw [scanAll_of_scan read hscan, ih, htext]
    simp only [isResidue_chars_append_iff]

theorem isResidue_nil_iff :
    IsResidue text [] ↔ ∃ types : List Field, text = types.flatMap Field.chars := by
  simp only [isResidue_iff, isResidue_self_iff.mp isResidue_nil, List.append_nil, not_false_eq_true,
    and_true]

theorem exists_scanAll_iff :
    (∃ types, FieldType.scanAll [] text = .ok types) ↔ IsResidue text [] := by
  rw [isResidue_nil_iff]
  constructor
  · rintro ⟨types, h⟩
    obtain ⟨fields, htext, -⟩ := exists_fields_of_scanAll h
    exact ⟨fields, htext⟩
  · rintro ⟨fields, rfl⟩
    exact ⟨_, scanAll_flatMap_chars fields []⟩

/-- A text has a residue, and only one. -/
theorem existsUnique_isResidue (text : List Char) : ∃! residue, IsResidue text residue := by
  cases h : FieldType.scanAll [] text with
  | error fault =>
    obtain ⟨residue, hresidue, -⟩ := scanAll_eq_error_iff.mp h
    exact ⟨residue, hresidue, fun residue' hresidue' => hresidue'.eq hresidue⟩
  | ok types =>
    have hresidue := exists_scanAll_iff.mp ⟨types, h⟩
    exact ⟨[], hresidue, fun residue' hresidue' => hresidue'.eq hresidue⟩

/-- A text that starts with no type has a fault, and only one. -/
theorem existsUnique_residueFault (stuck : ¬StartsWithType text) :
    ∃! fault, ResidueFault text fault := by
  cases h : FieldType.scan text with
  | error fault =>
    refine ⟨fault, (scan_eq_error_iff.mp h).2, fun fault' hfault' => ?_⟩
    have h' := scan_eq_error_iff.mpr ⟨stuck, hfault'⟩
    exact Except.error.inj (h'.symm.trans h)
  | ok read => exact absurd (startsWithType_of_scan h) stuck

/-! ## Return types -/

/-- A field descriptor is refused for what stands behind a type, or because it starts with none. -/
theorem fieldOfChars_eq_error_iff {fault : DescriptorFault} :
    FieldType.ofChars text = .error fault ↔
      (∃ (type : Field) (c : Char) (rest : List Char),
        text = type.chars ++ c :: rest ∧ fault = .trailing) ∨
      ¬StartsWithType text ∧ ResidueFault text fault := by
  rw [← scan_eq_error_iff]
  constructor
  · intro h
    unfold FieldType.ofChars at h
    split at h
    · rename_i hscan
      rw [← Except.error.inj h]
      exact .inr hscan
    · cases h
    · rename_i c rest hscan
      obtain ⟨field, htext, -⟩ := exists_field_of_scan hscan
      exact .inl ⟨field, c, rest, htext, (Except.error.inj h).symm⟩
  · rintro (⟨type, c, rest, rfl, rfl⟩ | hscan)
    · simp only [FieldType.ofChars, type.scan_chars_append]
    · simp only [FieldType.ofChars, hscan]

/-- What is wrong with a text that is no return type. -/
inductive ResultFault : List Char → DescriptorFault → Prop
  | missing : ResultFault [] .missingType
  | afterVoid (c : Char) (rest : List Char) : ResultFault ('V' :: c :: rest) .trailing
  | afterType (type : Field) (c : Char) (rest : List Char) :
      ResultFault (type.chars ++ c :: rest) .trailing
  | residue {text : List Char} {fault : DescriptorFault} (nonempty : text ≠ [])
      (value : text.head? ≠ some 'V') (stuck : ¬StartsWithType text)
      (faulty : ResidueFault text fault) : ResultFault text fault

theorem resultFault_iff_of_head?_ne {fault : DescriptorFault} (h : text.head? ≠ some 'V') :
    ResultFault text fault ↔ FieldType.ofChars text = .error fault := by
  rw [fieldOfChars_eq_error_iff]
  constructor
  · intro hfault
    cases hfault with
    | missing => exact .inr ⟨isResidue_self_iff.mp isResidue_nil, .missing 0⟩
    | afterVoid c rest => exact absurd rfl h
    | afterType type c rest => exact .inl ⟨type, c, rest, rfl, rfl⟩
    | residue nonempty value stuck faulty => exact .inr ⟨stuck, faulty⟩
  · rintro (⟨type, c, rest, rfl, rfl⟩ | ⟨stuck, hfault⟩)
    · exact .afterType type c rest
    · by_cases hnil : text = []
      · -- Of the empty text the one fault is `missing 0`.
        subst hnil
        obtain ⟨fault', -, hunique⟩ := existsUnique_residueFault stuck
        rw [hunique fault hfault, ← hunique .missingType (.missing 0)]
        exact .missing
      · exact .residue hnil h stuck hfault

theorem resultFault_void_iff {fault : DescriptorFault} :
    ResultFault ('V' :: rest) fault ↔ rest ≠ [] ∧ fault = .trailing := by
  constructor
  · intro h
    generalize htext : 'V' :: rest = text at h
    cases h with
    | missing => cases htext
    | afterVoid c rest =>
      obtain rfl := List.tail_eq_of_cons_eq htext
      exact ⟨List.cons_ne_nil c rest, rfl⟩
    | afterType type c rest =>
      obtain ⟨first, chars, hchars⟩ := List.exists_cons_of_ne_nil type.chars_ne_nil
      rw [hchars, List.cons_append] at htext
      have hfirst : type.chars.head? = some 'V' := by
        rw [hchars, ← List.head_eq_of_cons_eq htext]
        rfl
      exact absurd hfirst type.head?_chars_ne
    | residue nonempty value stuck faulty => exact absurd (htext ▸ rfl) value
  · rintro ⟨hne, rfl⟩
    obtain ⟨c, rest, rfl⟩ := List.exists_cons_of_ne_nil hne
    exact .afterVoid c rest

/-- A return type is refused for its fault. -/
theorem returnOfChars_eq_error_iff {fault : DescriptorFault} :
    ReturnType.ofChars text = .error fault ↔ ResultFault text fault := by
  by_cases hvoid : text.head? = some 'V'
  · obtain ⟨rest, rfl⟩ := List.head?_eq_some_iff.mp hvoid
    rw [resultFault_void_iff]
    cases rest <;> simp [ReturnType.ofChars, eq_comm]
  · rw [returnOfChars_of_head?_ne hvoid, map_eq_error_iff, resultFault_iff_of_head?_ne hvoid]

/-! ## Method descriptors -/

/-- What is wrong with a text that is no method descriptor. Its parameters and its return type are
what stands before and after the last closing parenthesis. -/
inductive Rejected : List Char → DescriptorFault → Prop
  | unopened {text : List Char} (h : text.head? ≠ some '(') : Rejected text .unbalanced
  | unclosed {text : List Char} (h : ')' ∉ text) : Rejected text .unbalanced
  | parameters {parameters result residue : List Char} {fault : DescriptorFault}
      (last : ')' ∉ result) (left : IsResidue parameters residue) (nonempty : residue ≠ [])
      (faulty : ResidueFault residue fault) :
      Rejected ('(' :: (parameters ++ ')' :: result)) fault
  | result {parameters result : List Char} {fault : DescriptorFault} (last : ')' ∉ result)
      (read : IsResidue parameters []) (faulty : ResultFault result fault) :
      Rejected ('(' :: (parameters ++ ')' :: result)) fault

theorem methodOfChars_of_last {parameters result : List Char} (last : ')' ∉ result) :
    MethodDescriptor.ofChars ('(' :: (parameters ++ ')' :: result)) =
      (FieldType.scanAll [] parameters).bind fun types =>
        (ReturnType.ofChars result).map fun type => ⟨types, type⟩ := by
  have hcut : Text.splitLast ')' (parameters ++ ')' :: result) = some (parameters, result) :=
    Text.splitLast_eq_some_iff.mpr ⟨rfl, last⟩
  simp only [MethodDescriptor.ofChars, hcut]
  cases FieldType.scanAll [] parameters with
  | error fault => rfl
  | ok types => cases ReturnType.ofChars result <;> rfl

/-- Where there are parentheses, the text behind the last one is that behind one of them. -/
theorem exists_last_of_opened (hopen : text.head? = some '(') (hclose : ')' ∈ text) :
    ∃ parameters result, text = '(' :: (parameters ++ ')' :: result) ∧ ')' ∉ result := by
  obtain ⟨body, rfl⟩ := List.head?_eq_some_iff.mp hopen
  have hbody : ')' ∈ body := by simpa using hclose
  cases hcut : Text.splitLast ')' body with
  | none => exact absurd hbody (Text.splitLast_eq_none_iff.mp hcut)
  | some parts =>
    obtain ⟨rfl, hlast⟩ := Text.splitLast_eq_some_iff.mp hcut
    exact ⟨parts.1, parts.2, rfl, hlast⟩

theorem methodOfChars_of_unbalanced (h : text.head? ≠ some '(' ∨ ')' ∉ text) :
    MethodDescriptor.ofChars text = .error .unbalanced := by
  unfold MethodDescriptor.ofChars
  split
  · rename_i body
    have hbody : ')' ∉ body := by simpa using h
    rw [Text.splitLast_eq_none_iff.mpr hbody]
  · rfl

theorem ResidueFault.ne_unbalanced (h : ResidueFault text .unbalanced) : False := by
  cases h

theorem ResultFault.ne_unbalanced (h : ResultFault text .unbalanced) : False := by
  cases h with
  | residue nonempty value stuck faulty => exact faulty.ne_unbalanced

/-- A descriptor is unbalanced where a parenthesis is missing, whatever else is wrong with it. -/
theorem rejected_unbalanced_iff :
    Rejected text .unbalanced ↔ text.head? ≠ some '(' ∨ ')' ∉ text := by
  constructor
  · intro h
    cases h with
    | unopened h => exact .inl h
    | unclosed h => exact .inr h
    | parameters last left nonempty faulty => exact faulty.ne_unbalanced.elim
    | result last read faulty => exact faulty.ne_unbalanced.elim
  · rintro (h | h)
    · exact .unopened h
    · exact .unclosed h

theorem rejected_of_last_iff {parameters result : List Char} {fault : DescriptorFault}
    (last : ')' ∉ result) :
    Rejected ('(' :: (parameters ++ ')' :: result)) fault ↔
      (∃ residue, IsResidue parameters residue ∧ residue ≠ [] ∧ ResidueFault residue fault) ∨
        IsResidue parameters [] ∧ ResultFault result fault := by
  constructor
  · intro h
    generalize htext : '(' :: (parameters ++ ')' :: result) = text at h
    cases h with
    | unopened h => exact absurd (htext ▸ rfl) h
    | unclosed h => exact absurd (htext ▸ by simp) h
    | parameters last' left nonempty faulty =>
      obtain ⟨rfl, rfl⟩ :=
        Text.append_sep_inj_of_notMem_after last last' (List.tail_eq_of_cons_eq htext)
      exact .inl ⟨_, left, nonempty, faulty⟩
    | result last' read faulty =>
      obtain ⟨rfl, rfl⟩ :=
        Text.append_sep_inj_of_notMem_after last last' (List.tail_eq_of_cons_eq htext)
      exact .inr ⟨read, faulty⟩
  · rintro (⟨residue, left, nonempty, faulty⟩ | ⟨read, faulty⟩)
    · exact .parameters last left nonempty faulty
    · exact .result last read faulty

/-- A fault of the return type comes to light only behind parameters that are in order. -/
theorem methodOfChars_of_last_eq_error_iff {parameters result : List Char}
    {fault : DescriptorFault} (last : ')' ∉ result) :
    MethodDescriptor.ofChars ('(' :: (parameters ++ ')' :: result)) = .error fault ↔
      Rejected ('(' :: (parameters ++ ')' :: result)) fault := by
  rw [methodOfChars_of_last last, rejected_of_last_iff last,
    ← @scanAll_eq_error_iff parameters [] fault, ← returnOfChars_eq_error_iff, ← exists_scanAll_iff]
  cases FieldType.scanAll [] parameters with
  | error found => simp [Except.bind]
  | ok types => simp [Except.bind, map_eq_error_iff]

theorem rejected_iff_of_unbalanced {fault : DescriptorFault}
    (h : text.head? ≠ some '(' ∨ ')' ∉ text) : Rejected text fault ↔ fault = .unbalanced := by
  constructor
  · intro hrejected
    cases hrejected with
    | unopened h => rfl
    | unclosed h => rfl
    | parameters last left nonempty faulty => simp at h
    | result last read faulty => simp at h
  · rintro rfl
    exact rejected_unbalanced_iff.mpr h

/-- A method descriptor is refused for what is wrong with it. -/
theorem methodOfChars_eq_error_iff {fault : DescriptorFault} :
    MethodDescriptor.ofChars text = .error fault ↔ Rejected text fault := by
  by_cases h : text.head? ≠ some '(' ∨ ')' ∉ text
  · rw [methodOfChars_of_unbalanced h, rejected_iff_of_unbalanced h, Except.error.injEq, eq_comm]
  · simp only [ne_eq, not_or, Decidable.not_not] at h
    obtain ⟨parameters, result, rfl, last⟩ := exists_last_of_opened h.1 h.2
    exact methodOfChars_of_last_eq_error_iff last

theorem exists_written_iff :
    (∃ written : Descriptor, text = written.chars) ↔
      ∃ parameters result, text = '(' :: (parameters ++ ')' :: result) ∧ ')' ∉ result ∧
        IsResidue parameters [] ∧ (result = ['V'] ∨ ∃ type : Field, result = type.chars) := by
  simp only [isResidue_nil_iff]
  constructor
  · rintro ⟨⟨parameters, result, closed⟩, rfl⟩
    refine ⟨_, result.chars, rfl, closed, ⟨parameters, rfl⟩, ?_⟩
    cases result with
    | void => exact .inl rfl
    | value type => exact .inr ⟨type, rfl⟩
  · rintro ⟨_, _, rfl, closed, ⟨parameters, rfl⟩, rfl | ⟨type, rfl⟩⟩
    · exact ⟨⟨parameters, .void, closed⟩, rfl⟩
    · exact ⟨⟨parameters, .value type, closed⟩, rfl⟩

end Written

/-- The whole text is in every error, and the fault is that of its characters. -/
theorem MethodDescriptor.parse_eq_error_iff {descriptor : String} {error : DescriptorError} :
    parse descriptor = .error error ↔
      error.descriptor = descriptor ∧ ofChars descriptor.toList = .error error.fault := by
  rw [parse]
  constructor
  · intro h
    cases hread : ofChars descriptor.toList with
    | error fault =>
      rw [hread] at h
      rw [← Except.error.inj h]
      exact ⟨rfl, rfl⟩
    | ok read =>
      rw [hread] at h
      cases h
  · rintro ⟨rfl, hread⟩
    rw [hread]
    rfl

/-- Every text has one residue, and a residue that is not empty has one fault. A text is unbalanced
exactly if it does not start with `(` or has no `)`. It is rejected exactly for the faults that
`Rejected` tells, and described exactly if it consists of types between parentheses and of `V` or
one type behind the last of them; and every error holds the whole text. -/
theorem MethodDescriptor.parse_eq_error_iff_rejected :
    (∀ text : List Char, ∃! residue, Written.IsResidue text residue) ∧
    (∀ text residue : List Char, Written.IsResidue text residue → residue ≠ [] →
      ∃! fault, Written.ResidueFault residue fault) ∧
    ∀ descriptor : String,
      (parse descriptor = .error ⟨.unbalanced, descriptor⟩ ↔
        descriptor.toList.head? ≠ some '(' ∨ ')' ∉ descriptor.toList) ∧
      (∀ error, parse descriptor = .error error ↔
        error.descriptor = descriptor ∧ Written.Rejected descriptor.toList error.fault) ∧
      ((∃ method, parse descriptor = .ok method) ↔
        ∃ parameters result, descriptor.toList = '(' :: (parameters ++ ')' :: result) ∧
          ')' ∉ result ∧ Written.IsResidue parameters [] ∧
          (result = ['V'] ∨ ∃ type : Written.Field, result = type.chars)) := by
  have hrejected : ∀ (descriptor : String) (error : DescriptorError),
      parse descriptor = .error error ↔
        error.descriptor = descriptor ∧ Written.Rejected descriptor.toList error.fault := by
    intro descriptor error
    rw [parse_eq_error_iff, Written.methodOfChars_eq_error_iff]
  refine ⟨Written.existsUnique_isResidue, ?_, fun descriptor => ⟨?_, hrejected descriptor, ?_⟩⟩
  · intro text residue hresidue _
    exact Written.existsUnique_residueFault (Written.isResidue_iff.mp hresidue).2
  · rw [hrejected, Written.rejected_unbalanced_iff]
    exact and_iff_right rfl
  · rw [← Written.exists_written_iff]
    simp only [parse_eq_ok_iff, Written.text_eq_iff]
    constructor
    · rintro ⟨_, written, hwritten, -⟩
      exact ⟨written, hwritten⟩
    · rintro ⟨written, hwritten⟩
      exact ⟨_, written, hwritten, rfl⟩

example : MethodDescriptor.parse "(I[V)VV" = .error ⟨.voidValue, "(I[V)VV"⟩ := by cbv

end ClassOutline
