import ClassOutline.Proofs.Descriptor.Grammar

/-!
# Taking signatures apart

A signature escapes nothing, so a class name may make it read like the signature of something else.
Where no class name does (`ClassName.Plain`), the return type ends at the first space, the method's
name at the last opening parenthesis, a parameter at a comma and what an array holds at the first
bracket. Main statement: signatures with plain class names are equal only if the methods' names and
descriptors are (`Descriptor.signature_inj`).
-/

namespace ClassOutline

namespace Written

/-! ## Plain class names -/

/-- A class name that reads, in a signature, like nothing but itself. -/
structure ClassName.Plain (name : ClassName) : Prop where
  nonempty : name.chars ≠ []
  unmarked : ∀ c ∈ ['.', ',', ' ', '(', '['], c ∉ name.chars
  ne_base : ∀ type : BaseType, name.chars ≠ type.name.toList
  ne_void : name.chars ≠ "void".toList

def Element.classNames : Element → List ClassName
  | base _ => []
  | object name => [name]

def Result.classNames : Result → List ClassName
  | void => []
  | value type => type.element.classNames

def Descriptor.classNames (descriptor : Descriptor) : List ClassName :=
  descriptor.parameters.flatMap (·.element.classNames) ++ descriptor.result.classNames

def Element.Plain (element : Element) : Prop :=
  ∀ name ∈ element.classNames, name.Plain

def Result.Plain (result : Result) : Prop :=
  ∀ name ∈ result.classNames, name.Plain

def Descriptor.Plain (descriptor : Descriptor) : Prop :=
  ∀ name ∈ descriptor.classNames, name.Plain

/-! ## Elements -/

/-- The element as source code would write it with slashes between packages. -/
def Element.word : Element → List Char
  | base type => type.name.toList
  | object name => name.chars

/-- The character that stands in a descriptor where source code has `c`. -/
def slashed (c : Char) : Char :=
  if c = '.' then '/' else c

/-- Nor has the name of a primitive type one of the characters that no plain class name has. -/
theorem notMem_name (type : BaseType) : ∀ c ∈ ['.', ',', ' ', '(', '['], c ∉ type.name.toList := by
  simp only [List.forall_mem_cons, List.not_mem_nil, false_implies, implies_true, and_true]
  cases type <;> decide

namespace Element

variable {element first second : Element}

theorem word_ne_nil (plain : element.Plain) : element.word ≠ [] := by
  cases element with
  | base type => cases type <;> decide
  | object name => exact (plain name (List.mem_singleton_self name)).nonempty

theorem notMem_word {c : Char} (hc : c ∈ ['.', ',', ' ', '(', '['])
    (plain : element.Plain) : c ∉ element.word := by
  cases element with
  | base type => exact notMem_name type c hc
  | object name => exact (plain name (List.mem_singleton_self name)).unmarked c hc

theorem word_ne_void (plain : element.Plain) : element.word ≠ "void".toList := by
  cases element with
  | base type => cases type <;> decide
  | object name => exact (plain name (List.mem_singleton_self name)).ne_void

theorem word_inj (plain₁ : first.Plain) (plain₂ : second.Plain) (h : first.word = second.word) :
    first = second := by
  cases first with
  | base type =>
    cases second with
    | base type' => exact congrArg base (BaseType.name_inj (String.toList_inj.mp h))
    | object name => exact absurd h.symm ((plain₂ name (List.mem_singleton_self name)).ne_base type)
  | object name =>
    cases second with
    | base type => exact absurd h ((plain₁ name (List.mem_singleton_self name)).ne_base type)
    | object name' =>
      obtain ⟨chars, unended⟩ := name
      obtain rfl : chars = name'.chars := h
      rfl

/-- Where there was no dot, slashes can be put back. -/
theorem map_slashed_source (plain : element.Plain) :
    element.source.toList.map slashed = element.word := by
  cases element with
  | base type => cases type <;> decide
  | object name =>
    have hdot := notMem_word (c := '.') (by decide) plain
    have hback : ∀ c ∈ name.chars, slashed (if c = '/' then '.' else c) = c := by
      intro c hc
      have hne : c ≠ '.' := fun heq => hdot (heq ▸ hc)
      by_cases hslash : c = '/' <;> simp [slashed, hslash, hne]
    simp only [source, ClassName.dotted, String.toList_ofList, List.map_map]
    exact (List.map_congr_left hback).trans (List.map_id _)

theorem source_inj (plain₁ : first.Plain) (plain₂ : second.Plain)
    (h : first.source.toList = second.source.toList) : first = second := by
  refine word_inj plain₁ plain₂ ?_
  rw [← map_slashed_source plain₁, h, map_slashed_source plain₂]

theorem source_ne_void (plain : element.Plain) : element.source.toList ≠ "void".toList := by
  intro h
  refine word_ne_void plain ?_
  rw [← map_slashed_source plain, h]
  decide

theorem source_ne_nil (plain : element.Plain) : element.source.toList ≠ [] := by
  intro h
  refine word_ne_nil plain ?_
  rw [← map_slashed_source plain, h, List.map_nil]

/-- Of the characters that would mark an end, only the dot can get into source code. -/
theorem notMem_source {c : Char} (hc : c ∈ [',', ' ', '(', '['])
    (plain : element.Plain) : c ∉ element.source.toList := by
  intro hmem
  have hslashed : ∀ c ∈ [',', ' ', '(', '['], slashed c = c := by simp [slashed]
  have hword := List.mem_map_of_mem (f := slashed) hmem
  rw [map_slashed_source plain, hslashed c hc] at hword
  exact notMem_word (List.mem_cons_of_mem _ hc) plain hword

end Element

/-! ## Types -/

namespace Field

variable {type first second : Field}

theorem toList_source (type : Field) :
    type.source.toList =
      type.element.source.toList ++ (List.replicate type.dimensions ['[', ']']).flatten := by
  rw [source, String.toList_append, String.toList_join, List.flatMap_def, List.map_replicate]
  rfl

/-- What stands before the first bracket is what an array holds. -/
theorem takeWhile_source (plain : type.element.Plain) :
    type.source.toList.takeWhile (· != '[') = type.element.source.toList := by
  have helement : ∀ c ∈ type.element.source.toList, (c != '[') = true := by
    intro c hc
    have hne : c ≠ '[' := fun heq => Element.notMem_source (by decide) plain (heq ▸ hc)
    simpa using hne
  have hbrackets : ∀ n, (List.replicate n ['[', ']']).flatten.takeWhile (· != '[') = [] := by
    intro n
    cases n <;> rfl
  rw [toList_source, List.takeWhile_append_of_pos helement, hbrackets, List.append_nil]

theorem source_inj (plain₁ : first.element.Plain) (plain₂ : second.element.Plain)
    (h : first.source = second.source) : first = second := by
  have helement : first.element = second.element := by
    refine Element.source_inj plain₁ plain₂ ?_
    rw [← takeWhile_source plain₁, h, takeWhile_source plain₂]
  have hlength : first.dimensions * 2 = second.dimensions * 2 := by
    simpa [toList_source, helement] using congrArg (·.toList.length) h
  have hdimensions : first.dimensions = second.dimensions := by omega
  obtain ⟨dimensions, element⟩ := first
  obtain rfl : dimensions = second.dimensions := hdimensions
  obtain rfl : element = second.element := helement
  rfl

theorem source_ne_void (plain : type.element.Plain) : type.source ≠ "void" := by
  intro h
  refine Element.source_ne_void plain ?_
  rw [← takeWhile_source plain, h]
  decide

theorem source_ne_nil (plain : type.element.Plain) : type.source.toList ≠ [] := by
  rw [toList_source]
  exact List.append_ne_nil_of_left_ne_nil (Element.source_ne_nil plain) _

theorem notMem_source {c : Char} (hc : c ∈ [',', ' ', '(']) (plain : type.element.Plain) :
    c ∉ type.source.toList := by
  have hmarks : ∀ c ∈ [',', ' ', '('], c ∈ [',', ' ', '(', '['] ∧ c ∉ ['[', ']'] := by simp
  obtain ⟨hmark, hbracket⟩ := hmarks c hc
  rw [toList_source, List.mem_append, List.mem_flatten]
  rintro (hmem | ⟨pair, hpair, hmem⟩)
  · exact Element.notMem_source hmark plain hmem
  · exact hbracket (List.eq_of_mem_replicate hpair ▸ hmem)

end Field

namespace Result

variable {result first second : Result}

theorem source_inj (plain₁ : first.Plain) (plain₂ : second.Plain)
    (h : first.source = second.source) : first = second := by
  cases first with
  | void =>
    cases second with
    | void => rfl
    | value type => exact absurd h.symm (Field.source_ne_void plain₂)
  | value type =>
    cases second with
    | void => exact absurd h (Field.source_ne_void plain₁)
    | value type' => rw [Field.source_inj plain₁ plain₂ h]

/-- The first blank in a signature stands behind the return type. -/
theorem space_notMem_source (plain : result.Plain) : ' ' ∉ result.source.toList := by
  cases result with
  | void => decide
  | value type => exact Field.notMem_source (by decide) plain

end Result

/-! ## Lists of parameters -/

/-- The parameters as they stand in a signature, between the parentheses. -/
def separated (types : List Field) : List Char :=
  [','].intercalate (types.map fun type => type.source.toList)

section Separated

variable {types first second : List Field}

/-- Commas stand between parameters only, so the parameters can be told apart. -/
theorem splitOn_separated (hne : types ≠ []) (plain : ∀ type ∈ types, type.element.Plain) :
    (separated types).splitOn ',' = types.map fun type => type.source.toList := by
  refine List.splitOn_intercalate ',' ?_ (by simpa using hne)
  intro text htext
  obtain ⟨type, htype, rfl⟩ := List.mem_map.mp htext
  exact Field.notMem_source (by decide) (plain type htype)

/-- No parameter is written with nothing, so no list of them reads like the empty one. -/
theorem separated_ne_nil (hne : types ≠ []) (plain : ∀ type ∈ types, type.element.Plain) :
    separated types ≠ [] := by
  intro h
  have hsplit := splitOn_separated hne plain
  rw [h, List.splitOn_nil] at hsplit
  obtain ⟨type, htype, hempty⟩ :=
    List.mem_map.mp (hsplit ▸ List.mem_singleton_self ([] : List Char))
  exact Field.source_ne_nil (plain type htype) hempty

theorem map_source_inj (plain₁ : ∀ type ∈ first, type.element.Plain)
    (plain₂ : ∀ type ∈ second, type.element.Plain)
    (h : first.map (fun type => type.source.toList) = second.map fun type => type.source.toList) :
    first = second := by
  induction first generalizing second with
  | nil => exact (List.map_eq_nil_iff.mp h.symm).symm
  | cons type first ih =>
    cases second with
    | nil => cases h
    | cons type' second =>
      rw [List.forall_mem_cons] at plain₁ plain₂
      obtain ⟨htype, hrest⟩ := List.cons.inj h
      rw [Field.source_inj plain₁.1 plain₂.1 (String.toList_inj.mp htype),
        ih plain₁.2 plain₂.2 hrest]

/-- Parameters with plain class names are told apart by their source code. -/
theorem separated_inj (plain₁ : ∀ type ∈ first, type.element.Plain)
    (plain₂ : ∀ type ∈ second, type.element.Plain) (h : separated first = separated second) :
    first = second := by
  by_cases hfirst : first = []
  · subst hfirst
    by_cases hsecond : second = []
    · exact hsecond.symm
    · exact absurd h.symm (separated_ne_nil hsecond plain₂)
  · by_cases hsecond : second = []
    · subst hsecond
      exact absurd h (separated_ne_nil hfirst plain₁)
    · refine map_source_inj plain₁ plain₂ ?_
      rw [← splitOn_separated hfirst plain₁, h, splitOn_separated hsecond plain₂]

theorem parenthesis_notMem_separated (plain : ∀ type ∈ types, type.element.Plain) :
    '(' ∉ separated types := by
  induction types with
  | nil => simp [separated]
  | cons type types ih =>
    rw [List.forall_mem_cons] at plain
    have htype : '(' ∉ type.source.toList := Field.notMem_source (by decide) plain.1
    cases types with
    | nil => simpa [separated] using htype
    | cons type' types =>
      have hrest := ih plain.2
      simp only [separated, List.map_cons, List.intercalate_cons_cons] at hrest ⊢
      simp only [List.mem_append, List.mem_singleton, not_or]
      exact ⟨⟨htype, by decide⟩, hrest⟩

end Separated

/-! ## Signatures -/

namespace Descriptor

theorem toList_signature (descriptor : Descriptor) (name : String) :
    (descriptor.signature name).toList =
      descriptor.result.source.toList ++
        ' ' :: (name.toList ++ '(' :: (separated descriptor.parameters ++ [')'])) := by
  have hparameters : (",".intercalate (descriptor.parameters.map Field.source)).toList =
      separated descriptor.parameters := by
    rw [String.toList_intercalate, List.map_map]
    rfl
  simp [signature, hparameters]

theorem plain_iff {descriptor : Descriptor} :
    descriptor.Plain ↔
      (∀ type ∈ descriptor.parameters, type.element.Plain) ∧ descriptor.result.Plain := by
  simp only [Plain, classNames, List.forall_mem_append, List.forall_mem_flatMap]
  rfl

/-- Where class names are plain, signatures are equal only if the names and descriptors are. -/
theorem signature_inj {first second : Descriptor} {name₁ name₂ : String} (plain₁ : first.Plain)
    (plain₂ : second.Plain) (h : first.signature name₁ = second.signature name₂) :
    name₁ = name₂ ∧ first = second := by
  obtain ⟨parameters₁, result₁⟩ := plain_iff.mp plain₁
  obtain ⟨parameters₂, result₂⟩ := plain_iff.mp plain₂
  have hchars := congrArg String.toList h
  rw [toList_signature, toList_signature] at hchars
  obtain ⟨hresult, hrest⟩ := Text.append_sep_inj_of_notMem_before
    (Result.space_notMem_source result₁) (Result.space_notMem_source result₂) hchars
  have hlast : ∀ types : List Field, (∀ type ∈ types, type.element.Plain) →
      '(' ∉ separated types ++ [')'] := by
    intro types plain
    simpa using parenthesis_notMem_separated plain
  obtain ⟨hname, hlist⟩ :=
    Text.append_sep_inj_of_notMem_after (hlast _ parameters₁) (hlast _ parameters₂) hrest
  have hparameters := separated_inj parameters₁ parameters₂ (List.append_cancel_right hlist)
  refine ⟨String.toList_inj.mp hname, ?_⟩
  obtain ⟨parameters, result, closed⟩ := first
  obtain rfl : parameters = second.parameters := hparameters
  obtain rfl : result = second.result :=
    Result.source_inj result₁ result₂ (String.toList_inj.mp hresult)
  rfl

/-- A comma in a class name can be taken for the one between two parameters. -/
example :
    signature ⟨[⟨0, .object ⟨['a', ',', 'b'], by decide⟩⟩], .void, by decide⟩ "f" =
      signature ⟨[⟨0, .object ⟨['a'], by decide⟩⟩, ⟨0, .object ⟨['b'], by decide⟩⟩], .void,
        by decide⟩ "f" := by
  decide

end Descriptor

end Written

/-! ## Descriptors as texts -/

/-- The class names in a text that is a descriptor are plain. -/
def PlainNames (descriptor : String) : Prop :=
  ∀ written : Written.Descriptor, written.text = descriptor → written.Plain

theorem plainNames_text (written : Written.Descriptor) :
    PlainNames written.text ↔ written.Plain := by
  constructor
  · intro h
    exact h written rfl
  · intro h other hother
    obtain rfl : other = written := Written.Descriptor.chars_inj (String.ofList_injective hother)
    exact h

theorem methodSignature_text (written : Written.Descriptor) (name : String) :
    methodSignature name written.text = .ok (written.signature name) := by
  have hparse := MethodDescriptor.parse_eq_ok_iff.mpr ⟨written, rfl, rfl⟩
  rw [methodSignature, hparse, Except.map, written.signature_described]

/-- A signature with plain class names determines the name and the descriptor. -/
theorem methodSignature_inj {name₁ name₂ descriptor₁ descriptor₂ : String}
    {method₁ method₂ : MethodDescriptor}
    (parsed₁ : MethodDescriptor.parse descriptor₁ = .ok method₁)
    (parsed₂ : MethodDescriptor.parse descriptor₂ = .ok method₂) (plain₁ : PlainNames descriptor₁)
    (plain₂ : PlainNames descriptor₂)
    (h : methodSignature name₁ descriptor₁ = methodSignature name₂ descriptor₂) :
    name₁ = name₂ ∧ descriptor₁ = descriptor₂ := by
  obtain ⟨first, rfl, -⟩ := MethodDescriptor.parse_eq_ok_iff.mp parsed₁
  obtain ⟨second, rfl, -⟩ := MethodDescriptor.parse_eq_ok_iff.mp parsed₂
  rw [methodSignature_text, methodSignature_text] at h
  obtain ⟨rfl, rfl⟩ := Written.Descriptor.signature_inj ((plainNames_text first).mp plain₁)
    ((plainNames_text second).mp plain₂) (Except.ok.inj h)
  exact ⟨rfl, rfl⟩

end ClassOutline
