import ClassOutline.Proofs.Descriptor.Rejection
import ClassOutline.Proofs.Descriptor.Sound

/-!
# Reading in place is safe

What the scanner reads where some characters are left is what the reader of characters reads of
them, it leaves the same characters, and all that it does until then is sound. Main statement: the
scans of whole descriptors are sound and come to what the readers read, and every type moves the
scanner forward (`MethodDescriptor.scanInPlace_sound`).
-/

namespace ClassOutline

open Text (OnBoundary utf8 width)

/-! ## What the readers read -/

theorem BaseType.code_lt (type : BaseType) : type.code.toNat < 128 := by
  cases type <;> decide

/-- A byte that is told from characters below 128 as `c` is stands for the type that `c` does. -/
theorem BaseType.ofByte?_eq {byte : UInt8} {c : Char}
    (hbyte : ∀ a : Char, a.toNat < 128 → (byte = a.toUInt8 ↔ c = a)) :
    ofByte? byte = ofCode? c := by
  unfold ofByte? ofCode?
  congr 1
  funext type
  simp only [eq_comm, hbyte type.code (code_lt type)]

namespace Written

variable {after rest : List Char} {type : FieldType}

theorem suffix_of_scan {text : List Char}
    (hscan : FieldType.scan after = .ok (type, rest)) (h : after <:+ text) : rest <:+ text := by
  obtain ⟨field, rfl, -⟩ := exists_field_of_scan hscan
  exact (List.suffix_append _ _).trans h

theorem fieldOfChars_of_scan (h : FieldType.scan after = .ok (type, rest)) :
    FieldType.ofChars after = if rest = [] then .ok type else .error .trailing := by
  rw [FieldType.ofChars, h]
  cases rest <;> rfl

theorem returnOfChars_void (rest : List Char) :
    ReturnType.ofChars ('V' :: rest) = if rest = [] then .ok .void else .error .trailing := by
  cases rest <;> rfl

end Written

namespace Scanner

variable {scanner : Scanner} {after rest : List Char} {c : Char}

/-! ## Ends of scans and of readers -/

/-- How a scan ends that finds what a reader has read. -/
def ending (scanner : Scanner) {α : Type} (read : Except DescriptorFault α) :
    Except Scan.Halt α :=
  (read.mapError (⟨·, scanner.descriptor⟩)).mapError .error

/-- Where the reader fails nothing more is scanned. -/
theorem bind_map_ending {α β γ : Type} {read : Except DescriptorFault γ} {g : γ → α} {k : γ → β}
    {scan : Scan α} {f : α → Scan β} (h : scan.Ends (scanner.ending (read.map g)))
    (hf : ∀ value, (f (g value)).Ends (.ok (k value))) :
    (scan >>= f).Ends (scanner.ending (read.map k)) := by
  cases read with
  | error fault => exact h.bind_error
  | ok value => exact h.bind (hf value)

/-! ## One type -/

theorem ends_fail {α : Type} {fault : DescriptorFault} (h : ∀ c, fault ≠ .invalidCharacter c) :
    (scanner.fail fault : Scan α).Ends (.error (.error ⟨fault, scanner.descriptor⟩)) :=
  Scan.ends_fail h

theorem ends_brackets {count : Nat} (dimensions : Nat) (hrest : rest.head? ≠ some '[')
    (h : List.replicate count '[' ++ rest <:+ scanner.input.toList) :
    (scanner.brackets (scanner.place (List.replicate count '[' ++ rest)) dimensions).Ends
      (.ok (scanner.place rest, dimensions + count)) := by
  induction count generalizing dimensions with
  | zero =>
    have hpeek := mt (peek?_place_eq_some_iff h (by decide)).mp hrest
    rw [brackets, dif_neg hpeek]
    exact Scan.ends_pure _
  | succ count ih =>
    rw [List.replicate_succ, List.cons_append] at h ⊢
    have hpeek := (peek?_place_eq_some_iff h (a := '[') (by decide)).mpr rfl
    have htail := suffix_tail h
    rw [brackets, dif_pos hpeek, ← place_tail (by decide) h, Nat.add_comm count 1, ← Nat.add_assoc]
    exact (ends_stand htail).bind (ih (dimensions + 1) htail)

/-- Where a character is left, its first byte tells it from every character below 128. -/
theorem exists_peek?_place (h : c :: after <:+ scanner.input.toList) :
    ∃ byte, scanner.peek? (scanner.place (c :: after)) = some byte ∧
      ∀ a : Char, a.toNat < 128 → (byte = a.toUInt8 ↔ c = a) := by
  have hne : utf8 (c :: after) ≠ [] := by
    simp [utf8, String.utf8EncodeChar_ne_nil]
  obtain ⟨byte, bytes, hbytes⟩ := List.exists_cons_of_ne_nil hne
  refine ⟨byte, by rw [peek?_place h, hbytes, List.head?_cons], fun a ha => ?_⟩
  have hiff : (utf8 (c :: after)).head? = _ ↔ _ := Text.head?_utf8_eq_some_iff ha
  rwa [hbytes, List.head?_cons, List.head?_cons, Option.some_inj, Option.some_inj] at hiff

theorem ends_objectType {name : List Char} (hname : ';' ∉ name)
    (h : 'L' :: (name ++ ';' :: rest) <:+ scanner.input.toList) :
    (scanner.objectType (scanner.place ('L' :: (name ++ ';' :: rest)))).Ends
      (.ok (.object (String.ofList (name.map ElementType.dotted)), scanner.place rest)) := by
  have hstart := suffix_tail h
  have hstop : ';' :: rest <:+ scanner.input.toList := (List.suffix_append _ _).trans hstart
  have hrest := suffix_tail hstop
  have hfind : Text.firstByte? ';'.toUInt8 (String.ofList (name ++ ';' :: rest)) =
      some (width name) :=
    Text.firstByte?_of_append (by decide) String.toList_ofList hname
  have hnext : scanner.place ('L' :: (name ++ ';' :: rest)) + 1 + width name + 1 =
      scanner.place rest := by
    rw [place_tail (by decide) hstop, place_append hstart, place_tail (by decide) h]
  -- The scanner adds up where the name starts and stops; each sum is the place of a rest.
  have hcut := ends_cut_place hstart
  rw [place_append hstart, place_tail (by decide) h] at hcut
  have hwhole := ends_cut_rest hstart
  rw [place_tail (by decide) h] at hwhole
  rw [objectType]
  refine hwhole.bind ?_
  simp only [hfind, hnext]
  refine (ends_stand hrest).bind (hcut.bind ?_)
  rw [String.toList_ofList]
  exact Scan.ends_pure _

theorem ends_objectType_of_notMem (hrest : ';' ∉ rest) (h : 'L' :: rest <:+ scanner.input.toList) :
    (scanner.objectType (scanner.place ('L' :: rest))).Ends
      (.error (.error ⟨.unterminatedObject, scanner.descriptor⟩)) := by
  have hfind : Text.firstByte? ';'.toUInt8 (String.ofList rest) = none :=
    Text.firstByte?_of_notMem (by decide) (by rwa [String.toList_ofList])
  have hwhole := ends_cut_rest (suffix_tail h)
  rw [place_tail (by decide) h] at hwhole
  rw [objectType]
  refine hwhole.bind ?_
  simp only [hfind]
  exact ends_fail (by simp)

/-- Where a character is left, it is the one that is reported. -/
theorem ends_invalid {α : Type} (h : c :: after <:+ scanner.input.toList) :
    (scanner.invalid (scanner.place (c :: after)) : Scan α).Ends
      (.error (.error ⟨.invalidCharacter c, scanner.descriptor⟩)) := by
  rw [invalid]
  refine (ends_cut_rest h).bind ?_
  rw [String.toList_ofList]
  refine ⟨rfl, fun event hevent => ?_, fun c' descriptor hresult => ?_⟩
  · obtain rfl := List.mem_singleton.mp hevent
    obtain ⟨before, h⟩ := h
    refine ⟨String.ofList before, String.ofList after, ?_, ?_⟩
    · rw [← String.toList_inj, ← h]
      simp
    · rw [Text.utf8ByteSize_ofList, place_eq h.symm]
  · cases hresult
    exact ⟨_, _, List.mem_singleton_self _⟩

theorem ends_fieldType_nil : (scanner.fieldType (scanner.place [])).Ends (.ok none) := by
  have h : List.replicate 0 '[' ++ [] <:+ scanner.input.toList := List.nil_suffix
  have hpeek : scanner.peek? (scanner.place []) = none := peek?_place h
  rw [fieldType]
  refine (ends_brackets 0 (by simp) h).bind ?_
  simp only [hpeek]
  exact Scan.ends_pure _

/-- Where something is left, the scanner finds the type that the reader reads there, or the same
fault. -/
theorem ends_fieldType (hne : after ≠ []) (h : after <:+ scanner.input.toList) :
    (scanner.fieldType (scanner.place after)).Ends (scanner.ending
      ((FieldType.scan after).map fun read => some (read.1, scanner.place read.2))) := by
  -- Both pass over the brackets first; behind them the cases are those of reading an element type.
  obtain ⟨dimensions, rest, rfl, hrest⟩ := Written.exists_brackets after
  have hbehind : rest <:+ scanner.input.toList := (List.suffix_append _ _).trans h
  rw [Written.scan_brackets_append dimensions rest hrest, fieldType]
  refine (ends_brackets 0 hrest h).bind ?_
  rw [Nat.zero_add]
  cases rest with
  | nil =>
    have hpeek : scanner.peek? (scanner.place []) = none := peek?_place hbehind
    have hdimensions : dimensions ≠ 0 := by
      rintro rfl
      exact hne rfl
    simp only [hpeek, hdimensions, if_false]
    exact ends_fail (by simp)
  | cons c rest =>
    obtain ⟨byte, hpeek, hbyte⟩ := exists_peek?_place hbehind
    simp only [hpeek, hbyte 'L' (by decide), hbyte 'V' (by decide), BaseType.ofByte?_eq hbyte,
      ElementType.scan]
    split
    · rename_i hobject
      subst hobject
      cases hcut : Text.splitFirst ';' rest with
      | none =>
        exact (ends_objectType_of_notMem (Text.splitFirst_eq_none_iff.mp hcut) hbehind).bind_error
      | some parts =>
        obtain ⟨rfl, hname⟩ := Text.splitFirst_eq_some_iff.mp hcut
        exact (ends_objectType hname hbehind).bind (Scan.ends_pure _)
    · split
      · exact ends_fail (by simp)
      · cases hcode : BaseType.ofCode? c with
        | none => exact ends_invalid hbehind
        | some type =>
          have hascii : c.toNat < 128 := by
            rw [BaseType.ofCode?_eq_some_iff.mp hcode]
            exact type.code_lt
          have hnext := suffix_tail hbehind
          simp only [← place_tail hascii hbehind]
          exact (ends_stand hnext).bind (Scan.ends_pure _)

/-! ## All types -/

/-- The scanner reads a type and goes on behind it, until the text ends. -/
theorem fieldTypes_eq (position : Nat) (read : List FieldType) :
    scanner.fieldTypes position read = scanner.fieldType position >>= fun
      | none => pure read.reverse
      | some (type, next) => scanner.fieldTypes next (type :: read) := by
  rw [fieldTypes, Scan.bind_eq, Scan.bind]
  split
  · rename_i halt hresult
    rw [hresult]
  · rename_i hresult
    simp only [hresult]
    exact congrArg (Scan.mk _) (List.append_nil _).symm
  · rename_i type next hresult
    simp only [hresult]

/-- Scanning types in place finds what reading them from characters finds. -/
theorem ends_fieldTypes (read : List FieldType) (h : after <:+ scanner.input.toList) :
    (scanner.fieldTypes (scanner.place after) read).Ends
      (scanner.ending (FieldType.scanAll read after)) := by
  -- The induction is the reader's; the scanner goes the same way from place to place.
  induction read, after using FieldType.scanAll.induct with
  | case1 read =>
    rw [fieldTypes_eq, FieldType.scanAll]
    exact ends_fieldType_nil.bind (Scan.ends_pure _)
  | case2 read c after fault hscan =>
    have hfirst := ends_fieldType (List.cons_ne_nil c after) h
    rw [hscan] at hfirst
    rw [fieldTypes_eq, Written.scanAll_of_scan_error read hscan]
    exact hfirst.bind_error
  | case3 read c after type rest hscan ih =>
    have hfirst := ends_fieldType (List.cons_ne_nil c after) h
    rw [hscan] at hfirst
    rw [fieldTypes_eq, Written.scanAll_of_scan read hscan]
    refine hfirst.bind ?_
    exact ih (Written.suffix_of_scan hscan h)

/-! ## The end of the text -/

theorem ends_expectEnd_nil : (scanner.expectEnd (scanner.place [])).Ends (.ok ()) := by
  rw [expectEnd, place_nil, if_neg (Nat.lt_irrefl _)]
  exact Scan.ends_pure _

theorem ends_expectEnd_cons (h : c :: after <:+ scanner.input.toList) :
    (scanner.expectEnd (scanner.place (c :: after))).Ends
      (.error (.error ⟨.trailing, scanner.descriptor⟩)) := by
  have hlt : scanner.place (c :: after) < scanner.input.utf8ByteSize := by
    obtain ⟨byte, hpeek, -⟩ := exists_peek?_place h
    exact lt_of_peek? hpeek
  rw [expectEnd, if_pos hlt]
  exact ends_fail (by simp)

theorem ends_dueType (h : after <:+ scanner.input.toList) :
    (scanner.dueType (scanner.place after)).Ends (scanner.ending
      ((FieldType.scan after).map fun read => (read.1, scanner.place read.2))) := by
  by_cases hnil : after = []
  · subst hnil
    exact ends_fieldType_nil.bind (ends_fail (by simp))
  · exact bind_map_ending (ends_fieldType hnil h) fun _ => Scan.ends_pure _

theorem ends_returnType_void (h : 'V' :: rest <:+ scanner.input.toList) :
    (scanner.returnType (scanner.place ('V' :: rest))).Ends (.ok (.void, scanner.place rest)) := by
  have hpeek := (peek?_place_eq_some_iff h (a := 'V') (by decide)).mpr rfl
  have hnext := suffix_tail h
  rw [returnType, if_pos hpeek, ← place_tail (by decide) h]
  exact (ends_stand hnext).bind (Scan.ends_pure _)

theorem ends_returnType (hvalue : after.head? ≠ some 'V') (h : after <:+ scanner.input.toList) :
    (scanner.returnType (scanner.place after)).Ends (scanner.ending
      ((FieldType.scan after).map fun read => (.value read.1, scanner.place read.2))) := by
  have hpeek := mt (peek?_place_eq_some_iff h (by decide)).mp hvalue
  rw [returnType, if_neg hpeek]
  exact bind_map_ending (ends_dueType h) fun _ => Scan.ends_pure _

/-! ## Whole texts -/

theorem ends_stand_zero : (scanner.stand 0).Ends (.ok ()) := by
  have hstart := ends_stand (List.suffix_refl scanner.input.toList)
  rwa [place_toList] at hstart

theorem ends_allTypes (scanner : Scanner) :
    scanner.allTypes.Ends (scanner.ending (FieldType.scanAll [] scanner.input.toList)) := by
  have hall := ends_fieldTypes [] (List.suffix_refl scanner.input.toList)
  rw [place_toList] at hall
  exact ends_stand_zero.bind hall

section Whole

variable {α : Type} {find : Nat → Scan (α × Nat)}

/-- A scan of a whole text fails where something is left of it. -/
theorem ends_whole {value : α} (hfind : (find 0).Ends (.ok (value, scanner.place rest)))
    (h : rest <:+ scanner.input.toList) :
    (scanner.whole find).Ends
      (scanner.ending (if rest = [] then .ok value else .error .trailing)) := by
  refine ends_stand_zero.bind ?_
  cases rest with
  | nil => exact hfind.bind (ends_expectEnd_nil.bind (Scan.ends_pure _))
  | cons c rest => exact hfind.bind (ends_expectEnd_cons h).bind_error

theorem ends_whole_of_scan {f : FieldType → α}
    (hfind : (find 0).Ends (scanner.ending
      ((FieldType.scan scanner.input.toList).map fun read => (f read.1, scanner.place read.2)))) :
    (scanner.whole find).Ends
      (scanner.ending ((FieldType.ofChars scanner.input.toList).map f)) := by
  cases hscan : FieldType.scan scanner.input.toList with
  | error fault =>
    rw [hscan] at hfind
    rw [FieldType.ofChars, hscan]
    exact ends_stand_zero.bind hfind.bind_error
  | ok read =>
    rw [hscan] at hfind
    rw [Written.fieldOfChars_of_scan hscan, apply_ite (Except.map f)]
    exact ends_whole hfind (Written.suffix_of_scan hscan (List.suffix_refl _))

end Whole

theorem ends_whole_dueType (scanner : Scanner) :
    (scanner.whole scanner.dueType).Ends
      (scanner.ending (FieldType.ofChars scanner.input.toList)) := by
  have hdue := ends_dueType (List.suffix_refl scanner.input.toList)
  rw [place_toList] at hdue
  have hwhole := ends_whole_of_scan (f := id) hdue
  rwa [Except.map_id] at hwhole

theorem ends_whole_returnType (scanner : Scanner) :
    (scanner.whole scanner.returnType).Ends
      (scanner.ending (ReturnType.ofChars scanner.input.toList)) := by
  by_cases hvoid : scanner.input.toList.head? = some 'V'
  · obtain ⟨rest, htext⟩ := List.head?_eq_some_iff.mp hvoid
    have hsuffix : 'V' :: rest <:+ scanner.input.toList := htext ▸ List.suffix_refl _
    have hread := ends_returnType_void hsuffix
    rw [← htext, place_toList] at hread
    rw [htext, Written.returnOfChars_void]
    exact ends_whole hread (suffix_tail hsuffix)
  · have hread := ends_returnType hvoid (List.suffix_refl scanner.input.toList)
    rw [place_toList] at hread
    rw [Written.returnOfChars_of_head?_ne hvoid]
    exact ends_whole_of_scan hread

end Scanner

/-! ## Whole descriptors -/

/-- Scanning a field descriptor in place finds what parsing it finds. -/
theorem FieldType.ends_scanInPlace (descriptor : String) :
    (scanInPlace descriptor).Ends ((parse descriptor).mapError .error) :=
  Scanner.ends_whole_dueType ⟨descriptor, descriptor⟩

example : (FieldType.scanInPlace "[é").events =
    [.stands "[é" 0, .stands "[é" 1, .cuts "[é" 1 3, .reports "[é" 1 'é'] := by cbv

namespace MethodDescriptor

variable {descriptor : String}

/-- Without its parentheses a descriptor is not cut at all. -/
theorem scanInPlace_of_unbalanced
    (h : descriptor.toList.head? ≠ some '(' ∨ ')' ∉ descriptor.toList) :
    scanInPlace descriptor = Scan.fail ⟨.unbalanced, descriptor⟩ := by
  unfold scanInPlace
  split
  · rename_i first last hfirst hlast
    -- With a closing parenthesis, the first opening one is not at the start.
    refine if_pos (.inl ?_)
    rintro rfl
    rcases h with hopen | hclose
    · exact hopen ((Text.firstByte?_eq_zero_iff (by decide)).mp hfirst)
    · rw [Text.lastByte?_of_notMem (by decide) hclose] at hlast
      cases hlast
  · rfl

section Last

variable {parameters result : List Char}
  (h : descriptor.toList = '(' :: (parameters ++ ')' :: result))
include h

theorem ends_cut_parameters :
    (Scan.cut descriptor (0 + 1) (width ('(' :: parameters))).Ends
      (.ok (String.ofList parameters)) := by
  have hsplit : descriptor.toList = ['('] ++ (parameters ++ ')' :: result) := h
  have hwidth : width ('(' :: parameters) = 0 + 1 + width parameters := by
    rw [Text.width_cons_of_lt (by decide)]
    omega
  rw [hwidth]
  exact Scan.ends_cut hsplit

theorem ends_cut_result :
    (Scan.cut descriptor (width ('(' :: parameters) + 1) descriptor.utf8ByteSize).Ends
      (.ok (String.ofList result)) := by
  have hsplit : descriptor.toList = ('(' :: parameters ++ [')']) ++ (result ++ []) := by simp [h]
  have hfirst : width ('(' :: parameters ++ [')']) = width ('(' :: parameters) + 1 :=
    Text.width_append _ _
  have hlast : descriptor.utf8ByteSize = width ('(' :: parameters) + 1 + width result := by
    rw [Text.utf8ByteSize_eq, hsplit, Text.width_append, hfirst, List.append_nil]
  rw [hlast, ← hfirst]
  exact Scan.ends_cut hsplit

theorem ends_scanBetween :
    (scanBetween descriptor 0 (width ('(' :: parameters))).Ends
      ((((FieldType.scanAll [] parameters).bind fun types =>
        (ReturnType.ofChars result).map fun type => (⟨types, type⟩ : MethodDescriptor)).mapError
          (⟨·, descriptor⟩)).mapError .error) := by
  have hparameters := Scanner.ends_allTypes ⟨String.ofList parameters, descriptor⟩
  have hresult := Scanner.ends_whole_returnType ⟨String.ofList result, descriptor⟩
  rw [String.toList_ofList] at hparameters hresult
  refine (ends_cut_parameters h).bind ?_
  cases hread : FieldType.scanAll [] parameters with
  | error fault =>
    rw [hread] at hparameters
    exact hparameters.bind_error
  | ok types =>
    rw [hread] at hparameters
    refine hparameters.bind ((ends_cut_result h).bind ?_)
    cases hread : ReturnType.ofChars result with
    | error fault =>
      rw [hread] at hresult
      exact hresult.bind_error
    | ok type =>
      rw [hread] at hresult
      exact hresult.bind (Scan.ends_pure _)

theorem scanInPlace_of_last (last : ')' ∉ result) :
    scanInPlace descriptor = scanBetween descriptor 0 (width ('(' :: parameters)) := by
  have hopen : Text.firstByte? '('.toUInt8 descriptor = some 0 :=
    (Text.firstByte?_eq_zero_iff (by decide)).mpr (by rw [h, List.head?_cons])
  have hclose : Text.lastByte? ')'.toUInt8 descriptor = some (width ('(' :: parameters)) :=
    Text.lastByte?_of_append (by decide) h last
  have hlt : ¬(0 ≠ 0 ∨ width ('(' :: parameters) ≤ 0) := by
    rw [Text.width_cons_of_lt (by decide)]
    omega
  unfold scanInPlace
  simp only [hopen, hclose]
  exact if_neg hlt

end Last

/-- Scanning a method descriptor in place finds what parsing it finds, and nothing on the way is out
of place. -/
theorem ends_scanInPlace (descriptor : String) :
    (scanInPlace descriptor).Ends ((parse descriptor).mapError .error) := by
  by_cases h : descriptor.toList.head? ≠ some '(' ∨ ')' ∉ descriptor.toList
  · rw [scanInPlace_of_unbalanced h, parse, Written.methodOfChars_of_unbalanced h]
    exact Scan.ends_fail (by simp)
  · simp only [ne_eq, not_or, Decidable.not_not] at h
    obtain ⟨parameters, result, htext, last⟩ := Written.exists_last_of_opened h.1 h.2
    rw [scanInPlace_of_last htext last, parse, htext, Written.methodOfChars_of_last last]
    exact ends_scanBetween htext

end MethodDescriptor

/-! ## The scanner is safe -/

theorem Scanner.exists_suffix_of_onBoundary {scanner : Scanner} {position : Nat}
    (h : OnBoundary scanner.input position) :
    ∃ after, after <:+ scanner.input.toList ∧ position = scanner.place after := by
  obtain ⟨before, after, htext, rfl⟩ := h.exists_append
  exact ⟨after, ⟨before, htext.symm⟩, (Scanner.place_eq htext).symm⟩

/-- From a place between characters, one type is read soundly up to another such place. -/
theorem Scanner.exists_ends_fieldType (scanner : Scanner) {position : Nat}
    (h : OnBoundary scanner.input position) :
    ∃ result, (scanner.fieldType position).Ends result ∧
      ∀ type next, result = .ok (some (type, next)) → OnBoundary scanner.input next := by
  obtain ⟨after, hafter, rfl⟩ := Scanner.exists_suffix_of_onBoundary h
  by_cases hnil : after = []
  · subst hnil
    exact ⟨_, ends_fieldType_nil, by simp⟩
  · refine ⟨_, ends_fieldType hnil hafter, fun type next hresult => ?_⟩
    cases hscan : FieldType.scan after with
    | error fault =>
      rw [hscan] at hresult
      cases hresult
    | ok read =>
      rw [hscan] at hresult
      cases hresult
      exact onBoundary_place (Written.suffix_of_scan hscan hafter)

/-- No scan goes from type to type for ever. -/
theorem Scanner.wellFounded_fieldType (scanner : Scanner) :
    WellFounded fun next position =>
      ∃ type, (scanner.fieldType position).result = .ok (some (type, next)) := by
  refine Subrelation.wf ?_ (measure fun position => scanner.input.utf8ByteSize - position).wf
  rintro next position ⟨type, h⟩
  have hforward := lt_of_fieldType h
  show scanner.input.utf8ByteSize - next < scanner.input.utf8ByteSize - position
  omega

/-- Both scans come to what the readers read, are never misplaced, and all that happens in them is
sound; a character found invalid is one that stands where the scanner stands. One type is read
soundly from any place between characters to another; from any place at all it moves the scanner
strictly forward, and so types come to an end. -/
theorem MethodDescriptor.scanInPlace_sound :
    (∀ descriptor : String,
      (FieldType.scanInPlace descriptor).Ends ((FieldType.parse descriptor).mapError .error) ∧
      (scanInPlace descriptor).Ends ((parse descriptor).mapError .error)) ∧
    (∀ (scanner : Scanner) (position : Nat), OnBoundary scanner.input position →
      ∃ result, (scanner.fieldType position).Ends result ∧
        ∀ type next, result = .ok (some (type, next)) → OnBoundary scanner.input next) ∧
    (∀ (scanner : Scanner) (position next : Nat) (type : FieldType),
      (scanner.fieldType position).result = .ok (some (type, next)) → position < next) ∧
    ∀ scanner : Scanner, WellFounded fun next position =>
      ∃ type, (scanner.fieldType position).result = .ok (some (type, next)) := by
  refine ⟨fun descriptor => ⟨FieldType.ends_scanInPlace descriptor, ends_scanInPlace descriptor⟩,
    fun scanner position => scanner.exists_ends_fieldType, ?_, Scanner.wellFounded_fieldType⟩
  intro scanner position next type h
  exact (Scanner.lt_of_fieldType h).1

end ClassOutline
