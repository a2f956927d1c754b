import ClassOutline.Proofs.Descriptor.Scanner

/-!
# Sound scans

A scan is sound if its scanner stands between characters whenever it stands anywhere, cuts texts
between characters only, and reports whole characters (`Scan.Event.Sound`). The scanner moves by
bytes, but only past bytes of characters below 128 and to places behind them, so where it stands is
always told by the characters that are left (`Scanner.place`).
-/

namespace ClassOutline

open Text (OnBoundary utf8 width)

/-! ## Sound scans -/

namespace Scan

/-- An offset is not behind the end of its text and not inside a character, and a character that is
reported stands there in full. -/
def Event.Sound : Event → Prop
  | stands text offset => OnBoundary text offset
  | cuts text first last => OnBoundary text first ∧ OnBoundary text last ∧ first ≤ last
  | reports text offset c => ∃ before after : String,
      text = before ++ String.singleton c ++ after ∧ before.utf8ByteSize = offset

variable {α β : Type}

/-- The scan ends so, all that happens until then is sound, and a character that it finds invalid
is one that it has reported. -/
structure Ends (scan : Scan α) (result : Except Halt α) : Prop where
  result_eq : scan.result = result
  sound : ∀ event ∈ scan.events, event.Sound
  reported : ∀ c descriptor, result = .error (.error ⟨.invalidCharacter c, descriptor⟩) →
    ∃ text offset, .reports text offset c ∈ scan.events

theorem ends_pure (value : α) : (pure value : Scan α).Ends (.ok value) :=
  ⟨rfl, fun _ hevent => absurd hevent List.not_mem_nil, nofun⟩

theorem ends_fail {error : DescriptorError} (h : ∀ c, error.fault ≠ .invalidCharacter c) :
    (fail error : Scan α).Ends (.error (.error error)) := by
  refine ⟨rfl, fun _ hevent => absurd hevent List.not_mem_nil, fun c descriptor herror => ?_⟩
  cases herror
  exact absurd rfl (h c)

section Bind

variable {scan : Scan α} {f : α → Scan β}

theorem bind_eq : scan >>= f = Scan.bind scan f := rfl

/-- Scans in sequence, the first of which has a value. -/
theorem Ends.bind {value : α} {result : Except Halt β} (h : scan.Ends (.ok value))
    (hf : (f value).Ends result) : (scan >>= f).Ends result := by
  rw [bind_eq, Scan.bind, h.result_eq]
  refine ⟨hf.result_eq, fun event hevent => ?_, fun c descriptor hresult => ?_⟩
  · rcases List.mem_append.mp hevent with hfirst | hsecond
    · exact h.sound event hfirst
    · exact hf.sound event hsecond
  · obtain ⟨text, offset, hevent⟩ := hf.reported c descriptor hresult
    exact ⟨text, offset, List.mem_append_right _ hevent⟩

theorem Ends.bind_error {halt : Halt} (h : scan.Ends (.error halt)) :
    (scan >>= f).Ends (.error halt) := by
  rw [bind_eq, Scan.bind, h.result_eq]
  refine ⟨rfl, h.sound, fun c descriptor hresult => ?_⟩
  cases hresult
  exact h.reported c descriptor rfl

end Bind

/-- Parts of a text between characters are cut out as they are. -/
theorem ends_cut {text : String} {before middle after : List Char}
    (h : text.toList = before ++ (middle ++ after)) :
    (cut text (width before) (width before + width middle)).Ends (.ok (String.ofList middle)) := by
  refine ⟨?_, fun event hevent => ?_, nofun⟩
  · rw [cut, Text.cut?_of_append h]
    rfl
  · obtain rfl := List.mem_singleton.mp hevent
    have hlast := Text.onBoundary_of_append (h.trans (List.append_assoc before middle after).symm)
    rw [Text.width_append] at hlast
    exact ⟨Text.onBoundary_of_append h, hlast, Nat.le_add_right _ _⟩

end Scan

namespace Scanner

/-! ## Places -/

/-- Where the scanner stands when `after` is left. -/
def place (scanner : Scanner) (after : List Char) : Nat :=
  width scanner.input.toList - width after

variable {scanner : Scanner} {before after rest : List Char} {a c : Char}

theorem place_eq (h : scanner.input.toList = before ++ after) :
    scanner.place after = width before := by
  rw [place, h, Text.width_append, Nat.add_sub_cancel]

theorem place_nil : scanner.place [] = scanner.input.utf8ByteSize := by
  rw [place, Text.width_nil, Nat.sub_zero, Text.utf8ByteSize_eq]

theorem place_toList : scanner.place scanner.input.toList = 0 :=
  Nat.sub_self _

/-- Behind a character below 128 the scanner stands one byte further on. -/
theorem place_tail (ha : a.toNat < 128) (h : a :: after <:+ scanner.input.toList) :
    scanner.place after = scanner.place (a :: after) + 1 := by
  obtain ⟨before, h⟩ := h
  have htail : scanner.input.toList = (before ++ [a]) ++ after := by simp [← h]
  rw [place_eq h.symm, place_eq htail, Text.width_append, Text.width_cons_of_lt ha,
    Text.width_nil]

theorem place_append (h : before ++ after <:+ scanner.input.toList) :
    scanner.place after = scanner.place (before ++ after) + width before := by
  obtain ⟨start, h⟩ := h
  have hrest : scanner.input.toList = (start ++ before) ++ after := by simp [← h]
  rw [place_eq h.symm, place_eq hrest, Text.width_append]

theorem suffix_tail (h : a :: after <:+ scanner.input.toList) :
    after <:+ scanner.input.toList :=
  (List.suffix_cons a after).trans h

section Suffix

variable (h : after <:+ scanner.input.toList)
include h

/-- The scanner never stands inside a character. -/
theorem onBoundary_place : OnBoundary scanner.input (scanner.place after) := by
  obtain ⟨before, h⟩ := h
  rw [place_eq h.symm]
  exact Text.onBoundary_of_append h.symm

theorem ends_stand : (scanner.stand (scanner.place after)).Ends (.ok ()) := by
  refine ⟨rfl, fun event hevent => ?_, nofun⟩
  obtain rfl := List.mem_singleton.mp hevent
  exact onBoundary_place h

theorem peek?_place : scanner.peek? (scanner.place after) = (utf8 after).head? := by
  obtain ⟨before, h⟩ := h
  rw [place_eq h.symm, peek?, Text.byteAt?_of_append h.symm]

theorem peek?_place_eq_some_iff (ha : a.toNat < 128) :
    scanner.peek? (scanner.place after) = some a.toUInt8 ↔ after.head? = some a := by
  rw [peek?_place h, Text.head?_utf8_eq_some_iff ha]

end Suffix

theorem ends_cut_place (h : before ++ after <:+ scanner.input.toList) :
    (Scan.cut scanner.input (scanner.place (before ++ after)) (scanner.place after)).Ends
      (.ok (String.ofList before)) := by
  rw [place_append h]
  obtain ⟨start, h⟩ := h
  rw [place_eq h.symm]
  exact Scan.ends_cut h.symm

theorem ends_cut_rest (h : after <:+ scanner.input.toList) :
    (Scan.cut scanner.input (scanner.place after) scanner.input.utf8ByteSize).Ends
      (.ok (String.ofList after)) := by
  have hall : after ++ [] <:+ scanner.input.toList := by rwa [List.append_nil]
  have hcut := ends_cut_place hall
  rwa [List.append_nil, place_nil] at hcut

end Scanner

end ClassOutline
