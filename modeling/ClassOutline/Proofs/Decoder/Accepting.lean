import ClassOutline.Proofs.Decoder.Reading

/-!
# What a decoder has taken when it succeeds

A statement `Accepts plan post` looks back from a success: the plan has taken a text off the front
of the input, and the text and the value are as `post` says. As for `Decodes` there is one rule per
request and one per way of putting plans together. Both kinds of statements about one plan meet in
`Accepts.and_result`: a text that is known to be read as something was read as that.
-/

namespace ClassOutline.Decoder

variable {α β : Type}

/-- Whenever the plan ends with a value, the input starts with a text that `post` relates to the
value, and the plan stops right after it. -/
def Accepts (plan : Decoder α) (post : α → List UInt8 → Prop) : Prop :=
  ∀ (offset : Nat) (input : List UInt8) (log : Array Record) (value : α),
    (plan.run (.of offset input) log).result = .ok value →
      ∃ text rest, input = text ++ rest ∧
        (plan.run (.of offset input) log).stop = .of (offset + text.length) rest ∧ post value text

variable {plan : Decoder α} {post : α → List UInt8 → Prop}

theorem Accepts.mono {post' : α → List UInt8 → Prop} (h : Accepts plan post)
    (himp : ∀ value text, post value text → post' value text) : Accepts plan post' := by
  intro offset input log value hvalue
  obtain ⟨text, rest, hinput, hstop, hpost⟩ := h offset input log value hvalue
  exact ⟨text, rest, hinput, hstop, himp value text hpost⟩

/-- What a text is known to be read as is what it was read as. -/
theorem Accepts.and_result (h : Accepts plan post) :
    Accepts plan fun value text => post value text ∧
      ∀ outcome, (∀ offset, Decodes offset plan text outcome) → outcome.result = .ok value := by
  intro offset input log value hvalue
  obtain ⟨text, rest, rfl, hstop, hpost⟩ := h offset input log value hvalue
  refine ⟨text, rest, rfl, hstop, hpost, fun outcome houtcome => ?_⟩
  rw [← (houtcome offset rest log).1, hvalue]

/-! ## Requests -/

theorem accepts_done (value : α) :
    Accepts (done value) fun value' text => value' = value ∧ text = [] := by
  intro offset input log value' hvalue
  simp only [run, Except.ok.injEq] at hvalue
  exact ⟨[], input, rfl, rfl, hvalue.symm, rfl⟩

theorem accepts_fail (error : DecodeError) : Accepts (fail error : Decoder α) fun _ _ => False := by
  intro offset input log value hvalue
  simp [run] at hvalue

theorem accepts_take (count : Nat) :
    Accepts (bytes count) fun read text => text = read ∧ read.length = count := by
  intro offset input log read hread
  by_cases hle : count ≤ input.length
  · rw [bytes, run_take done offset log hle] at hread ⊢
    obtain rfl : input.take count = read := Except.ok.inj hread
    refine ⟨input.take count, input.drop count, (List.take_append_drop ..).symm, ?_, rfl, ?_⟩
    · rw [run, List.length_take_of_le hle]
    · rw [List.length_take_of_le hle]
  · simp [bytes, run, hle] at hread

/-- What two plans in sequence take is what each of them takes. -/
theorem Accepts.bind {f : α → Decoder β} {post' : β → List UInt8 → Prop} (h : Accepts plan post)
    (hf : ∀ value text, post value text →
      Accepts (f value) fun value' text' => post' value' (text ++ text')) :
    Accepts (plan >>= f) post' := by
  intro offset input log value' hvalue'
  rw [run_bind] at hvalue' ⊢
  unfold resume at hvalue' ⊢
  cases hvalue : (plan.run (.of offset input) log).result with
  | error error => simp [hvalue] at hvalue'
  | ok value =>
    obtain ⟨text, rest, rfl, hstop, hpost⟩ := h offset input log value hvalue
    simp only [hvalue, hstop] at hvalue' ⊢
    obtain ⟨text', rest', rfl, hstop', hpost'⟩ := hf value text hpost _ rest _ value' hvalue'
    refine ⟨text ++ text', rest', (List.append_assoc ..).symm, ?_, hpost'⟩
    rw [hstop', List.length_append, Nat.add_assoc]

/-- The first plan may take just what spells its value. -/
theorem Accepts.bind_spell {spell : α → List UInt8} {f : α → Decoder β}
    {post' : β → List UInt8 → Prop} (h : Accepts plan fun value text => text = spell value)
    (hf : ∀ value, Accepts (f value) fun value' text => post' value' (spell value ++ text)) :
    Accepts (plan >>= f) post' := by
  refine h.bind ?_
  rintro value _ rfl
  exact hf value

/-- The first plan may take nothing. -/
theorem Accepts.bind_nil {p : α → Prop} {f : α → Decoder β} {post' : β → List UInt8 → Prop}
    (h : Accepts plan fun value text => p value ∧ text = []) (hf : ∀ value, p value →
      Accepts (f value) post') : Accepts (plan >>= f) post' := by
  refine h.bind fun value text hpost => ?_
  obtain ⟨hvalue, rfl⟩ := hpost
  exact hf value hvalue

theorem Accepts.map {f : α → β} {post' : β → List UInt8 → Prop} (h : Accepts plan post)
    (hf : ∀ value text, post value text → post' (f value) text) :
    Accepts (plan >>= fun value => pure (f value)) post' := by
  refine h.bind fun value text hpost => (accepts_done (f value)).mono ?_
  rintro _ _ ⟨rfl, rfl⟩
  simpa using hf value text hpost

theorem accepts_ofExcept {ε : Type} (cause : ε → DecodeError) (result : Except ε α) :
    Accepts (ofExcept cause result) fun value text => result = .ok value ∧ text = [] := by
  cases result with
  | error error => exact (accepts_fail _).mono fun _ _ h => h.elim
  | ok value => exact (accepts_done value).mono fun _ _ h => ⟨congrArg _ h.1.symm, h.2⟩

theorem accepts_require (count : Nat) :
    Accepts (require count) fun _ text => True ∧ text = [] := by
  intro offset input log value hvalue
  by_cases hle : count ≤ input.length
  · rw [require, run_demand _ offset log hle]
    exact ⟨[], input, rfl, rfl, trivial, rfl⟩
  · simp [require, run, hle] at hvalue

theorem accepts_position : Accepts position fun _ text => True ∧ text = [] :=
  fun _ input _ _ _ => ⟨[], input, rfl, rfl, trivial, rfl⟩

theorem accepts_log (record : Record) : Accepts (log record) fun _ text => True ∧ text = [] :=
  fun _ input _ _ _ => ⟨[], input, rfl, rfl, trivial, rfl⟩

theorem accepts_log_bind (record : Record) (h : Accepts plan post) :
    Accepts (log record >>= fun _ => plan) post :=
  (accepts_log record).bind_nil fun _ _ => h

theorem accepts_ite_log (condition : Prop) [Decidable condition] (record : Record)
    (h : Accepts plan post) :
    Accepts (if condition then log record >>= fun _ => plan else plan) post := by
  split
  · exact accepts_log_bind record h
  · exact h

/-! ## Words -/

/-- What is taken for a number is a number of that width, as it is written. -/
theorem accepts_map_number (width : Nat) (f : Nat → α) :
    Accepts (f <$> number width) fun value text =>
      ∃ n, n < 256 ^ width ∧ value = f n ∧ text = toBigEndian width n := by
  rw [map_eq_pure_bind, number_eq, bind_assoc]
  refine (accepts_take width).bind fun read text hread => ?_
  obtain ⟨rfl, rfl⟩ := hread
  rw [if_pos rfl, done_bind, pure_eq]
  refine (accepts_done _).mono ?_
  rintro _ _ ⟨rfl, rfl⟩
  exact ⟨_, bigEndian_lt _, rfl, by rw [toBigEndian_bigEndian, List.append_nil]⟩

theorem accepts_word8 : Accepts word8 fun word text => text = spell8 word := by
  refine (accepts_map_number 1 UInt8.ofNat).mono ?_
  rintro _ _ ⟨n, hlt, rfl, rfl⟩
  rw [spell8, UInt8.toNat_ofNat_of_lt' hlt]

theorem accepts_word16 : Accepts word16 fun word text => text = spell16 word := by
  refine (accepts_map_number 2 UInt16.ofNat).mono ?_
  rintro _ _ ⟨n, hlt, rfl, rfl⟩
  rw [spell16, UInt16.toNat_ofNat_of_lt' hlt]

theorem accepts_word32 : Accepts word32 fun word text => text = spell32 word := by
  refine (accepts_map_number 4 UInt32.ofNat).mono ?_
  rintro _ _ ⟨n, hlt, rfl, rfl⟩
  rw [spell32, UInt32.toNat_ofNat_of_lt' hlt]

theorem exists_spell16 {text : List UInt8} (h : text.length = 2) :
    ∃ word, text = spell16 word := by
  have hlt := bigEndian_lt text
  have hword := toBigEndian_bigEndian text
  rw [h] at hlt hword
  exact ⟨UInt16.ofNat (bigEndian text), by rw [spell16, UInt16.toNat_ofNat_of_lt' hlt, hword]⟩

/-- The first two bytes of a text are a word. -/
theorem exists_spell16_append {text : List UInt8} (size : Nat) (h : text.length = 2 + size) :
    ∃ word rest, text = spell16 word ++ rest ∧ rest.length = size := by
  obtain ⟨word, hword⟩ := exists_spell16 (show (text.take 2).length = 2 by simp; omega)
  exact ⟨word, text.drop 2, by rw [← hword, List.take_append_drop], by simp; omega⟩

theorem exists_spell16_pair {text : List UInt8} (h : text.length = 4) :
    ∃ first second, text = spell16 first ++ spell16 second := by
  obtain ⟨first, rest, rfl, hrest⟩ := exists_spell16_append 2 h
  obtain ⟨second, rfl⟩ := exists_spell16 hrest
  exact ⟨first, second, rfl⟩

theorem exists_spell32 {text : List UInt8} (h : text.length = 4) :
    ∃ word, text = spell32 word := by
  have hlt := bigEndian_lt text
  have hword := toBigEndian_bigEndian text
  rw [h] at hlt hword
  exact ⟨UInt32.ofNat (bigEndian text), by rw [spell32, UInt32.toNat_ofNat_of_lt' hlt, hword]⟩

theorem exists_spell64 {text : List UInt8} (h : text.length = 8) :
    ∃ word, text = spell64 word := by
  have hlt := bigEndian_lt text
  have hword := toBigEndian_bigEndian text
  rw [h] at hlt hword
  exact ⟨UInt64.ofNat (bigEndian text), by rw [spell64, UInt64.toNat_ofNat_of_lt' hlt, hword]⟩

theorem accepts_skip (count : Nat) : Accepts (skip count) fun _ text => text.length = count := by
  have hplan : skip count = bytes count >>= fun _ => done () := rfl
  rw [hplan]
  refine (accepts_take count).map ?_
  rintro _ _ ⟨rfl, hlength⟩
  exact hlength

theorem accepts_word16_pair (f : UInt16 → UInt16 → α) :
    Accepts (word16 >>= fun first => word16 >>= fun second => pure (f first second)) fun _ text =>
      ∃ first second, text = spell16 first ++ spell16 second := by
  refine accepts_word16.bind_spell fun first => accepts_word16.map ?_
  rintro second _ rfl
  exact ⟨first, second, rfl⟩

/-- What is passed over can be cut into items of one size, if any text of that size is an item. -/
theorem accepts_skip_items {ι : Type} {spell : ι → List UInt8} {size : Nat}
    (h : ∀ text : List UInt8, text.length = size → ∃ item, text = spell item) (count : Nat) :
    Accepts (skip (size * count)) fun _ text =>
      ∃ items : List ι, items.length = count ∧ text = items.flatMap spell := by
  refine (accepts_skip _).mono fun _ text hlength => ?_
  induction count generalizing text with
  | zero => exact ⟨[], rfl, List.length_eq_zero_iff.mp hlength⟩
  | succ count ih =>
    rw [Nat.mul_succ] at hlength
    obtain ⟨item, hitem⟩ := h (text.take size) (by simp; omega)
    obtain ⟨items, rfl, hitems⟩ := ih (text.drop size) (by simp; omega)
    refine ⟨item :: items, rfl, ?_⟩
    rw [List.flatMap_cons, ← hitem, ← hitems, List.take_append_drop]

/-! ## Loops -/

/-- A loop takes one item after another. -/
theorem accepts_iterate {σ ι : Type} {step : σ → Decoder σ} {p : ι → Prop}
    {spell : ι → List UInt8}
    (h : ∀ state, Accepts (step state) fun _ text => ∃ item, p item ∧ text = spell item)
    (count : Nat) (state : σ) :
    Accepts (iterate step count state) fun _ text =>
      ∃ items : List ι, items.length = count ∧ (∀ item ∈ items, p item) ∧
        text = items.flatMap spell := by
  induction count generalizing state with
  | zero =>
    refine (accepts_done state).mono ?_
    rintro _ _ ⟨-, rfl⟩
    exact ⟨[], rfl, by simp, rfl⟩
  | succ count ih =>
    refine (h state).bind fun state' text hitem => (ih state').mono ?_
    obtain ⟨item, hp, rfl⟩ := hitem
    rintro _ _ ⟨items, rfl, hall, rfl⟩
    exact ⟨item :: items, rfl, List.forall_mem_cons.mpr ⟨hp, hall⟩, List.flatMap_cons.symm⟩

theorem accepts_collectOnto {ι : Type} {item : Nat → Decoder α} {p : ι → Prop}
    {spell : ι → List UInt8}
    (h : ∀ index, Accepts (item index) fun _ text => ∃ entry, p entry ∧ text = spell entry)
    (count index : Nat) (read : List α) :
    Accepts (collectOnto item count index read) fun _ text =>
      ∃ entries : List ι, entries.length = count ∧ (∀ entry ∈ entries, p entry) ∧
        text = entries.flatMap spell := by
  induction count generalizing index read with
  | zero =>
    refine (accepts_done _).mono ?_
    rintro _ _ ⟨-, rfl⟩
    exact ⟨[], rfl, by simp, rfl⟩
  | succ count ih =>
    refine (h index).bind fun value text hentry => (ih (index + 1) (value :: read)).mono ?_
    obtain ⟨entry, hp, rfl⟩ := hentry
    rintro _ _ ⟨entries, rfl, hall, rfl⟩
    exact ⟨entry :: entries, rfl, List.forall_mem_cons.mpr ⟨hp, hall⟩, List.flatMap_cons.symm⟩

/-- A loop that collects takes one item after another. -/
theorem accepts_collect {ι : Type} {item : Nat → Decoder α} {p : ι → Prop}
    {spell : ι → List UInt8}
    (h : ∀ index, Accepts (item index) fun _ text => ∃ entry, p entry ∧ text = spell entry)
    (count : Nat) :
    Accepts (collect item count) fun _ text =>
      ∃ entries : List ι, entries.length = count ∧ (∀ entry ∈ entries, p entry) ∧
        text = entries.flatMap spell :=
  accepts_collectOnto h count 0 []

end ClassOutline.Decoder
