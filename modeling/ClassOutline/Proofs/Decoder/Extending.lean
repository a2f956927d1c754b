import ClassOutline.Proofs.Decoder.Reading

/-!
# Runs on longer inputs

A plan learns about the end of its input only from a check that fails, and then it ends as
truncated. A run that ends in any other way is therefore the same on every longer input, up to what
is left behind it (`run_append`).
-/

namespace ClassOutline

/-- The place with `more` after everything that was left. -/
def Cursor.extend (more : List UInt8) (cursor : Cursor) : Cursor :=
  ⟨cursor.size + more.length, cursor.offset, cursor.rest ++ more⟩

@[simp] theorem Cursor.offset_extend (more : List UInt8) (cursor : Cursor) :
    (cursor.extend more).offset = cursor.offset := rfl

theorem Cursor.extend_of (offset : Nat) (rest more : List UInt8) :
    (of offset rest).extend more = of offset (rest ++ more) := by
  simp [of, extend, Nat.add_assoc]

namespace Decoder

variable {α : Type}

/-- The input was too short to tell anything else. -/
def Truncated (result : Except DecodeError α) : Prop :=
  ∃ offset needed remaining, result = .error (.truncated offset needed remaining)

theorem truncated_map_iff {β : Type} {f : α → β} {result : Except DecodeError α} :
    Truncated (result.map f) ↔ Truncated result := by
  unfold Truncated
  cases result <;> simp [Except.map]

/-- Where a request for bytes fails, the error tells how many are there. -/
theorem result_take_of_lt {count : Nat} {input : List UInt8} (next : List UInt8 → Decoder α)
    (offset : Nat) (log : Array Record) (h : input.length < count) :
    ((take count next).run (.of offset input) log).result =
      .error (.truncated offset count input.length) := by
  have hgt : ¬count ≤ (Cursor.of offset input).remaining := by
    rw [Cursor.remaining_of]
    omega
  rw [run, if_neg hgt, Cursor.truncated, Cursor.offset_of, Cursor.remaining_of]

/-- Where a demand fails, the error tells how many bytes are there. -/
theorem result_demand_of_lt {count : Nat} {input : List UInt8} (next : Decoder α) (offset : Nat)
    (log : Array Record) (h : input.length < count) :
    ((demand count next).run (.of offset input) log).result =
      .error (.truncated offset count input.length) := by
  have hgt : ¬count ≤ (Cursor.of offset input).remaining := by
    rw [Cursor.remaining_of]
    omega
  rw [run, if_neg hgt, Cursor.truncated, Cursor.offset_of, Cursor.remaining_of]

theorem truncated_take {count : Nat} {input : List UInt8} (next : List UInt8 → Decoder α)
    (offset : Nat) (log : Array Record) (h : input.length < count) :
    Truncated ((take count next).run (.of offset input) log).result :=
  ⟨_, _, _, result_take_of_lt next offset log h⟩

theorem truncated_demand {count : Nat} {input : List UInt8} (next : Decoder α) (offset : Nat)
    (log : Array Record) (h : input.length < count) :
    Truncated ((demand count next).run (.of offset input) log).result :=
  ⟨_, _, _, result_demand_of_lt next offset log h⟩

/-- What is added after an input is only left over, unless the input was too short. -/
theorem run_append (plan : Decoder α) (offset : Nat) (input more : List UInt8) (log : Array Record)
    (h : ¬Truncated (plan.run (.of offset input) log).result) :
    plan.run (.of offset (input ++ more)) log =
      { plan.run (.of offset input) log with
        stop := (plan.run (.of offset input) log).stop.extend more } := by
  induction plan generalizing offset input log with
  | done | fail => simp only [run, Cursor.extend_of]
  | take count next ih =>
    by_cases hle : count ≤ input.length
    · -- the longer input hands over the same bytes, and what is added follows the others
      have hle' : count ≤ (input ++ more).length := by
        rw [List.length_append]
        omega
      rw [run_take next offset log hle] at h ⊢
      rw [run_take next offset log hle', List.take_append_of_le_length hle,
        List.drop_append_of_le_length hle]
      exact ih _ _ _ _ h
    · exact absurd (truncated_take next offset log (by omega)) h
  | demand count next ih =>
    by_cases hle : count ≤ input.length
    · have hle' : count ≤ (input ++ more).length := by
        rw [List.length_append]
        omega
      rw [run_demand next offset log hle] at h ⊢
      rw [run_demand next offset log hle']
      exact ih _ _ _ h
    · exact absurd (truncated_demand next offset log (by omega)) h
  | offset next ih => exact ih _ _ _ _ h
  | note record next ih => exact ih _ _ _ h

/-- A run that did not end for want of bytes does the same with more of them. -/
theorem runOn_append (plan : Decoder α) {input : List UInt8} (more : List UInt8)
    (h : ¬Truncated (plan.runOn input).result) :
    plan.runOn (input ++ more) =
      { plan.runOn input with stop := (plan.runOn input).stop.extend more } := by
  rw [runOn, Cursor.start_eq_of] at h
  rw [runOn, runOn, Cursor.start_eq_of, Cursor.start_eq_of]
  exact run_append plan 0 input more #[] h

/-- A run stops within its input. -/
theorem offset_stop_le (plan : Decoder α) (offset : Nat) (input : List UInt8)
    (log : Array Record) :
    (plan.run (.of offset input) log).stop.offset ≤ offset + input.length := by
  induction plan generalizing offset input log with
  | done | fail =>
    rw [run, Cursor.offset_of]
    omega
  | take count next ih =>
    by_cases hle : count ≤ input.length
    · rw [run_take next offset log hle]
      have hstop := ih (input.take count) (offset + count) (input.drop count) log
      rw [List.length_drop] at hstop
      omega
    · simp [run, hle]
  | demand count next ih =>
    by_cases hle : count ≤ input.length
    · rw [run_demand next offset log hle]
      exact ih offset input log
    · simp [run, hle]
  | offset next ih => exact ih _ _ _ _
  | note record next ih => exact ih _ _ _

end Decoder

end ClassOutline
