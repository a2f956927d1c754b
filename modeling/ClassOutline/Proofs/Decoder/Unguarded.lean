import ClassOutline.Proofs.Decoder.Extending

/-!
# Runs without demands

What a plan does when its demands are left out. A run that does not end as truncated met all its
demands, and is the same without them (`run_unguarded`). The other way round, a run without demands
that does not end as truncated is that of the plan itself once the input is long enough for all
demands on its way (`exists_run_append_eq_unguarded`).
-/

namespace ClassOutline.Decoder

variable {α β : Type}

/-! ## Plans -/

@[simp] theorem unguarded_bind (plan : Decoder α) (f : α → Decoder β) :
    (plan >>= f).unguarded = plan.unguarded >>= fun value => (f value).unguarded := by
  induction plan with
  | done | fail => rfl
  | take count next ih => exact congrArg (take count) (funext ih)
  | demand count next ih => exact ih
  | offset next ih => exact congrArg offset (funext ih)
  | note record next ih => exact congrArg (note record) ih

@[simp] theorem unguarded_pure (value : α) : (pure value : Decoder α).unguarded = pure value := rfl

@[simp] theorem unguarded_map (f : α → β) (plan : Decoder α) :
    (f <$> plan).unguarded = f <$> plan.unguarded := by
  rw [map_eq_pure_bind, map_eq_pure_bind, unguarded_bind]
  rfl

@[simp] theorem unguarded_ite {condition : Prop} [Decidable condition] (plan plan' : Decoder α) :
    (if condition then plan else plan').unguarded =
      if condition then plan.unguarded else plan'.unguarded := by
  split <;> rfl

theorem unguarded_number (width : Nat) : (number width).unguarded = number width := by
  simp only [number, unguarded, unguarded_ite]

@[simp] theorem unguarded_word8 : word8.unguarded = word8 := by
  rw [word8, unguarded_map, unguarded_number]

@[simp] theorem unguarded_word16 : word16.unguarded = word16 := by
  rw [word16, unguarded_map, unguarded_number]

@[simp] theorem unguarded_word32 : word32.unguarded = word32 := by
  rw [word32, unguarded_map, unguarded_number]

@[simp] theorem unguarded_fail (error : DecodeError) :
    (fail error : Decoder α).unguarded = fail error := rfl

@[simp] theorem unguarded_bytes (count : Nat) : (bytes count).unguarded = bytes count := rfl

@[simp] theorem unguarded_skip (count : Nat) : (skip count).unguarded = skip count := rfl

@[simp] theorem unguarded_require (count : Nat) : (require count).unguarded = pure () := rfl

@[simp] theorem unguarded_position : position.unguarded = position := rfl

@[simp] theorem unguarded_log (record : Record) : (log record).unguarded = log record := rfl

@[simp] theorem unguarded_ofExcept {ε : Type} (cause : ε → DecodeError) (result : Except ε α) :
    (ofExcept cause result).unguarded = ofExcept cause result := by
  cases result <;> rfl

@[simp] theorem unguarded_iterate {σ : Type} (step : σ → Decoder σ) (count : Nat) (state : σ) :
    (iterate step count state).unguarded =
      iterate (fun state => (step state).unguarded) count state := by
  induction count generalizing state with
  | zero => rfl
  | succ count ih => simp only [iterate, unguarded_bind, ih]

@[simp] theorem unguarded_collect (item : Nat → Decoder α) (count : Nat) :
    (collect item count).unguarded = collect (fun index => (item index).unguarded) count := by
  have honto : ∀ index read, (collectOnto item count index read).unguarded =
      collectOnto (fun index => (item index).unguarded) count index read := by
    induction count with
    | zero => intro index read; rfl
    | succ count ih => intro index read; simp only [collectOnto, unguarded_bind, ih]
  exact honto 0 []

/-! ## Runs -/

/-- Demands that are met leave no trace. -/
theorem run_unguarded (plan : Decoder α) (cursor : Cursor) (log : Array Record)
    (h : ¬Truncated (plan.run cursor log).result) :
    plan.unguarded.run cursor log = plan.run cursor log := by
  induction plan generalizing cursor log with
  | done | fail => rfl
  | take count next ih =>
    simp only [unguarded, run] at h ⊢
    by_cases hle : count ≤ cursor.remaining
    · rw [if_pos hle] at h ⊢
      rw [if_pos hle]
      exact ih _ _ _ h
    · rw [if_neg hle, if_neg hle]
  | demand count next ih =>
    simp only [unguarded, run] at h ⊢
    by_cases hle : count ≤ cursor.remaining
    · rw [if_pos hle] at h ⊢
      exact ih _ _ h
    · rw [if_neg hle] at h
      exact absurd ⟨_, _, _, rfl⟩ h
  | offset next ih => exact ih _ _ _ h
  | note record next ih => exact ih _ _ h

/-- A run makes finitely many demands on its way, so that some number of bytes added after the input
is enough for all of them. -/
theorem exists_run_append_eq_unguarded (plan : Decoder α) (offset : Nat) (input : List UInt8)
    (log : Array Record) (h : ¬Truncated (plan.unguarded.run (.of offset input) log).result) :
    ∃ size, ∀ more : List UInt8, size ≤ more.length →
      plan.run (.of offset (input ++ more)) log =
        plan.unguarded.run (.of offset (input ++ more)) log := by
  induction plan generalizing offset input log with
  | done | fail => exact ⟨0, fun _ _ => rfl⟩
  | take count next ih =>
    by_cases hle : count ≤ input.length
    · rw [unguarded, run_take _ offset log hle] at h
      obtain ⟨size, hsize⟩ := ih _ _ _ _ h
      refine ⟨size, fun more hmore => ?_⟩
      have hle' : count ≤ (input ++ more).length := by
        rw [List.length_append]
        omega
      rw [unguarded, run_take _ offset log hle', run_take _ offset log hle',
        List.take_append_of_le_length hle, List.drop_append_of_le_length hle]
      exact hsize more hmore
    · exact absurd (truncated_take _ offset log (by omega)) h
  | demand count next ih =>
    obtain ⟨size, hsize⟩ := ih offset input log h
    refine ⟨max count size, fun more hmore => ?_⟩
    have hle : count ≤ (input ++ more).length := by
      rw [List.length_append]
      omega
    rw [unguarded, run_demand next offset log hle]
    exact hsize more (by omega)
  | offset next ih => exact ih _ _ _ _ h
  | note record next ih => exact ih _ _ _ h

end ClassOutline.Decoder
