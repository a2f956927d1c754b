import ClassOutline.Proofs.Decoder.Extending

/-!
# Runs that stop too early

What a walk says when its input is too short, and what becomes of it on longer inputs. Plans in good
order (`Orderly`) report the end of the input only through their checks, and take at least part of
what they demand. Then the error accounts for the whole input (`Orderly.bounds_of_truncated`), stays
the same until the bytes that it asks for are there (`Orderly.result_append_of_lt`), and is found
further on, if at all, from then on (`Orderly.lt_of_append`).
-/

namespace ClassOutline.Decoder

variable {α β : Type}

/-! ## Plans in good order -/

/-- The plan starts with taking at least one and at most `count` bytes. -/
def TakesWithin (count : Nat) : Decoder α → Prop
  | take size _ => 0 < size ∧ size ≤ count
  | _ => False

/-- Every error of the plan's own is one of the format, whatever bytes it is handed, and after a
demand that can fail it first takes some of the bytes demanded. -/
def Orderly : Decoder α → Prop
  | done _ => True
  | fail error => error.kind = .format
  | take count next => ∀ bytes, bytes.length = count → (next bytes).Orderly
  | demand count next => (0 < count → next.TakesWithin count) ∧ next.Orderly
  | offset next => ∀ taken, (next taken).Orderly
  | note _ next => next.Orderly

theorem TakesWithin.bind {count : Nat} {plan : Decoder α} (h : plan.TakesWithin count)
    (f : α → Decoder β) : (plan >>= f).TakesWithin count := by
  cases plan with
  | take size next => exact h
  | done | fail | demand | offset | note => exact h.elim

theorem Orderly.bind {plan : Decoder α} {f : α → Decoder β} (h : plan.Orderly)
    (hf : ∀ value, (f value).Orderly) : (plan >>= f).Orderly := by
  induction plan with
  | done value => exact hf value
  | fail error => exact h
  | take count next ih => exact fun bytes hlength => ih bytes (h bytes hlength)
  | demand count next ih => exact ⟨fun hpos => (h.1 hpos).bind f, ih h.2⟩
  | offset next ih => exact fun taken => ih taken (h taken)
  | note record next ih => exact ih h

theorem orderly_done (value : α) : (done value).Orderly := trivial

theorem orderly_ofExcept {ε : Type} {cause : ε → DecodeError}
    (h : ∀ error, (cause error).kind = .format) (result : Except ε α) :
    (ofExcept cause result).Orderly := by
  cases result with
  | ok value => trivial
  | error error => exact h error

theorem orderly_bytes (count : Nat) : (bytes count).Orderly := fun _ _ => trivial

theorem orderly_skip (count : Nat) : (skip count).Orderly := fun _ _ => trivial

theorem orderly_position : position.Orderly := fun _ => trivial

theorem orderly_log (record : Record) : (log record).Orderly := trivial

theorem orderly_ite_log (condition : Prop) [Decidable condition] (record : Record)
    {plan : Decoder α} (h : plan.Orderly) :
    (if condition then log record >>= fun _ => plan else plan).Orderly := by
  split
  · exact (orderly_log record).bind fun _ => h
  · exact h

theorem orderly_require_bind {count : Nat} {plan : Decoder α}
    (hwithin : 0 < count → plan.TakesWithin count) (h : plan.Orderly) :
    (require count >>= fun _ => plan).Orderly :=
  ⟨hwithin, h⟩

/-! ## Words and loops -/

/-- The branch for bytes of another length is never reached. -/
theorem orderly_map_number (width : Nat) (f : Nat → α) : (f <$> number width).Orderly := by
  rw [map_eq_pure_bind]
  refine Orderly.bind (fun bytes hlength => ?_) fun _ => trivial
  simp only [if_pos hlength]
  trivial

theorem orderly_word8 : word8.Orderly := orderly_map_number 1 _

theorem orderly_word16 : word16.Orderly := orderly_map_number 2 _

theorem orderly_word32 : word32.Orderly := orderly_map_number 4 _

theorem takesWithin_word8 {count : Nat} (h : 1 ≤ count) : word8.TakesWithin count :=
  ⟨by decide, h⟩

theorem takesWithin_word16 {count : Nat} (h : 2 ≤ count) : word16.TakesWithin count :=
  ⟨by decide, h⟩

theorem orderly_iterate {σ : Type} {step : σ → Decoder σ} (h : ∀ state, (step state).Orderly)
    (count : Nat) (state : σ) : (iterate step count state).Orderly := by
  induction count generalizing state with
  | zero => trivial
  | succ count ih => exact (h state).bind ih

theorem orderly_collectOnto {item : Nat → Decoder α} (h : ∀ index, (item index).Orderly)
    (count index : Nat) (read : List α) : (collectOnto item count index read).Orderly := by
  induction count generalizing index read with
  | zero => trivial
  | succ count ih => exact (h index).bind fun value => ih (index + 1) (value :: read)

theorem orderly_collect {item : Nat → Decoder α} (h : ∀ index, (item index).Orderly)
    (count : Nat) : (collect item count).Orderly :=
  orderly_collectOnto h count 0 []

theorem takesWithin_collect {item : Nat → Decoder α} {size count : Nat} (hpos : 0 < count)
    (h : (item 0).TakesWithin size) : (collect item count).TakesWithin size := by
  obtain _ | count := count
  · exact absurd hpos (Nat.lt_irrefl 0)
  · exact h.bind _

/-! ## Runs that are too short -/

/-- The plan starts with a check that `count` bytes are there. -/
def Asks (count : Nat) : Decoder α → Prop
  | take size _ => size = count
  | demand size _ => size = count
  | _ => False

variable {plan : Decoder α} {start count place needed remaining : Nat} {input more : List UInt8}
  {log : Array Record}

theorem Asks.result_of_lt (h : plan.Asks count) (hlt : input.length < count) :
    (plan.run (.of start input) log).result = .error (.truncated start count input.length) := by
  cases plan with
  | take size next =>
    obtain rfl : size = count := h
    exact result_take_of_lt next start log hlt
  | demand size next =>
    obtain rfl : size = count := h
    exact result_demand_of_lt next start log hlt
  | done | fail | offset | note => exact h.elim

/-- A walk that finds its input too short has come to a check that fails, and comes there on every
longer input as well. -/
theorem Orderly.exists_asks (h : plan.Orderly)
    (hrun : (plan.run (.of start input) log).result = .error (.truncated place needed remaining)) :
    ∃ (stuck : Decoder α) (rest : List UInt8) (log' : Array Record),
      stuck.Orderly ∧ stuck.Asks needed ∧ rest.length = remaining ∧ remaining < needed ∧
        start ≤ place ∧ place + remaining = start + input.length ∧
        ∀ more,
          plan.run (.of start (input ++ more)) log = stuck.run (.of place (rest ++ more)) log' := by
  induction plan generalizing start input log with
  | done value => cases hrun
  | fail error =>
    obtain rfl : error = .truncated place needed remaining := by simpa [run] using hrun
    cases h
  | take count next ih =>
    by_cases hle : count ≤ input.length
    · rw [run_take next start log hle] at hrun
      obtain ⟨stuck, rest, log', horderly, hasks, hrest, hlt, hplace, hsize, hmore⟩ :=
        ih _ (h _ (List.length_take_of_le hle)) hrun
      rw [List.length_drop] at hsize
      refine ⟨stuck, rest, log', horderly, hasks, hrest, hlt, by omega, by omega, fun more => ?_⟩
      have hle' : count ≤ (input ++ more).length := by
        rw [List.length_append]
        omega
      rw [run_take next start log hle', List.take_append_of_le_length hle,
        List.drop_append_of_le_length hle, hmore]
    · have hlt := Nat.lt_of_not_le hle
      rw [result_take_of_lt next start log hlt, Except.error.injEq,
        DecodeError.truncated.injEq] at hrun
      obtain ⟨rfl, rfl, rfl⟩ := hrun
      exact ⟨take count next, input, log, h, rfl, rfl, hlt, Nat.le_refl _, rfl, fun _ => rfl⟩
  | demand count next ih =>
    by_cases hle : count ≤ input.length
    · rw [run_demand next start log hle] at hrun
      obtain ⟨stuck, rest, log', horderly, hasks, hrest, hlt, hplace, hsize, hmore⟩ := ih h.2 hrun
      refine ⟨stuck, rest, log', horderly, hasks, hrest, hlt, hplace, hsize, fun more => ?_⟩
      have hle' : count ≤ (input ++ more).length := by
        rw [List.length_append]
        omega
      rw [run_demand next start log hle', hmore]
    · have hlt := Nat.lt_of_not_le hle
      rw [result_demand_of_lt next start log hlt, Except.error.injEq,
        DecodeError.truncated.injEq] at hrun
      obtain ⟨rfl, rfl, rfl⟩ := hrun
      exact ⟨demand count next, input, log, h, rfl, rfl, hlt, Nat.le_refl _, rfl, fun _ => rfl⟩
  | offset next ih => exact ih _ (h _) hrun
  | note record next ih => exact ih h hrun

theorem Orderly.bounds_of_truncated (h : plan.Orderly)
    (hrun : (plan.run (.of start input) log).result = .error (.truncated place needed remaining)) :
    start ≤ place ∧ place + remaining = start + input.length ∧ remaining < needed := by
  obtain ⟨-, -, -, -, -, -, hlt, hplace, hsize, -⟩ := h.exists_asks hrun
  exact ⟨hplace, hsize, hlt⟩

/-- As long as the bytes that are needed are not there, only the number of those left changes. -/
theorem Orderly.result_append_of_lt (h : plan.Orderly)
    (hrun : (plan.run (.of start input) log).result = .error (.truncated place needed remaining))
    (hlt : remaining + more.length < needed) :
    (plan.run (.of start (input ++ more)) log).result =
      .error (.truncated place needed (remaining + more.length)) := by
  obtain ⟨stuck, rest, log', -, hasks, rfl, -, -, -, hmore⟩ := h.exists_asks hrun
  rw [← List.length_append] at hlt ⊢
  rw [hmore, hasks.result_of_lt hlt]

/-- A plan that starts with taking bytes that are there gets past its start. -/
theorem TakesWithin.lt_of_truncated (hwithin : plan.TakesWithin count) (h : plan.Orderly)
    (hle : count ≤ input.length)
    (hrun : (plan.run (.of start input) log).result = .error (.truncated place needed remaining)) :
    start < place := by
  cases plan with
  | take size next =>
    obtain ⟨hpos, hsize⟩ := hwithin
    have hle' : size ≤ input.length := Nat.le_trans hsize hle
    rw [run_take next start log hle'] at hrun
    have hbounds := (h _ (List.length_take_of_le hle')).bounds_of_truncated hrun
    omega
  | done | fail | demand | offset | note => exact hwithin.elim

/-- So does a plan that starts with a check for bytes that are there: a demand takes nothing, but
what follows it does. -/
theorem Asks.lt_of_truncated (hasks : plan.Asks count) (hpos : 0 < count) (h : plan.Orderly)
    (hle : count ≤ input.length)
    (hrun : (plan.run (.of start input) log).result = .error (.truncated place needed remaining)) :
    start < place := by
  cases plan with
  | take size next =>
    obtain rfl : size = count := hasks
    have hwithin : (take size next).TakesWithin size := ⟨hpos, Nat.le_refl size⟩
    exact hwithin.lt_of_truncated h hle hrun
  | demand size next =>
    obtain rfl : size = count := hasks
    rw [run_demand next start log hle] at hrun
    exact (h.1 hpos).lt_of_truncated h.2 hle hrun
  | done | fail | offset | note => exact hasks.elim

/-- Once the bytes that were needed are there, the walk gets past the place where they were missing.
-/
theorem Orderly.lt_of_append (h : plan.Orderly)
    (hrun : (plan.run (.of start input) log).result = .error (.truncated place needed remaining))
    (hle : needed ≤ remaining + more.length) {place' needed' remaining' : Nat}
    (hrun' : (plan.run (.of start (input ++ more)) log).result =
      .error (.truncated place' needed' remaining')) : place < place' := by
  obtain ⟨stuck, rest, log', horderly, hasks, rfl, hlt, -, -, hmore⟩ := h.exists_asks hrun
  rw [← List.length_append] at hle
  rw [hmore] at hrun'
  exact hasks.lt_of_truncated (Nat.zero_lt_of_lt hlt) horderly hle hrun'

end ClassOutline.Decoder
