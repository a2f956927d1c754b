import ClassOutline.Proofs.Decoder.Steps

/-!
# When records are added

A run taken apart into steps, with the records added on the way to every point (`Emits`). The log of
a run consists of the records added on the way to its end, however it ends (`exists_emits_ends`). A
plan settles its demands (`Settles`) if it takes the bytes that it has demanded before it adds a
record. The records that such a plan has added by any point are then a matter of the bytes taken
by then: they are added on every input that begins with these bytes, also where it is too short for
a demand already met (`Owes.isPrefix_log`).
-/

namespace ClassOutline.Decoder

variable {α β : Type}

/-! ## Records on the way to a point -/

/-- The records that answering the request of a point adds. -/
def Point.records : Point α → List Record
  | ⟨note record _, _⟩ => [record]
  | _ => []

/-- The points that a walk passes, each with the records added on the way to it. -/
inductive Emits : Point α → Point α → List Record → Prop where
  | stay {point : Point α} : Emits point point []
  | step {point next last : Point α} {records : List Record} (first : Step point next)
      (rest : Emits next last records) : Emits point last (point.records ++ records)

variable {start point next last : Point α} {records : List Record}

theorem Emits.snoc (h : Emits start point records) (hstep : Step point next) :
    Emits start next (records ++ point.records) := by
  induction h with
  | stay => simpa using Emits.step hstep .stay
  | step first _ ih =>
    rw [List.append_assoc]
    exact .step first (ih hstep)

theorem Emits.reached (h : Emits start point records) : Reached start point := by
  induction h with
  | stay => exact .start
  | step first _ ih => exact first.reached ih

/-- Every point that is reached is reached with some records. -/
theorem Reached.exists_emits (h : Reached start point) : ∃ records, Emits start point records := by
  induction h with
  | start => exact ⟨[], .stay⟩
  | step _ hstep ih =>
    obtain ⟨records, hrecords⟩ := ih
    exact ⟨_, hrecords.snoc hstep⟩

theorem Step.offset_le (h : Step point next) : point.cursor.offset ≤ next.cursor.offset := by
  cases h with
  | take enough => exact Nat.le_add_right ..
  | demand enough => exact Nat.le_refl _
  | offset => exact Nat.le_refl _
  | note => exact Nat.le_refl _

/-- A walk never goes back. -/
theorem Emits.offset_le (h : Emits start point records) :
    start.cursor.offset ≤ point.cursor.offset := by
  induction h with
  | stay => exact Nat.le_refl _
  | step first _ ih => exact Nat.le_trans first.offset_le ih

/-! ## The log of a run -/

/-- A run goes on behind a step, with what the step adds in its log. -/
theorem Step.run_eq (h : Step point next) (log : Array Record) :
    point.plan.run point.cursor log =
      next.plan.run next.cursor (log ++ point.records.toArray) := by
  cases h with
  | take enough => simp [run, Point.records, enough]
  | demand enough => simp [run, Point.records, enough]
  | offset => simp [run, Point.records]
  | note => simp [run, Point.records]

/-- A run goes on from every point that it passes, with the records added by then in its log. -/
theorem Emits.run_eq (h : Emits start point records) (log : Array Record) :
    start.plan.run start.cursor log =
      point.plan.run point.cursor (log ++ records.toArray) := by
  induction h generalizing log with
  | stay => simp
  | step first _ ih =>
    rw [first.run_eq, ih]
    simp

theorem Point.Ends.run_eq {result : Except DecodeError α} (h : point.Ends result)
    (log : Array Record) : point.plan.run point.cursor log = ⟨result, point.cursor, log⟩ := by
  cases h with
  | done => rfl
  | fail => rfl
  | short asks missing =>
    rename_i plan count cursor
    have hshort : ¬count ≤ cursor.remaining := Nat.not_le_of_lt missing
    cases plan with
    | take size next =>
      obtain rfl : size = count := asks
      simp only [run, if_neg hshort]
    | demand size next =>
      obtain rfl : size = count := asks
      simp only [run, if_neg hshort]
    | done | fail | offset | note => exact asks.elim

/-- A run ends at a point that it passes, and its log holds what was added on the way there. -/
theorem exists_emits_ends (plan : Decoder α) (cursor : Cursor) (log : Array Record) :
    ∃ last records, Emits ⟨plan, cursor⟩ last records ∧
      last.Ends (plan.run cursor log).result ∧
      (plan.run cursor log).log = log ++ records.toArray := by
  obtain ⟨last, -, hreached, hends⟩ := exists_reached_ends plan cursor log
  obtain ⟨records, hrecords⟩ := hreached.exists_emits
  refine ⟨last, records, hrecords, hends, ?_⟩
  have hrun : plan.run cursor log = _ := hrecords.run_eq log
  rw [hrun, hends.run_eq]

/-! ## Demands that are settled -/

/-- The plan, before which `debt` bytes were demanded and not yet taken, is done when no more than
`left` of them are. In between it demands more bytes, but adds no record before all are taken. -/
def Owes : Decoder α → Nat → Nat → Prop
  | done _, debt, left => debt ≤ left
  | fail _, _, _ => True
  | take count next, debt, left =>
    ∀ bytes, bytes.length = count → (next bytes).Owes (debt - count) left
  | demand count next, debt, left => next.Owes (max debt count) left
  | offset next, debt, left => ∀ taken, (next taken).Owes debt left
  | note _ next, debt, left => debt = 0 ∧ next.Owes 0 left

variable {plan : Decoder α} {debt debt' left : Nat}

theorem Owes.mono (h : plan.Owes debt left) (hle : debt' ≤ debt) : plan.Owes debt' left := by
  induction plan generalizing debt debt' with
  | done value => exact Nat.le_trans hle h
  | fail error => trivial
  | take count next ih =>
    intro bytes hlength
    exact ih bytes (h bytes hlength) (Nat.sub_le_sub_right hle count)
  | demand count next ih => exact ih h (by omega)
  | offset next ih => exact fun taken => ih taken (h taken) hle
  | note record next ih =>
    obtain ⟨hzero, hnext⟩ := h
    exact ⟨by omega, hnext⟩

/-- The second plan takes over what the first one has left to take. -/
theorem Owes.bind {middle : Nat} {f : α → Decoder β} (h : plan.Owes debt middle)
    (hf : ∀ value, (f value).Owes middle left) : (plan >>= f).Owes debt left := by
  induction plan generalizing debt with
  | done value => exact (hf value).mono h
  | fail error => trivial
  | take count next ih => exact fun bytes hlength => ih bytes (h bytes hlength)
  | demand count next ih => exact ih h
  | offset next ih => exact fun taken => ih taken (h taken)
  | note record next ih => exact ⟨h.1, ih h.2⟩

/-- What is left in the end may be overstated. -/
theorem Owes.weaken {left' : Nat} (h : plan.Owes debt left) (hle : left ≤ left') :
    plan.Owes debt left' := by
  induction plan generalizing debt with
  | done value => exact Nat.le_trans h hle
  | fail error => trivial
  | take count next ih => exact fun bytes hlength => ih bytes (h bytes hlength)
  | demand count next ih => exact ih h
  | offset next ih => exact fun taken => ih taken (h taken)
  | note record next ih => exact ⟨h.1, ih h.2⟩

/-- What takes bytes owes no more than before. -/
theorem Owes.keeps {count : Nat} (h : plan.Owes debt (debt - count)) : plan.Owes debt debt :=
  h.weaken (Nat.sub_le debt count)

theorem owes_done (value : α) (debt : Nat) : (done value).Owes debt debt := Nat.le_refl debt

theorem owes_ofExcept {ε : Type} (cause : ε → DecodeError) (result : Except ε α) (debt : Nat) :
    (ofExcept cause result).Owes debt debt := by
  cases result with
  | ok value => exact owes_done value debt
  | error error => trivial

theorem owes_bytes (count debt : Nat) : (bytes count).Owes debt (debt - count) :=
  fun _ _ => Nat.le_refl _

theorem owes_skip (count debt : Nat) : (skip count).Owes debt (debt - count) :=
  fun _ _ => Nat.le_refl _

theorem owes_map_number (width : Nat) (f : Nat → α) (debt : Nat) :
    (f <$> number width).Owes debt (debt - width) := by
  have hnumber : (number width).Owes debt (debt - width) := by
    intro bytes hlength
    simp only [if_pos hlength]
    exact owes_done _ _
  rw [map_eq_pure_bind]
  exact hnumber.bind fun _ => owes_done _ _

theorem owes_word8 (debt : Nat) : word8.Owes debt (debt - 1) := owes_map_number 1 _ debt

theorem owes_word16 (debt : Nat) : word16.Owes debt (debt - 2) := owes_map_number 2 _ debt

theorem owes_word32 (debt : Nat) : word32.Owes debt (debt - 4) := owes_map_number 4 _ debt

/-- Items that take `size` bytes each settle the demand for all of them. -/
theorem owes_collectOnto {item : Nat → Decoder α} {size : Nat}
    (h : ∀ index debt, (item index).Owes debt (debt - size)) (count index : Nat) (read : List α) :
    (collectOnto item count index read).Owes (size * count) 0 := by
  induction count generalizing index read with
  | zero => exact owes_done read.reverse 0
  | succ count ih =>
    refine (h index _).bind fun value => ?_
    have hrest : size * (count + 1) - size = size * count := by
      rw [Nat.mul_succ, Nat.add_sub_cancel]
    rw [hrest]
    exact ih (index + 1) (value :: read)

/-! ## Plans that settle all demands -/

/-- The plan adds a record, or is done, only when all bytes that it has demanded are taken. -/
def Settles (plan : Decoder α) : Prop := plan.Owes 0 0

theorem Settles.bind {f : α → Decoder β} (h : plan.Settles) (hf : ∀ value, (f value).Settles) :
    (plan >>= f).Settles :=
  Owes.bind h hf

theorem settles_done (value : α) : (done value).Settles := owes_done value 0

theorem settles_ofExcept {ε : Type} (cause : ε → DecodeError) (result : Except ε α) :
    (ofExcept cause result).Settles :=
  owes_ofExcept cause result 0

theorem settles_skip (count : Nat) : (skip count).Settles := (owes_skip count 0).keeps

theorem settles_position : position.Settles := fun _ => Nat.le_refl 0

theorem settles_log (record : Record) : (log record).Settles := ⟨rfl, Nat.le_refl 0⟩

theorem settles_ite_log (condition : Prop) [Decidable condition] (record : Record)
    (h : plan.Settles) : (if condition then log record >>= fun _ => plan else plan).Settles := by
  split
  · exact (settles_log record).bind fun _ => h
  · exact h

theorem settles_word16 : word16.Settles := (owes_word16 0).keeps

theorem settles_word32 : word32.Settles := (owes_word32 0).keeps

/-- A demand is settled by a plan that takes what is demanded. -/
theorem settles_require_bind {count : Nat} (h : plan.Owes count 0) :
    (require count >>= fun _ => plan).Settles := by
  have hmax : max 0 count = count := Nat.zero_max count
  show plan.Owes (max 0 count) 0
  rwa [hmax]

theorem settles_iterate {σ : Type} {step : σ → Decoder σ} (h : ∀ state, (step state).Settles)
    (count : Nat) (state : σ) : (iterate step count state).Settles := by
  induction count generalizing state with
  | zero => exact settles_done state
  | succ count ih => exact (h state).bind ih

theorem settles_collect {item : Nat → Decoder α} (h : ∀ index, (item index).Settles)
    (count : Nat) : (collect item count).Settles := by
  have honto : ∀ index read, (collectOnto item count index read).Settles := by
    induction count with
    | zero => exact fun index read => settles_done read.reverse
    | succ count ih =>
      exact fun index read => (h index).bind fun value => ih (index + 1) (value :: read)
  exact honto 0 []

/-! ## Bytes that records depend on -/

section Agreeing

variable {bytes bytes' : List UInt8} {size : Nat}

theorem le_length_of_take_eq (h : bytes'.take size = bytes.take size) (hle : size ≤ bytes.length) :
    size ≤ bytes'.length := by
  have hlength := congrArg List.length h
  rw [List.length_take, List.length_take] at hlength
  omega

theorem take_drop_eq {place count : Nat} (h : bytes'.take size = bytes.take size)
    (hle : place + count ≤ size) :
    (bytes'.drop place).take count = (bytes.drop place).take count := by
  have htake : ∀ list : List UInt8,
      (list.drop place).take count = ((list.take size).drop place).take count := by
    intro list
    rw [List.drop_take, List.take_take, Nat.min_eq_left (by omega)]
  rw [htake, h, ← htake]

end Agreeing

variable {bytes bytes' : List UInt8} {cursor' : Cursor}

/-- Where a record has been added, all that was demanded before has been taken. -/
theorem Owes.add_le_offset (hemits : Emits start last records)
    (hwithin : start.cursor.Within bytes) (h : start.plan.Owes debt left) (hne : records ≠ []) :
    start.cursor.offset + debt ≤ last.cursor.offset := by
  induction hemits generalizing debt with
  | stay => exact absurd rfl hne
  | step first rest ih =>
    have hnext := first.within hwithin
    cases first with
    | take enough =>
      have hlast := ih hnext (h _ (hwithin.length_take enough)) hne
      dsimp only [Cursor.advance] at hlast ⊢
      omega
    | demand enough =>
      have hlast := ih hnext h hne
      dsimp only at hlast ⊢
      omega
    | offset => exact ih hnext (h _) hne
    | note =>
      obtain ⟨rfl, -⟩ := h
      exact rest.offset_le

/-- A run only adds to the log. -/
theorem isPrefix_log_run (plan : Decoder α) (cursor : Cursor) (log : Array Record) :
    log.toList <+: (plan.run cursor log).log.toList := by
  rw [run_log]
  simp

/-- The records added by a point of a walk are added on every input that begins with the bytes taken
by then. -/
theorem Owes.isPrefix_log (hemits : Emits start last records)
    (hwithin : start.cursor.Within bytes) (hwithin' : cursor'.Within bytes')
    (hoffset : cursor'.offset = start.cursor.offset)
    (hsame : bytes'.take last.cursor.offset = bytes.take last.cursor.offset)
    (h : start.plan.Owes debt left) (log : Array Record) :
    log.toList ++ records <+: (start.plan.run cursor' log).log.toList := by
  induction hemits generalizing cursor' debt log with
  | stay =>
    rw [List.append_nil]
    exact isPrefix_log_run _ _ _
  | @step point next last records first rest ih =>
    have hnext := first.within hwithin
    have hlength := le_length_of_take_eq hsame (rest.reached.within hnext).offset_le
    have hforward := rest.offset_le
    have hsum' := hwithin'.offset_add_remaining
    cases first with
    | @take count next cursor enough =>
      dsimp only [Cursor.advance] at hoffset hforward
      have enough' : count ≤ cursor'.remaining := by omega
      have htaken : cursor'.rest.take count = cursor.rest.take count := by
        rw [hwithin'.rest_eq, hwithin.rest_eq, hoffset]
        exact take_drop_eq hsame hforward
      have hrest := h _ (hwithin.length_take enough)
      rw [run, if_pos enough', htaken]
      exact ih hnext (hwithin'.advance enough') (congrArg (· + count) hoffset) hsame hrest log
    | @demand count next cursor enough =>
      by_cases enough' : count ≤ cursor'.remaining
      · rw [run, if_pos enough']
        exact ih hnext hwithin' hoffset hsame h log
      · -- the demand is not met, so the bytes taken there are too few for a record after it
        have hnil : records = [] := by
          by_cases hne : records = []
          · exact hne
          · have hlast := Owes.add_le_offset rest hnext h hne
            dsimp only at hoffset hlast
            omega
        rw [hnil]
        simpa [Point.records] using isPrefix_log_run (demand count next) cursor' log
    | offset =>
      rw [run, hoffset]
      exact ih hnext hwithin' hoffset hsame (h _) log
    | @note record next cursor =>
      have hpush := ih hnext hwithin' hoffset hsame h.2 (log.push record)
      simpa [Point.records, run] using hpush

end ClassOutline.Decoder
