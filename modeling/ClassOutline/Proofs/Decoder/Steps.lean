import ClassOutline.Proofs.Decoder.Resuming

/-!
# The points that a run passes

A run taken apart into steps. A point is what is left of a plan at a place in the input, and a step
answers one request; every run ends at a point that it reaches, and there in one of three ways
(`exists_reached_ends`). What one step keeps holds at all points reached (`Reached.invariant`):
the place stays in the input and a plan in good order stays so. Hence no point of such a plan can go
wrong (`Reached.safe`), and its errors are of the format or tell that the input is too short
(`Orderly.kind_of_result`).
-/

namespace ClassOutline

/-- The errors of the format are those that tell neither of a reader nor of missing bytes. -/
theorem DecodeError.kind_eq_format_iff {error : DecodeError} :
    error.kind = .format ↔ (∀ failure, error ≠ .io failure) ∧
      ∀ place needed remaining, error ≠ .truncated place needed remaining := by
  cases error with
  | io failure =>
    simp only [kind]
    split <;> simp
  | _ => simp [kind]

/-! ## Places within an input -/

/-- The place is in the input `bytes`: no further than its end, and what is left is the part of it
from there on. -/
structure Cursor.Within (bytes : List UInt8) (cursor : Cursor) : Prop where
  offset_le : cursor.offset ≤ bytes.length
  size_eq : cursor.size = bytes.length
  rest_eq : cursor.rest = bytes.drop cursor.offset

namespace Cursor

variable {bytes : List UInt8} {cursor : Cursor} {count : Nat}

theorem within_start (bytes : List UInt8) : (start bytes).Within bytes :=
  ⟨Nat.zero_le _, rfl, rfl⟩

/-- The bytes before a place and those after it are all of them. -/
theorem Within.offset_add_remaining (h : cursor.Within bytes) :
    cursor.offset + cursor.remaining = bytes.length := by
  have hle := h.offset_le
  rw [remaining, h.size_eq]
  omega

theorem Within.advance (h : cursor.Within bytes) (hle : count ≤ cursor.remaining) :
    (cursor.advance count).Within bytes := by
  have hsum := h.offset_add_remaining
  refine ⟨?_, h.size_eq, ?_⟩
  · show cursor.offset + count ≤ bytes.length
    omega
  · rw [Cursor.advance, h.rest_eq, List.drop_drop]

/-- Bytes that are there are handed over in full. -/
theorem Within.length_take (h : cursor.Within bytes) (hle : count ≤ cursor.remaining) :
    (cursor.rest.take count).length = count := by
  have hsum := h.offset_add_remaining
  rw [h.rest_eq, List.length_take, List.length_drop]
  omega

end Cursor

namespace Decoder

variable {α : Type}

/-! ## Points and steps -/

/-- What is left of a plan at a place in an input. -/
structure Point (α : Type) where
  plan : Decoder α
  cursor : Cursor

/-- One request is answered. Where a check fails there is no step. -/
inductive Step : Point α → Point α → Prop where
  | take {count : Nat} {next : List UInt8 → Decoder α} {cursor : Cursor}
      (enough : count ≤ cursor.remaining) :
      Step ⟨take count next, cursor⟩ ⟨next (cursor.rest.take count), cursor.advance count⟩
  | demand {count : Nat} {next : Decoder α} {cursor : Cursor} (enough : count ≤ cursor.remaining) :
      Step ⟨demand count next, cursor⟩ ⟨next, cursor⟩
  | offset {next : Nat → Decoder α} {cursor : Cursor} :
      Step ⟨offset next, cursor⟩ ⟨next cursor.offset, cursor⟩
  | note {record : Record} {next : Decoder α} {cursor : Cursor} :
      Step ⟨note record next, cursor⟩ ⟨next, cursor⟩

/-- The points that a walk from `start` passes. -/
inductive Reached (start : Point α) : Point α → Prop where
  | start : Reached start start
  | step {point next : Point α} : Reached start point → Step point next → Reached start next

variable {start point next : Point α}

/-- What holds at the start and is kept by every step holds at all points reached. -/
theorem Reached.invariant {p : Point α → Prop} (initially : p start)
    (kept : ∀ point next, p point → Step point next → p next) (h : Reached start point) :
    p point := by
  induction h with
  | start => exact initially
  | step _ hstep ih => exact kept _ _ ih hstep

theorem Step.reached (h : Step start point) (hreached : Reached point next) :
    Reached start next := by
  induction hreached with
  | start => exact .step .start h
  | step _ hstep ih => exact ih.step hstep

/-! ## Where a run ends -/

/-- A walk ends at a point with the value or the error that is all that is left of the plan, or at a
check that fails. -/
inductive Point.Ends : Point α → Except DecodeError α → Prop where
  | done {value : α} {cursor : Cursor} : Ends ⟨.done value, cursor⟩ (.ok value)
  | fail {error : DecodeError} {cursor : Cursor} : Ends ⟨.fail error, cursor⟩ (.error error)
  | short {plan : Decoder α} {count : Nat} {cursor : Cursor} (asks : plan.Asks count)
      (missing : cursor.remaining < count) : Ends ⟨plan, cursor⟩ (.error (cursor.truncated count))

/-- A run ends at a point that it reaches, with the result that the walk ends with there. -/
theorem exists_reached_ends (plan : Decoder α) (cursor : Cursor) (log : Array Record) :
    ∃ last, last.cursor = (plan.run cursor log).stop ∧ Reached ⟨plan, cursor⟩ last ∧
      last.Ends (plan.run cursor log).result := by
  induction plan generalizing cursor log with
  | done value => exact ⟨_, rfl, .start, .done⟩
  | fail error => exact ⟨_, rfl, .start, .fail⟩
  | take count next ih =>
    rw [run]
    by_cases enough : count ≤ cursor.remaining
    · obtain ⟨last, hstop, hreached, hends⟩ :=
        ih (cursor.rest.take count) (cursor.advance count) log
      rw [if_pos enough]
      exact ⟨last, hstop, (Step.take enough).reached hreached, hends⟩
    · rw [if_neg enough]
      exact ⟨⟨take count next, cursor⟩, rfl, .start, .short rfl (by omega)⟩
  | demand count next ih =>
    rw [run]
    by_cases enough : count ≤ cursor.remaining
    · obtain ⟨last, hstop, hreached, hends⟩ := ih cursor log
      rw [if_pos enough]
      exact ⟨last, hstop, (Step.demand enough).reached hreached, hends⟩
    · rw [if_neg enough]
      exact ⟨⟨demand count next, cursor⟩, rfl, .start, .short rfl (by omega)⟩
  | offset next ih =>
    obtain ⟨last, hstop, hreached, hends⟩ := ih cursor.offset cursor log
    exact ⟨last, hstop, Step.offset.reached hreached, hends⟩
  | note record next ih =>
    obtain ⟨last, hstop, hreached, hends⟩ := ih cursor (log.push record)
    exact ⟨last, hstop, Step.note.reached hreached, hends⟩

/-! ## What steps keep -/

variable {bytes : List UInt8}

theorem Step.within (h : Step point next) (hwithin : point.cursor.Within bytes) :
    next.cursor.Within bytes := by
  cases h with
  | take enough => exact hwithin.advance enough
  | demand enough => exact hwithin
  | offset => exact hwithin
  | note => exact hwithin

/-- The plan of what follows a request is in good order for any answer that the input can give. -/
theorem Step.orderly (h : Step point next) (hwithin : point.cursor.Within bytes)
    (horderly : point.plan.Orderly) : next.plan.Orderly := by
  cases h with
  | take enough => exact horderly _ (hwithin.length_take enough)
  | demand enough => exact horderly.2
  | offset => exact horderly _
  | note => exact horderly

theorem Reached.within (h : Reached start point) (hwithin : start.cursor.Within bytes) :
    point.cursor.Within bytes :=
  h.invariant hwithin fun _ _ hpoint hstep => hstep.within hpoint

theorem Reached.orderly (h : Reached start point) (hwithin : start.cursor.Within bytes)
    (horderly : start.plan.Orderly) : point.plan.Orderly := by
  have hboth : point.cursor.Within bytes ∧ point.plan.Orderly :=
    h.invariant (p := fun point => point.cursor.Within bytes ∧ point.plan.Orderly)
      ⟨hwithin, horderly⟩ fun _ _ hpoint hstep =>
        ⟨hstep.within hpoint.1, hstep.orderly hpoint.1 hpoint.2⟩
  exact hboth.2

/-! ## What cannot go wrong -/

/-- A point at which nothing can go wrong beside what the walk reports. -/
structure Point.Safe (bytes : List UInt8) (point : Point α) : Prop where
  within : point.cursor.Within bytes
  /-- The subtraction that gives the number of bytes left does not fall short of zero. -/
  exact_remaining : point.cursor.offset + point.cursor.remaining = bytes.length
  /-- Bytes that are taken after their check are a part of the input, and all that was asked for. -/
  taken_in_bounds : ∀ count next, point.plan = .take count next → count ≤ point.cursor.remaining →
    point.cursor.offset + count ≤ bytes.length ∧
      point.cursor.rest.take count =
        bytes.extract point.cursor.offset (point.cursor.offset + count) ∧
      (point.cursor.rest.take count).length = count
  /-- No reader was handed too few bytes. -/
  no_failure : ∀ failure, point.plan ≠ .fail (.io failure)

theorem Reached.safe (h : Reached start point) (hwithin : start.cursor.Within bytes)
    (horderly : start.plan.Orderly) : point.Safe bytes := by
  have hpoint := h.within hwithin
  have hsum := hpoint.offset_add_remaining
  refine ⟨hpoint, hsum, fun count next _ hle => ⟨by omega, ?_, hpoint.length_take hle⟩, ?_⟩
  · rw [hpoint.rest_eq, List.extract_eq_take_drop, Nat.add_sub_cancel_left]
  · intro failure hfail
    have hformat := h.orderly hwithin horderly
    rw [hfail] at hformat
    exact (DecodeError.kind_eq_format_iff.mp hformat).1 failure rfl

/-- A plan in good order that fails finds a fault of the format, or its input too short. -/
theorem Orderly.kind_of_result {plan : Decoder α} {error : DecodeError} (h : plan.Orderly)
    (hrun : (plan.runOn bytes).result = .error error) :
    error.kind = .format ∨ ∃ place needed remaining, error = .truncated place needed remaining := by
  obtain ⟨⟨last, cursor⟩, -, hreached, hends⟩ := exists_reached_ends plan (.start bytes) #[]
  rw [runOn] at hrun
  rw [hrun] at hends
  cases hends with
  | fail => exact .inl (hreached.orderly (Cursor.within_start bytes) h)
  | short asks missing => exact .inr ⟨_, _, _, rfl⟩

end Decoder

end ClassOutline
