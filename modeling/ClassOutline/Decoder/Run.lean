import ClassOutline.Decoder.Basic

/-!
# Running decoders

A decoder runs from a cursor, which knows the size of the whole input, how much of it was taken and
what is left. Bytes are handed over only after a check that they are there; where the check fails
the walk ends with the offset, the number of bytes needed and the number remaining. The log is kept
however the walk ends. Main statements: a sequence of two plans runs as the second one from where
the first one stopped (`run_bind`), and what a run does does not depend on what was logged before it
(`run_log`).
-/

namespace ClassOutline

/-! ## Cursors -/

/-- A place in an input of `size` bytes: `offset` of them were taken, `rest` is what follows. -/
structure Cursor where
  size : Nat
  offset : Nat
  rest : List UInt8
  deriving DecidableEq, Repr

namespace Cursor

def start (bytes : List UInt8) : Cursor := ⟨bytes.length, 0, bytes⟩

def remaining (cursor : Cursor) : Nat :=
  cursor.size - cursor.offset

def advance (cursor : Cursor) (count : Nat) : Cursor :=
  { cursor with offset := cursor.offset + count, rest := cursor.rest.drop count }

/-- The error of a walk that needs `needed` bytes here. -/
def truncated (cursor : Cursor) (needed : Nat) : DecodeError :=
  .truncated cursor.offset needed cursor.remaining

end Cursor

/-! ## Runs -/

/-- How a walk ended: with what, where, and with what records. -/
structure Run (α : Type) where
  result : Except DecodeError α
  stop : Cursor
  log : Array Record

namespace Decoder

variable {α β : Type}

/-- Runs a decoder from a cursor; its records follow those already in the log. -/
def run : Decoder α → Cursor → Array Record → Run α
  | done value, cursor, log => ⟨.ok value, cursor, log⟩
  | fail error, cursor, log => ⟨.error error, cursor, log⟩
  | take count next, cursor, log =>
    if count ≤ cursor.remaining then
      (next (cursor.rest.take count)).run (cursor.advance count) log
    else ⟨.error (cursor.truncated count), cursor, log⟩
  | demand count next, cursor, log =>
    if count ≤ cursor.remaining then next.run cursor log
    else ⟨.error (cursor.truncated count), cursor, log⟩
  | offset next, cursor, log => (next cursor.offset).run cursor log
  | note record next, cursor, log => next.run cursor (log.push record)

def runOn (plan : Decoder α) (bytes : List UInt8) : Run α :=
  plan.run (.start bytes) #[]

/-! ## Laws -/

/-- Goes on with the next plan from where a run stopped, unless it failed. -/
def resume (f : α → Decoder β) (run : Run α) : Run β :=
  match run.result with
  | .ok value => (f value).run run.stop run.log
  | .error error => ⟨.error error, run.stop, run.log⟩

/-- A sequence of two plans runs as the second one from where the first one stopped. -/
theorem run_bind (plan : Decoder α) (f : α → Decoder β) (cursor : Cursor) (log : Array Record) :
    (plan >>= f).run cursor log = resume f (plan.run cursor log) := by
  induction plan generalizing cursor log with
  | done | fail => rfl
  | take count next ih =>
    simp only [take_bind, run]
    split
    · exact ih _ _ _
    · rfl
  | demand count next ih =>
    simp only [demand_bind, run]
    split
    · exact ih _ _
    · rfl
  | offset next ih => exact ih _ _ _
  | note record next ih => exact ih _ _

/-- What a run does does not depend on what was logged before it. -/
theorem run_log (plan : Decoder α) (cursor : Cursor) (log : Array Record) :
    plan.run cursor log =
      { plan.run cursor #[] with log := log ++ (plan.run cursor #[]).log } := by
  induction plan generalizing cursor log with
  | done | fail => simp [run]
  | take count next ih =>
    simp only [run]
    split
    · exact ih _ _ _
    · simp
  | demand count next ih =>
    simp only [run]
    split
    · exact ih _ _
    · simp
  | offset next ih => exact ih _ _ _
  | note record next ih =>
    simp only [run]
    rw [ih, ih cursor (#[].push record)]
    simp

/-! ## Plans without demands -/

/-- The same plan without its demands: it takes what it takes, and checks no more than that. -/
def unguarded : Decoder α → Decoder α
  | done value => done value
  | fail error => fail error
  | take count next => take count fun bytes => (next bytes).unguarded
  | demand _ next => next.unguarded
  | offset next => offset fun taken => (next taken).unguarded
  | note record next => note record next.unguarded

end Decoder

end ClassOutline
