import ClassOutline.Error
import ClassOutline.Log

/-!
# Decoders

A decoder is the plan of one forward walk over bytes: a tree of requests, each with what follows for
every answer. What a decoder does is therefore a function of the bytes it is handed and of nothing
else, and statements about all decoders are proved by induction on the tree.
-/

namespace ClassOutline

/-- A plan that reads bytes from the front of the input and ends with a value or an error. -/
inductive Decoder (α : Type) : Type where
  | done (value : α)
  | fail (error : DecodeError)
  /-- Takes the next `count` bytes, which must be there. -/
  | take (count : Nat) (next : List UInt8 → Decoder α)
  /-- Demands that `count` bytes are left, and takes none. -/
  | demand (count : Nat) (next : Decoder α)
  /-- Asks how many bytes were taken so far. -/
  | offset (next : Nat → Decoder α)
  /-- Adds a record to the log. -/
  | note (record : Record) (next : Decoder α)

namespace Decoder

variable {α β : Type}

/-! ## Sequencing -/

/-- The first plan, and where it is done the second one for its value. -/
protected def bind : Decoder α → (α → Decoder β) → Decoder β
  | done value, f => f value
  | fail error, _ => fail error
  | take count next, f => take count fun bytes => (next bytes).bind f
  | demand count next, f => demand count (next.bind f)
  | offset next, f => offset fun taken => (next taken).bind f
  | note record next, f => note record (next.bind f)

instance : Monad Decoder where
  pure := done
  bind := Decoder.bind

theorem pure_eq (value : α) : (pure value : Decoder α) = done value := rfl

@[simp] theorem done_bind (value : α) (f : α → Decoder β) : done value >>= f = f value := rfl

@[simp] theorem fail_bind (error : DecodeError) (f : α → Decoder β) :
    fail error >>= f = fail error := rfl

@[simp] theorem take_bind (count : Nat) (next : List UInt8 → Decoder α) (f : α → Decoder β) :
    take count next >>= f = take count fun bytes => next bytes >>= f := rfl

@[simp] theorem demand_bind (count : Nat) (next : Decoder α) (f : α → Decoder β) :
    demand count next >>= f = demand count (next >>= f) := rfl

@[simp] theorem offset_bind (next : Nat → Decoder α) (f : α → Decoder β) :
    offset next >>= f = offset fun taken => next taken >>= f := rfl

@[simp] theorem note_bind (record : Record) (next : Decoder α) (f : α → Decoder β) :
    note record next >>= f = note record (next >>= f) := rfl

theorem bind_done (plan : Decoder α) : plan >>= done = plan := by
  induction plan with
  | done => rfl
  | fail => rfl
  | take count next ih => exact congrArg (take count) (funext ih)
  | demand count next ih => exact congrArg (demand count) ih
  | offset next ih => exact congrArg offset (funext ih)
  | note record next ih => exact congrArg (note record) ih

/-- Plans in sequence can be taken together in any way. -/
theorem bind_assoc {γ : Type} (plan : Decoder α) (f : α → Decoder β) (g : β → Decoder γ) :
    plan >>= f >>= g = plan >>= fun value => f value >>= g := by
  induction plan with
  | done => rfl
  | fail => rfl
  | take count next ih => exact congrArg (take count) (funext ih)
  | demand count next ih => exact congrArg (demand count) ih
  | offset next ih => exact congrArg offset (funext ih)
  | note record next ih => exact congrArg (note record) ih

instance : LawfulMonad Decoder :=
  LawfulMonad.mk' Decoder bind_done (fun _ _ => rfl) bind_assoc

/-! ## Loops -/

def iterate {σ : Type} (step : σ → Decoder σ) : Nat → σ → Decoder σ
  | 0, state => done state
  | count + 1, state => step state >>= iterate step count

/-- Reads `count` items, of which the next has the given index, onto those read before, in reverse.
-/
def collectOnto (item : Nat → Decoder α) : Nat → Nat → List α → Decoder (List α)
  | 0, _, read => done read.reverse
  | count + 1, index, read =>
    item index >>= fun value => collectOnto item count (index + 1) (value :: read)

def collect (item : Nat → Decoder α) (count : Nat) : Decoder (List α) :=
  collectOnto item count 0 []

/-! ## Requests -/

/-- Ends the walk with an error unless there is a value. -/
def ofExcept {ε : Type} (cause : ε → DecodeError) : Except ε α → Decoder α
  | .ok value => done value
  | .error error => fail (cause error)

def bytes (count : Nat) : Decoder (List UInt8) :=
  take count done

def skip (count : Nat) : Decoder Unit :=
  take count fun _ => done ()

/-- Goes on only if `count` bytes are left. -/
def require (count : Nat) : Decoder Unit :=
  demand count (done ())

/-- The number of bytes taken so far. -/
def position : Decoder Nat :=
  offset done

def log (record : Record) : Decoder Unit :=
  note record (done ())

/-! ## Big-endian words -/

/-- The number that bytes denote, the most significant one first. -/
def bigEndian (bytes : List UInt8) : Nat :=
  bytes.foldl (fun number byte => 256 * number + byte.toNat) 0

/-- A number of `width` bytes; a reader that is handed another number of them reports the end of the
input. -/
def number (width : Nat) : Decoder Nat :=
  take width fun bytes =>
    if bytes.length = width then done (bigEndian bytes) else fail (.io .endOfInput)

def word8 : Decoder UInt8 :=
  UInt8.ofNat <$> number 1

def word16 : Decoder UInt16 :=
  UInt16.ofNat <$> number 2

def word32 : Decoder UInt32 :=
  UInt32.ofNat <$> number 4

end Decoder

end ClassOutline
