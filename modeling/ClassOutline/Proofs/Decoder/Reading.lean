import ClassOutline.Proofs.Decoder.BigEndian
import ClassOutline.Proofs.Decoder.Logged

/-!
# What a decoder does on a known text

A statement `Decodes offset plan text outcome` says everything about a plan on an input that starts
with `text`: what it ends with, what it logs and, unless it fails, that it takes `text` and no more.
There is one rule per request and one per way of putting plans together, so a statement about a
whole plan is assembled along the plan.
-/

namespace ClassOutline

/-! ## Places in an input -/

/-- The place in an input with `offset` bytes before it and `rest` after it. -/
def Cursor.of (offset : Nat) (rest : List UInt8) : Cursor := ⟨offset + rest.length, offset, rest⟩

namespace Cursor

theorem start_eq_of (bytes : List UInt8) : start bytes = of 0 bytes := by
  simp [start, of]

@[simp] theorem offset_of (offset : Nat) (rest : List UInt8) : (of offset rest).offset = offset :=
  rfl

@[simp] theorem rest_of (offset : Nat) (rest : List UInt8) : (of offset rest).rest = rest := rfl

@[simp] theorem remaining_of (offset : Nat) (rest : List UInt8) :
    (of offset rest).remaining = rest.length := by
  simp [of, remaining]

theorem advance_of {offset count : Nat} {rest : List UInt8} (h : count ≤ rest.length) :
    (of offset rest).advance count = of (offset + count) (rest.drop count) := by
  simp only [of, advance, mk.injEq, and_true, List.length_drop]
  omega

end Cursor

namespace Decoder

variable {α β : Type}

theorem run_take {count : Nat} {input : List UInt8} (next : List UInt8 → Decoder α) (offset : Nat)
    (log : Array Record) (h : count ≤ input.length) :
    (take count next).run (.of offset input) log =
      (next (input.take count)).run (.of (offset + count) (input.drop count)) log := by
  have hle : count ≤ (Cursor.of offset input).remaining := by simpa using h
  rw [run, if_pos hle, Cursor.advance_of h, Cursor.rest_of]

theorem run_demand {count : Nat} {input : List UInt8} (next : Decoder α) (offset : Nat)
    (log : Array Record) (h : count ≤ input.length) :
    (demand count next).run (.of offset input) log = next.run (.of offset input) log := by
  have hle : count ≤ (Cursor.of offset input).remaining := by simpa using h
  rw [run, if_pos hle]

/-! ## Statements about a plan -/

/-- Wherever `text` starts at `offset`, the plan ends and logs as `outcome` says, whatever follows;
unless it fails, it stops right after `text`. -/
def Decodes (offset : Nat) (plan : Decoder α) (text : List UInt8) (outcome : Logged α) : Prop :=
  ∀ (rest : List UInt8) (log : Array Record),
    let run := plan.run (.of offset (text ++ rest)) log
    run.result = outcome.result ∧ run.log = log ++ outcome.log ∧
      ∀ value, outcome.result = .ok value → run.stop = .of (offset + text.length) rest

variable {offset : Nat} {text : List UInt8} {outcome : Logged α}

theorem decodes_done (offset : Nat) (value : α) : Decodes offset (done value) [] (pure value) := by
  intro rest log
  simp [run]

theorem decodes_ofExcept {ε : Type} (offset : Nat) (cause : ε → DecodeError) (result : Except ε α) :
    Decodes offset (ofExcept cause result) [] (.ofExcept cause result) := by
  intro rest log
  cases result <;> simp [ofExcept, run, Logged.ofExcept]

theorem decodes_take (next : List UInt8 → Decoder α) (bytes : List UInt8)
    (h : Decodes (offset + bytes.length) (next bytes) text outcome) :
    Decodes offset (take bytes.length next) (bytes ++ text) outcome := by
  intro rest log
  have hle : bytes.length ≤ (bytes ++ (text ++ rest)).length := by simp
  rw [List.append_assoc, run_take next offset log hle, List.take_left, List.drop_left]
  simpa [Nat.add_assoc] using h rest log

theorem decodes_demand {count : Nat} {next : Decoder α} (hle : count ≤ text.length)
    (h : Decodes offset next text outcome) : Decodes offset (demand count next) text outcome := by
  intro rest log
  have hle' : count ≤ (text ++ rest).length := by
    rw [List.length_append]
    omega
  rw [run_demand next offset log hle']
  exact h rest log

theorem decodes_require_bind {count : Nat} {plan : Decoder α} (hle : count ≤ text.length)
    (h : Decodes offset plan text outcome) :
    Decodes offset (require count >>= fun _ => plan) text outcome :=
  decodes_demand hle h

theorem decodes_position (offset : Nat) : Decodes offset position [] (pure offset) := by
  intro rest log
  simp [position, run]

theorem decodes_log (offset : Nat) (record : Record) :
    Decodes offset (log record) [] (.note record) := by
  intro rest before
  simp [log, run, Logged.note]

/-- Plans in sequence: the second one starts where the first one stopped. -/
theorem Decodes.bind {plan : Decoder α} {f : α → Decoder β} {second : List UInt8}
    {next : α → Logged β} (h : Decodes offset plan text outcome)
    (hf : ∀ value, outcome.result = .ok value →
      Decodes (offset + text.length) (f value) second (next value)) :
    Decodes offset (plan >>= f) (text ++ second) (outcome >>= next) := by
  intro rest log
  obtain ⟨hresult, hlog, hstop⟩ := h (second ++ rest) log
  simp only [List.append_assoc, run_bind, resume, hresult, Logged.bind_eq, Logged.bind]
  cases hvalue : outcome.result with
  | error error => simp [hlog]
  | ok value =>
    obtain ⟨hresult', hlog', hstop'⟩ := hf value hvalue rest (log ++ outcome.log)
    simp only [hstop value hvalue, hlog]
    refine ⟨hresult', by simp [hlog'], fun value' hvalue' => ?_⟩
    simpa [Nat.add_assoc] using hstop' value' hvalue'

/-- The same where the first plan ends with a value and logs nothing. -/
theorem Decodes.bind_pure {plan : Decoder α} {f : α → Decoder β} {value : α} {second : List UInt8}
    {next : Logged β} (h : Decodes offset plan text (pure value))
    (hf : Decodes (offset + text.length) (f value) second next) :
    Decodes offset (plan >>= f) (text ++ second) next := by
  have hbind : Decodes offset (plan >>= f) (text ++ second) (pure value >>= fun _ => next) := by
    refine h.bind fun value' hvalue' => ?_
    obtain rfl : value = value' := by simpa using hvalue'
    exact hf
  simpa using hbind

/-- The same where the second plan takes nothing. -/
theorem Decodes.bind_nil {plan : Decoder α} {f : α → Decoder β} {next : α → Logged β}
    (h : Decodes offset plan text outcome)
    (hf : ∀ value, outcome.result = .ok value →
      Decodes (offset + text.length) (f value) [] (next value)) :
    Decodes offset (plan >>= f) text (outcome >>= next) := by
  simpa using h.bind hf

theorem Decodes.bind_pure_nil {plan : Decoder α} {f : α → Decoder β} {value : α} {next : Logged β}
    (h : Decodes offset plan text (pure value))
    (hf : Decodes (offset + text.length) (f value) [] next) :
    Decodes offset (plan >>= f) text next := by
  simpa using h.bind_pure hf

theorem decodes_ofExcept_bind {ε : Type} {cause : ε → DecodeError} {result : Except ε α}
    {f : α → Decoder β} {next : α → Logged β}
    (hf : ∀ value, result = .ok value → Decodes offset (f value) text (next value)) :
    Decodes offset (ofExcept cause result >>= f) text (.ofExcept cause result >>= next) := by
  refine (decodes_ofExcept offset cause result).bind fun value hvalue => hf value ?_
  exact Logged.result_ofExcept_eq_ok_iff.mp hvalue

theorem decodes_log_bind {record : Record} {plan : Decoder α}
    (h : Decodes offset plan text outcome) :
    Decodes offset (log record >>= fun _ => plan) text (.note record >>= fun _ => outcome) :=
  (decodes_log offset record).bind fun _ _ => h

theorem decodes_ite_log {condition : Prop} [Decidable condition] {record : Record}
    {plan : Decoder α} (h : Decodes offset plan text outcome) :
    Decodes offset (if condition then log record >>= fun _ => plan else plan) text
      (.noteIf condition record >>= fun _ => outcome) := by
  unfold Logged.noteIf
  split
  · exact decodes_log_bind h
  · simpa using h

theorem decodes_position_bind {f : Nat → Decoder α} (place : Nat) (hplace : offset = place)
    (h : Decodes offset (f place) text outcome) : Decodes offset (position >>= f) text outcome := by
  subst hplace
  exact (decodes_position offset).bind_pure h

/-! ## Loops -/

theorem decodes_iterate {σ ι : Type} {step : σ → Decoder σ} {spell : ι → List UInt8}
    {update : σ → ι → Logged σ} (items : List ι)
    (h : ∀ item ∈ items, ∀ offset state,
      Decodes offset (step state) (spell item) (update state item)) (offset : Nat) (state : σ) :
    Decodes offset (iterate step items.length state) (items.flatMap spell)
      (items.foldlM update state) := by
  induction items generalizing offset state with
  | nil => exact decodes_done offset state
  | cons item items ih =>
    rw [List.flatMap_cons, List.foldlM_cons]
    refine (h item (List.mem_cons_self) offset state).bind fun state' _ => ?_
    exact ih (fun item' hmem => h item' (List.mem_cons_of_mem item hmem)) _ state'

/-- The items from a given index on, each by its own. -/
theorem decodes_collectOnto {ι : Type} {item : Nat → Decoder α} {spell : ι → List UInt8}
    {meaning : ι → Nat → Logged α} (items : List ι) (index : Nat)
    (h : ∀ entry i, (entry, i) ∈ items.zipIdx index → ∀ offset,
      Decodes offset (item i) (spell entry) (meaning entry i)) (offset : Nat) (read : List α) :
    Decodes offset (collectOnto item items.length index read) (items.flatMap spell)
      ((items.zipIdx index).mapM (fun entry => meaning entry.1 entry.2) >>= fun values =>
        pure (read.reverse ++ values)) := by
  induction items generalizing offset index read with
  | nil => simpa [collectOnto] using decodes_done offset read.reverse
  | cons first items ih =>
    rw [List.zipIdx_cons] at h ⊢
    rw [List.flatMap_cons, List.mapM_cons, LawfulMonad.bind_assoc]
    refine (h first index List.mem_cons_self offset).bind fun value _ => ?_
    have htail := ih (index + 1) (fun entry i hmem => h entry i (List.mem_cons_of_mem _ hmem))
      (offset + (spell first).length) (value :: read)
    simpa using htail

theorem decodes_collect {ι : Type} {item : Nat → Decoder α} {spell : ι → List UInt8}
    {meaning : ι → Nat → Logged α} (items : List ι)
    (h : ∀ entry i, (entry, i) ∈ items.zipIdx → ∀ offset,
      Decodes offset (item i) (spell entry) (meaning entry i)) (offset : Nat) :
    Decodes offset (collect item items.length) (items.flatMap spell)
      (items.zipIdx.mapM fun entry => meaning entry.1 entry.2) := by
  simpa [collect] using decodes_collectOnto items 0 h offset []

/-! ## Words -/

def spell8 (word : UInt8) : List UInt8 := toBigEndian 1 word.toNat

def spell16 (word : UInt16) : List UInt8 := toBigEndian 2 word.toNat

def spell32 (word : UInt32) : List UInt8 := toBigEndian 4 word.toNat

def spell64 (word : UInt64) : List UInt8 := toBigEndian 8 word.toNat

@[simp] theorem length_spell8 (word : UInt8) : (spell8 word).length = 1 := length_toBigEndian ..

@[simp] theorem length_spell16 (word : UInt16) : (spell16 word).length = 2 := length_toBigEndian ..

@[simp] theorem length_spell32 (word : UInt32) : (spell32 word).length = 4 := length_toBigEndian ..

@[simp] theorem length_spell64 (word : UInt64) : (spell64 word).length = 8 := length_toBigEndian ..

theorem decodes_bytes (offset : Nat) (read : List UInt8) :
    Decodes offset (bytes read.length) read (pure read) := by
  have h := decodes_take done read (decodes_done (offset + read.length) read)
  simpa [Decoder.bytes] using h

theorem number_eq (width : Nat) :
    number width = bytes width >>= fun read =>
      if read.length = width then done (bigEndian read) else fail (.io .endOfInput) := rfl

/-- A number that fits its width is read back, whatever is made of it. -/
theorem decodes_map_number {width n : Nat} (offset : Nat) (f : Nat → α) (h : n < 256 ^ width) :
    Decodes offset (f <$> number width) (toBigEndian width n) (pure (f n)) := by
  have hlength := length_toBigEndian width n
  have hbytes := decodes_bytes offset (toBigEndian width n)
  rw [hlength] at hbytes
  rw [map_eq_pure_bind, number_eq, bind_assoc]
  refine hbytes.bind_pure_nil ?_
  rw [if_pos hlength, done_bind, bigEndian_toBigEndian h]
  exact decodes_done _ _

theorem decodes_word8 (offset : Nat) (word : UInt8) :
    Decodes offset word8 (spell8 word) (pure word) := by
  have h : word.toNat < 256 ^ 1 := word.toNat_lt
  simpa [word8, spell8] using decodes_map_number offset UInt8.ofNat h

theorem decodes_word16 (offset : Nat) (word : UInt16) :
    Decodes offset word16 (spell16 word) (pure word) := by
  have h : word.toNat < 256 ^ 2 := word.toNat_lt
  simpa [word16, spell16] using decodes_map_number offset UInt16.ofNat h

theorem decodes_word32 (offset : Nat) (word : UInt32) :
    Decodes offset word32 (spell32 word) (pure word) := by
  have h : word.toNat < 256 ^ 4 := word.toNat_lt
  simpa [word32, spell32] using decodes_map_number offset UInt32.ofNat h

theorem decodes_skip (offset : Nat) (bytes : List UInt8) :
    Decodes offset (skip bytes.length) bytes (pure ()) := by
  have h := decodes_take (fun _ => done ()) bytes (decodes_done (offset + bytes.length) ())
  simpa [skip] using h

/-- Items of one size are passed over together. -/
theorem length_flatMap_of_length {ι : Type} {spell : ι → List UInt8} {size : Nat}
    (h : ∀ item, (spell item).length = size) (items : List ι) :
    (items.flatMap spell).length = size * items.length := by
  induction items with
  | nil => simp
  | cons item items ih =>
    rw [List.flatMap_cons, List.length_append, h, ih, List.length_cons, Nat.mul_succ, Nat.add_comm]

theorem decodes_skip_flatMap {ι : Type} {spell : ι → List UInt8} {size : Nat} (offset : Nat)
    (h : ∀ item, (spell item).length = size) (items : List ι) :
    Decodes offset (skip (size * items.length)) (items.flatMap spell) (pure ()) := by
  rw [← length_flatMap_of_length h]
  exact decodes_skip offset _

end Decoder

end ClassOutline
