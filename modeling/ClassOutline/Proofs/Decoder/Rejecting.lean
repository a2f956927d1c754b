import ClassOutline.Proofs.Decoder.Accepting
import ClassOutline.Proofs.Decoder.Extending

/-!
# What a decoder has come upon when it fails

A statement `Rejects plan post` looks back from an error other than that the input is too short: the
error and the input are as `post` says. It is the counterpart of `Accepts`, and the rule for plans
in sequence needs both, since the second plan fails on what the first one has left.
-/

namespace ClassOutline.Decoder

variable {α β : Type}

/-- Whenever the plan ends with an error, and not because the input is too short, `post` relates the
error to the input. -/
def Rejects (plan : Decoder α) (post : DecodeError → List UInt8 → Prop) : Prop :=
  ∀ (offset : Nat) (input : List UInt8) (log : Array Record) (error : DecodeError),
    (plan.run (.of offset input) log).result = .error error →
      ¬Truncated (plan.run (.of offset input) log).result → post error input

/-- The plan fails only where its input is too short. -/
def Total (plan : Decoder α) : Prop :=
  Rejects plan fun _ _ => False

variable {plan : Decoder α} {accepted : α → List UInt8 → Prop}
  {post : DecodeError → List UInt8 → Prop}

theorem Rejects.mono {post' : DecodeError → List UInt8 → Prop} (h : Rejects plan post)
    (himp : ∀ error input, post error input → post' error input) : Rejects plan post' := by
  intro offset input log error herror hlong
  exact himp error input (h offset input log error herror hlong)

theorem Total.rejects (h : Total plan) (post : DecodeError → List UInt8 → Prop) :
    Rejects plan post :=
  h.mono fun _ _ hfalse => hfalse.elim

/-- An error of two plans in sequence is one of the first, or of the second on what is left. -/
theorem Rejects.bind {f : α → Decoder β} (h : Rejects plan post) (haccepts : Accepts plan accepted)
    (hf : ∀ value text, accepted value text →
      Rejects (f value) fun error rest => post error (text ++ rest)) :
    Rejects (plan >>= f) post := by
  intro offset input log error herror hlong
  rw [run_bind] at herror hlong
  unfold resume at herror hlong
  cases hresult : (plan.run (.of offset input) log).result with
  | error error' =>
    simp only [hresult] at herror hlong
    obtain rfl : error' = error := Except.error.inj herror
    refine h offset input log error' hresult ?_
    rintro ⟨place, needed, remaining, htruncated⟩
    rw [hresult, Except.error.injEq] at htruncated
    exact hlong ⟨place, needed, remaining, by rw [htruncated]⟩
  | ok value =>
    obtain ⟨text, rest, rfl, hstop, hvalue⟩ := haccepts offset input log value hresult
    simp only [hresult, hstop] at herror hlong
    exact hf value text hvalue _ rest _ error herror hlong

/-- The first plan may fail only where its input is too short. -/
theorem Total.bind {f : α → Decoder β} (h : Total plan) (haccepts : Accepts plan accepted)
    (hf : ∀ value text, accepted value text →
      Rejects (f value) fun error rest => post error (text ++ rest)) : Rejects (plan >>= f) post :=
  (h.rejects post).bind haccepts hf

/-! ## Requests -/

theorem total_done (value : α) : Total (done value) := by
  intro offset input log error herror
  simp [run] at herror

theorem rejects_fail (error : DecodeError) :
    Rejects (fail error : Decoder α) fun error' _ => error' = error := by
  intro offset input log error' herror _
  exact (Except.error.inj herror).symm

theorem rejects_ofExcept {ε : Type} (cause : ε → DecodeError) (result : Except ε α) :
    Rejects (ofExcept cause result) fun error _ => ∃ e, result = .error e ∧ error = cause e := by
  cases result with
  | ok value => exact (total_done value).rejects _
  | error e =>
    refine (rejects_fail (cause e)).mono ?_
    rintro _ _ rfl
    exact ⟨e, rfl, rfl⟩

theorem total_bytes (count : Nat) : Total (bytes count) := by
  intro offset input log error herror hlong
  rw [bytes] at herror hlong
  by_cases hle : count ≤ input.length
  · rw [run_take done offset log hle] at herror
    simp [run] at herror
  · exact hlong (truncated_take done offset log (by omega))

theorem total_skip (count : Nat) : Total (skip count) := by
  have hplan : skip count = bytes count >>= fun _ => done () := rfl
  rw [hplan]
  exact (total_bytes count).bind (accepts_take count) fun _ _ _ => total_done ()

theorem total_require (count : Nat) : Total (require count) := by
  intro offset input log error herror hlong
  rw [require] at herror hlong
  by_cases hle : count ≤ input.length
  · rw [run_demand _ offset log hle] at herror
    simp [run] at herror
  · exact hlong (truncated_demand _ offset log (by omega))

/-! ## Words -/

theorem total_map_number (width : Nat) (f : Nat → α) : Total (f <$> number width) := by
  rw [map_eq_pure_bind, number_eq, bind_assoc]
  refine (total_bytes width).bind (accepts_take width) fun read _ hread => ?_
  rw [if_pos hread.2, done_bind]
  exact total_done _

theorem total_word8 : Total word8 := total_map_number 1 _

theorem total_word16 : Total word16 := total_map_number 2 _

end ClassOutline.Decoder
