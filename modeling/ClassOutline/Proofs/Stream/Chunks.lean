import ClassOutline.Proofs.Image.Bounds
import ClassOutline.Proofs.Image.Signatures

/-!
# Streams and their bytes

How a class file is cut into chunks does not matter, nor how often reading is interrupted, nor what
a stream would give after its end. Steps that let reading go on (`ReadStep.Passes`) only add their
bytes to what is read after them (`readToEnd_append_of_passes`), and the first step that does not
decides how reading ends. Main statement: the positions in a stream are those in the bytes that it
delivers, unless a failure comes before the end, which is then the error (`Positions.read_stream`).
-/

namespace ClassOutline

namespace ReadStep

/-! ## Steps that let reading go on -/

/-- Reading goes on after the step: it delivers some bytes or is tried again. -/
def Passes : ReadStep → Prop
  | chunk bytes => bytes ≠ []
  | failure f => f.kind = .interrupted

instance : (step : ReadStep) → Decidable step.Passes
  | chunk bytes => inferInstanceAs (Decidable (bytes ≠ []))
  | failure f => inferInstanceAs (Decidable (f.kind = .interrupted))

def bytes : ReadStep → List UInt8
  | chunk bytes => bytes
  | failure _ => []

/-- The bytes of the chunks before the first step after which reading does not go on, all chunks if
there is no such step. -/
def delivered (steps : List ReadStep) : List UInt8 :=
  (steps.takeWhile fun step => decide step.Passes).flatMap bytes

/-- The failure `f`, which is no interruption, comes before the end of the stream, and before any
other such failure. -/
def Fails (steps : List ReadStep) (f : IoFailure) : Prop :=
  f.kind ≠ .interrupted ∧ ∃ before after, steps = before ++ failure f :: after ∧
    ∀ step ∈ before, step.Passes

variable {step : ReadStep} {steps before middle middle' after after' : List ReadStep}
  {f : IoFailure}

/-- A step after which reading goes on adds its bytes to what is read afterwards. -/
theorem readToEnd_cons_of_passes (h : step.Passes) (steps : List ReadStep) :
    readToEnd (step :: steps) = (readToEnd steps).map (step.bytes ++ ·) := by
  cases step with
  | chunk bytes =>
    obtain ⟨byte, rest, rfl⟩ := List.exists_cons_of_ne_nil h
    rfl
  | failure f =>
    have hkind : f.kind = .interrupted := h
    rw [readToEnd, if_pos hkind]
    cases readToEnd steps <;> rfl

/-- Steps after which reading goes on add their bytes, and nothing else. -/
theorem readToEnd_append_of_passes (h : ∀ step ∈ before, step.Passes) (after : List ReadStep) :
    readToEnd (before ++ after) = (readToEnd after).map (before.flatMap bytes ++ ·) := by
  induction before with
  | nil =>
    rw [List.nil_append]
    cases readToEnd after <;> rfl
  | cons step before ih =>
    obtain ⟨hstep, hbefore⟩ := List.forall_mem_cons.mp h
    rw [List.cons_append, readToEnd_cons_of_passes hstep, ih hbefore]
    cases readToEnd after <;> simp [Except.map]

/-! ## How reading ends -/

/-- What comes after a step after which reading does not go on is not looked at. -/
theorem readToEnd_cons_of_not_passes (h : ¬step.Passes) (steps : List ReadStep) :
    readToEnd (step :: steps) = readToEnd [step] := by
  cases step with
  | chunk bytes =>
    obtain rfl : bytes = [] := Decidable.not_not.mp h
    rfl
  | failure f =>
    have hkind : f.kind ≠ .interrupted := h
    rw [readToEnd, readToEnd, if_neg hkind, if_neg hkind]

/-- The first failure that is no interruption is how reading ends. -/
theorem Fails.readToEnd_eq (h : Fails steps f) : readToEnd steps = .error f := by
  obtain ⟨hkind, before, after, rfl, hbefore⟩ := h
  rw [readToEnd_append_of_passes hbefore, readToEnd, if_neg hkind, Except.map]

theorem Fails.cons_of_passes (hstep : step.Passes) (h : Fails steps f) :
    Fails (step :: steps) f := by
  obtain ⟨hkind, before, after, rfl, hbefore⟩ := h
  exact ⟨hkind, step :: before, after, rfl, List.forall_mem_cons.mpr ⟨hstep, hbefore⟩⟩

/-- Without such a failure, everything that was delivered is read. -/
theorem readToEnd_eq_of_not_fails (h : ∀ f, ¬Fails steps f) :
    readToEnd steps = .ok (delivered steps) := by
  induction steps with
  | nil => rfl
  | cons step steps ih =>
    by_cases hstep : step.Passes
    · have hrest := ih fun f hf => h f (hf.cons_of_passes hstep)
      rw [readToEnd_cons_of_passes hstep, hrest]
      simp [delivered, hstep, Except.map]
    · cases step with
      | chunk bytes =>
        obtain rfl : bytes = [] := Decidable.not_not.mp hstep
        simp [delivered, hstep, readToEnd]
      | failure f => exact absurd ⟨hstep, [], steps, rfl, by simp⟩ (h f)

/-! ## Changes that do not matter -/

/-- What is read after some steps decides, whatever those are. -/
theorem readToEnd_append_congr (before : List ReadStep) (h : readToEnd after = readToEnd after') :
    readToEnd (before ++ after) = readToEnd (before ++ after') := by
  induction before with
  | nil => exact h
  | cons step before ih =>
    rw [List.cons_append, List.cons_append]
    by_cases hstep : step.Passes
    · rw [readToEnd_cons_of_passes hstep, readToEnd_cons_of_passes hstep, ih]
    · rw [readToEnd_cons_of_not_passes hstep, readToEnd_cons_of_not_passes hstep (before ++ after')]

/-- Only the bytes of steps that let reading go on count: neither how they are cut into chunks, nor
the interruptions between them. -/
theorem readToEnd_replace (before after : List ReadStep) (h : ∀ step ∈ middle, step.Passes)
    (h' : ∀ step ∈ middle', step.Passes) (hbytes : middle.flatMap bytes = middle'.flatMap bytes) :
    readToEnd (before ++ (middle ++ after)) = readToEnd (before ++ (middle' ++ after)) := by
  apply readToEnd_append_congr
  rw [readToEnd_append_of_passes h, readToEnd_append_of_passes h', hbytes]

end ReadStep

/-! ## Positions from a stream -/

namespace Positions

open ReadStep (Passes Fails delivered readToEnd)
open Outline (overloads)

variable {steps steps' : List ReadStep} {f : IoFailure} {error : DecodeError}

theorem read_eq (steps : List ReadStep) :
    read steps =
      match readToEnd steps with
      | .error f => ⟨.error (.io f), #[]⟩
      | .ok bytes => decode bytes := by
  rw [read, ReadStep.readOnto_eq]
  cases readToEnd steps <;> rfl

theorem read_congr (h : readToEnd steps = readToEnd steps') : read steps = read steps' := by
  rw [read_eq, read_eq, h]

theorem read_of_fails (h : Fails steps f) : read steps = ⟨.error (.io f), #[]⟩ := by
  rw [read_eq, h.readToEnd_eq]

theorem read_of_not_fails (h : ∀ f, ¬Fails steps f) : read steps = decode (delivered steps) := by
  rw [read_eq, ReadStep.readToEnd_eq_of_not_fails h]

/-- Decoding never tells of a reader, so only a failure before the end of the stream can. -/
theorem kind_eq_io_iff (h : (read steps).result = .error error) :
    error.kind = .io ↔ ∃ f, Fails steps f ∧ f.kind ≠ .unexpectedEof ∧ error = .io f := by
  constructor
  · intro hkind
    by_cases hfails : ∃ f, Fails steps f
    · obtain ⟨f, hf⟩ := hfails
      rw [read_of_fails hf, Except.error.injEq] at h
      subst h
      refine ⟨f, hf, ?_, rfl⟩
      intro heof
      simp [DecodeError.kind, heof] at hkind
    · rw [read_of_not_fails (not_exists.mp hfails), result_decode_eq_error_iff] at h
      rcases Outline.kind_of_result_decode h with hformat | ⟨place, needed, remaining, rfl⟩
      · rw [hformat] at hkind
        cases hkind
      · cases hkind
  · rintro ⟨f, -, heof, rfl⟩
    simp [DecodeError.kind, heof]

/-- Five facts about streams. Where a failure that is no interruption comes before the end, the
first one is the error, whatever was delivered before it. Where none does, the positions and the log
are those of the bytes delivered before the end. Anywhere in a stream, steps after which reading
goes on can be replaced by other such steps with the same bytes. What comes after the end, or after
a failure, does not matter. An error tells of a reader exactly if a failure came before the end, and
not one that tells of missing bytes. -/
theorem read_stream :
    (∀ steps f, Fails steps f → read steps = ⟨.error (.io f), #[]⟩) ∧
    (∀ steps, (∀ f, ¬Fails steps f) → read steps = decode (delivered steps)) ∧
    (∀ before middle middle' after : List ReadStep,
      (∀ step ∈ middle, step.Passes) → (∀ step ∈ middle', step.Passes) →
      middle.flatMap ReadStep.bytes = middle'.flatMap ReadStep.bytes →
        read (before ++ (middle ++ after)) = read (before ++ (middle' ++ after))) ∧
    (∀ (before : List ReadStep) (last : ReadStep) (after after' : List ReadStep), ¬last.Passes →
      read (before ++ last :: after) = read (before ++ last :: after')) ∧
    ∀ steps error, (read steps).result = .error error →
      (error.kind = .io ↔ ∃ f, Fails steps f ∧ f.kind ≠ .unexpectedEof ∧ error = .io f) := by
  refine ⟨fun _ _ h => read_of_fails h, fun _ h => read_of_not_fails h, ?_, ?_,
    fun _ _ h => kind_eq_io_iff h⟩
  · intro before middle middle' after h h' hbytes
    exact read_congr (ReadStep.readToEnd_replace before after h h' hbytes)
  · intro before last after after' hlast
    apply read_congr
    apply ReadStep.readToEnd_append_congr
    rw [ReadStep.readToEnd_cons_of_not_passes hlast after,
      ReadStep.readToEnd_cons_of_not_passes hlast after']

def interruption : IoFailure := ⟨.interrupted, "interrupted"⟩

def cutOff : IoFailure := ⟨.brokenPipe, "broken pipe"⟩

/-- A complete class file is decoded although it comes in two chunks with an interruption between
them and a failure after the end; and not decoded if it is only followed by the failure. -/
theorem read_stream_overloads :
    read [.chunk (overloads.take 3), .failure interruption, .chunk (overloads.drop 3), .chunk [],
      .failure cutOff] = decode overloads ∧
    read [.chunk overloads, .failure cutOff] = ⟨.error (.io cutOff), #[]⟩ ∧
    (decode overloads).result.toOption.map Std.TreeMap.toList =
      some [("void f()", .absent), ("void f(a.b)", .absent)] := by
  obtain ⟨hfails, -, hreplace, hafter, -⟩ := read_stream
  refine ⟨?_, ?_, by decide +kernel⟩
  · calc read [.chunk (overloads.take 3), .failure interruption, .chunk (overloads.drop 3),
          .chunk [], .failure cutOff]
      _ = read [.chunk overloads, .chunk [], .failure cutOff] :=
        hreplace [] [.chunk (overloads.take 3), .failure interruption, .chunk (overloads.drop 3)]
          [.chunk overloads] [.chunk [], .failure cutOff] (by decide) (by decide) (by decide)
      _ = read [.chunk overloads, .chunk []] :=
        hafter [.chunk overloads] (.chunk []) [.failure cutOff] [] (by decide)
      _ = decode overloads := rfl
  · exact hfails _ cutOff ⟨by decide, [.chunk overloads], [], rfl, by decide⟩

end Positions

end ClassOutline
