import ClassOutline.Outline.Decode

/-!
# Outcomes in sequence

An outcome is a result with its records (`Logged`). Outcomes follow each other like the plans that
they describe: the records of the first one come first, and an error ends all. When a sequence or a
loop of outcomes has a value (`result_bind_eq_ok_iff`, `result_mapM_eq_ok_iff`,
`result_foldlM_eq_ok_iff`), what its records then are (`Reports`), and when two of them have the
same result.
-/

namespace ClassOutline

/-! ## Results -/

section Results

variable {ε α β : Type} {result : Except ε α} {f : α → β}

theorem map_eq_ok_iff {value : β} :
    result.map f = .ok value ↔ ∃ found, result = .ok found ∧ f found = value := by
  cases result <;> simp [Except.map]

theorem map_eq_error_iff {error : ε} : result.map f = .error error ↔ result = .error error := by
  cases result <;> simp [Except.map]

end Results

namespace Logged

variable {α β : Type}

/-! ## Sequences -/

/-- The first outcome, and where it has a value the second one for it; records follow records. -/
protected def bind (first : Logged α) (f : α → Logged β) : Logged β :=
  match first.result with
  | .ok value => ⟨(f value).result, first.log ++ (f value).log⟩
  | .error error => ⟨.error error, first.log⟩

instance : Monad Logged where
  pure value := ⟨.ok value, #[]⟩
  bind := Logged.bind

def note (record : Record) : Logged Unit := ⟨.ok (), #[record]⟩

def noteIf (condition : Prop) [Decidable condition] (record : Record) : Logged Unit :=
  if condition then note record else pure ()

def ofExcept {ε : Type} (cause : ε → DecodeError) : Except ε α → Logged α
  | .ok value => pure value
  | .error error => ⟨.error (cause error), #[]⟩

theorem bind_eq (first : Logged α) (f : α → Logged β) : first >>= f = first.bind f := rfl

@[simp] theorem result_pure (value : α) : (pure value : Logged α).result = .ok value := rfl

@[simp] theorem log_pure (value : α) : (pure value : Logged α).log = #[] := rfl

@[simp] theorem result_note (record : Record) : (note record).result = .ok () := rfl

@[simp] theorem result_noteIf (condition : Prop) [Decidable condition] (record : Record) :
    (noteIf condition record).result = .ok () := by
  unfold noteIf
  split <;> rfl

instance : LawfulMonad Logged :=
  LawfulMonad.mk' Logged
    (fun outcome => by
      obtain ⟨result, log⟩ := outcome
      cases result <;> simp [Functor.map, Logged.bind])
    (fun value f => by simp [bind, pure, Logged.bind])
    (fun outcome f g => by
      obtain ⟨result, log⟩ := outcome
      cases result with
      | error error => rfl
      | ok value =>
        simp only [bind, Logged.bind]
        cases (f value).result <;> simp)

/-! ## When there is a value -/

theorem result_ofExcept_eq_ok_iff {ε : Type} {cause : ε → DecodeError} {result : Except ε α}
    {value : α} : (ofExcept cause result).result = .ok value ↔ result = .ok value := by
  cases result <;> simp [ofExcept]

/-- Outcomes in sequence have a value where both have one. -/
theorem result_bind_eq_ok_iff {first : Logged α} {f : α → Logged β} {value : β} :
    (first >>= f).result = .ok value ↔
      ∃ middle, first.result = .ok middle ∧ (f middle).result = .ok value := by
  rw [bind_eq, Logged.bind]
  cases first.result <;> simp

/-- A loop over items has values where every item has one. -/
theorem result_mapM_eq_ok_iff {ι : Type} {f : ι → Logged α} {p : ι → Prop} {meaning : ι → α}
    {items : List ι} (h : ∀ item ∈ items, ∀ value,
      (f item).result = .ok value ↔ p item ∧ value = meaning item) {values : List α} :
    (items.mapM f).result = .ok values ↔ (∀ item ∈ items, p item) ∧ values = items.map meaning := by
  induction items generalizing values with
  | nil => simp [eq_comm]
  | cons item items ih =>
    obtain ⟨hitem, hitems⟩ := List.forall_mem_cons.mp h
    simp only [List.mapM_cons, result_bind_eq_ok_iff, hitem, ih hitems, result_pure, List.map_cons,
      List.forall_mem_cons]
    constructor
    · rintro ⟨_, ⟨hp, rfl⟩, _, ⟨hall, rfl⟩, hvalues⟩
      exact ⟨⟨hp, hall⟩, (Except.ok.inj hvalues).symm⟩
    · rintro ⟨⟨hp, hall⟩, rfl⟩
      exact ⟨_, ⟨hp, rfl⟩, _, ⟨hall, rfl⟩, rfl⟩

/-- A loop in which an item replaces the state or leaves it: the last replacement counts. -/
theorem result_foldlM_eq_ok_iff {σ ι : Type} {update : σ → ι → Logged σ} {p : ι → Prop}
    {pick : ι → Option σ} {items : List ι} (h : ∀ item ∈ items, ∀ state state',
      (update state item).result = .ok state' ↔ p item ∧ state' = (pick item).getD state)
    {state state' : σ} :
    (items.foldlM update state).result = .ok state' ↔
      (∀ item ∈ items, p item) ∧ state' = (items.filterMap pick).getLast?.getD state := by
  induction items generalizing state with
  | nil => simp [eq_comm]
  | cons item items ih =>
    obtain ⟨hitem, hitems⟩ := List.forall_mem_cons.mp h
    have hlast : (items.filterMap pick).getLast?.getD ((pick item).getD state) =
        ((item :: items).filterMap pick).getLast?.getD state := by
      rw [List.filterMap_cons]
      cases pick item with
      | none => rfl
      | some value => rw [List.getLast?_cons, Option.getD_some, Option.getD_some]
    simp only [List.foldlM_cons, result_bind_eq_ok_iff, hitem, ih hitems, List.forall_mem_cons,
      ← hlast]
    constructor
    · rintro ⟨_, ⟨hp, rfl⟩, hall, rfl⟩
      exact ⟨⟨hp, hall⟩, rfl⟩
    · rintro ⟨⟨hp, hall⟩, rfl⟩
      exact ⟨_, ⟨hp, rfl⟩, hall, rfl⟩

/-! ## What is logged where there is a value -/

/-- If the outcome has a value, its records are these, each with its level. -/
def Reports (outcome : Logged α) (report : List (Level × Record)) : Prop :=
  ∀ value, outcome.result = .ok value →
    outcome.log.toList.map (fun record => (record.level, record)) = report

theorem reports_pure (value : α) : (pure value : Logged α).Reports [] := fun _ _ => rfl

theorem reports_note (record : Record) : (note record).Reports [(record.level, record)] :=
  fun _ _ => rfl

theorem reports_noteIf (condition : Prop) [Decidable condition] (record : Record) :
    (noteIf condition record).Reports (if condition then [(record.level, record)] else []) := by
  rw [noteIf]
  split
  · exact reports_note record
  · exact reports_pure ()

theorem reports_ofExcept {ε : Type} (cause : ε → DecodeError) (result : Except ε α) :
    (ofExcept cause result).Reports [] := by
  cases result with
  | ok value => exact reports_pure value
  | error error => exact fun _ _ => rfl

/-- What is reported in sequence is reported one after the other. -/
theorem Reports.bind {first : Logged α} {f : α → Logged β} {report report' : List (Level × Record)}
    (h : first.Reports report)
    (hf : ∀ value, first.result = .ok value → (f value).Reports report') :
    (first >>= f).Reports (report ++ report') := by
  intro value hvalue
  obtain ⟨middle, hmiddle, hrest⟩ := result_bind_eq_ok_iff.mp hvalue
  rw [← h middle hmiddle, ← hf middle hmiddle value hrest, bind_eq, Logged.bind, hmiddle,
    Array.toList_append, List.map_append]

theorem Reports.bind_nil {first : Logged α} {f : α → Logged β} {report : List (Level × Record)}
    (h : first.Reports []) (hf : ∀ value, first.result = .ok value → (f value).Reports report) :
    (first >>= f).Reports report :=
  h.bind hf

theorem Reports.bind_pure {first : Logged α} {report : List (Level × Record)}
    (h : first.Reports report) (f : α → β) :
    (first >>= fun value => pure (f value)).Reports report := by
  simpa using h.bind fun value _ => reports_pure (f value)

/-- A loop over items reports what each of them reports. -/
theorem Reports.mapM {ι : Type} {f : ι → Logged α} {report : ι → List (Level × Record)}
    {items : List ι} (h : ∀ item ∈ items, (f item).Reports (report item)) :
    (items.mapM f).Reports (items.flatMap report) := by
  induction items with
  | nil => exact reports_pure []
  | cons item items ih =>
    obtain ⟨hitem, hitems⟩ := List.forall_mem_cons.mp h
    rw [List.mapM_cons, List.flatMap_cons]
    exact hitem.bind fun value _ => (ih hitems).bind_pure (value :: ·)

/-- A loop that updates a state reports what each step reports, whatever the state. -/
theorem Reports.foldlM {σ ι : Type} {update : σ → ι → Logged σ}
    {report : ι → List (Level × Record)} {items : List ι}
    (h : ∀ item ∈ items, ∀ state, (update state item).Reports (report item)) (state : σ) :
    (items.foldlM update state).Reports (items.flatMap report) := by
  induction items generalizing state with
  | nil => exact reports_pure state
  | cons item items ih =>
    obtain ⟨hitem, hitems⟩ := List.forall_mem_cons.mp h
    rw [List.foldlM_cons, List.flatMap_cons]
    exact (hitem state).bind fun state _ => ih hitems state

/-! ## Results that correspond -/

/-- Outcomes in sequence whose values correspond step by step. -/
theorem result_bind_map {γ δ : Type} {first : Logged γ} {first' : Logged α} {f : γ → Logged δ}
    {f' : α → Logged β} {change : α → γ} {change' : β → δ}
    (h : first.result = first'.result.map change)
    (hf : ∀ value, (f (change value)).result = (f' value).result.map change') :
    (first >>= f).result = (first' >>= f').result.map change' := by
  rw [bind_eq, bind_eq, Logged.bind, Logged.bind, h]
  cases first'.result with
  | error error => rfl
  | ok value => exact hf value

theorem result_bind_map_right {first first' : Logged α} {f f' : α → Logged β} {change : β → β}
    (h : first.result = first'.result)
    (hf : ∀ value, (f value).result = (f' value).result.map change) :
    (first >>= f).result = (first' >>= f').result.map change := by
  refine result_bind_map ?_ hf
  rw [h]
  cases first'.result <;> rfl

theorem result_bind_congr {first first' : Logged α} {f f' : α → Logged β}
    (h : first.result = first'.result) (hf : ∀ value, (f value).result = (f' value).result) :
    (first >>= f).result = (first' >>= f').result := by
  rw [bind_eq, bind_eq, Logged.bind, Logged.bind, h]
  cases first'.result with
  | error error => rfl
  | ok value => exact hf value

theorem result_foldlM_map_congr {σ ι : Type} {update update' : σ → ι → Logged σ} {change : ι → ι}
    (h : ∀ item state, (update state (change item)).result = (update' state item).result)
    (items : List ι) (state : σ) :
    ((items.map change).foldlM update state).result = (items.foldlM update' state).result := by
  induction items generalizing state with
  | nil => rfl
  | cons item items ih =>
    rw [List.map_cons, List.foldlM_cons, List.foldlM_cons]
    exact result_bind_congr (h item state) ih

theorem result_mapM_map_congr {ι κ : Type} {f : κ → Logged α} {f' : ι → Logged α} {change : ι → κ}
    (h : ∀ item, (f (change item)).result = (f' item).result) (items : List ι) :
    ((items.map change).mapM f).result = (items.mapM f').result := by
  induction items with
  | nil => rfl
  | cons item items ih =>
    rw [List.map_cons, List.mapM_cons, List.mapM_cons]
    exact result_bind_congr (h item) fun _ => result_bind_congr ih fun _ => rfl

/-- A change of one item shows in its value, and in nothing else. -/
theorem result_mapM_modify {ι : Type} (meaning : ι → Nat → Logged α) {change : ι → ι}
    {change' : α → α} (h : ∀ item index,
      (meaning (change item) index).result = (meaning item index).result.map change')
    (items : List ι) (place start : Nat) :
    (((items.modify place change).zipIdx start).mapM fun entry => meaning entry.1 entry.2).result =
      ((items.zipIdx start).mapM fun entry => meaning entry.1 entry.2).result.map
        (·.modify place change') := by
  induction items generalizing place start with
  | nil => cases place <;> rfl
  | cons item items ih =>
    cases place with
    | zero =>
      rw [List.modify_zero_cons, List.zipIdx_cons, List.zipIdx_cons, List.mapM_cons, List.mapM_cons]
      refine result_bind_map (h item start) fun value => ?_
      exact result_bind_map_right rfl fun values => rfl
    | succ place =>
      rw [List.modify_succ_cons, List.zipIdx_cons, List.zipIdx_cons, List.mapM_cons, List.mapM_cons]
      refine result_bind_map_right rfl fun value => ?_
      exact result_bind_map (ih place (start + 1)) fun values => rfl

end Logged

end ClassOutline
