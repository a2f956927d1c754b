import ClassOutline.Directory
import ClassOutline.Proofs.CommandLine.Logger
import ClassOutline.Proofs.Image.Signatures
import ClassOutline.Proofs.Outline.Listing

/-!
# Runs over several files

What a step of the loop adds does not depend on where the loop stands (`CommandLine.step_eq`), so a
run prints what it would print for each of its files alone, one after the other, logs what it would
log, and fails if it would for one of them (`CommandLine.finalState_append`). For one file it either
prints the block of the class and logs no error, or prints nothing and logs one error. Main
statement: `CommandLine.run_files`.
-/

namespace ClassOutline

namespace CommandLine

variable {files : FileSystem} {path : String} {opened : Except IoFailure (List ReadStep)}
  {logger : Logger} {outline : Outline} {error : DecodeError} {positions : Positions}

/-! ## States in sequence -/

namespace State

/-- One run after another. -/
def append (first second : State) : State where
  printed := first.printed ++ second.printed
  logged := first.logged ++ second.logged
  failed := first.failed || second.failed

instance : Append State := ⟨append⟩

variable {first second third : State}

@[simp] theorem printed_append : (first ++ second).printed = first.printed ++ second.printed := rfl

@[simp] theorem logged_append : (first ++ second).logged = first.logged ++ second.logged := rfl

@[simp] theorem failed_append : (first ++ second).failed = (first.failed || second.failed) := rfl

@[simp] theorem append_initial (state : State) : state ++ initial = state := by
  apply State.ext <;> simp [initial]

theorem append_assoc (first second third : State) :
    first ++ second ++ third = first ++ (second ++ third) := by
  apply State.ext <;> simp [String.append_assoc, Bool.or_assoc]

/-- The exit code is 1 where some file failed. -/
theorem exitCode_eq_one_iff {state : State} :
    (state.transcript logger).exitCode = 1 ↔ state.failed = true := by
  simp only [transcript]
  cases state.failed <;> decide

end State

/-! ## Steps and runs -/

/-- A step adds the same wherever the loop stands. -/
theorem step_eq (path : String) (opened : Except IoFailure (List ReadStep)) (state : State) :
    step path opened state = state ++ step path opened .initial := by
  cases hresult : (readFile opened).result <;>
    apply State.ext <;> simp [step, hresult, State.initial]

theorem foldl_step (files : FileSystem) (paths : List String) (state : State) :
    paths.foldl (fun state path => step path (files path) state) state =
      state ++ finalState files paths := by
  -- `finalState` runs the same loop from the initial state, so the induction is over all starts
  rw [finalState]
  induction paths generalizing state with
  | nil => exact (State.append_initial state).symm
  | cons path paths ih =>
    rw [List.foldl_cons, List.foldl_cons, ih, ih (step _ _ .initial), step_eq, State.append_assoc]

/-- A run over two lists of paths is the one run after the other. -/
theorem finalState_append (files : FileSystem) (paths paths' : List String) :
    finalState files (paths ++ paths') = finalState files paths ++ finalState files paths' := by
  rw [finalState, List.foldl_append, foldl_step]
  rfl

/-- Where errors only are shown, what was shown before makes no difference. -/
theorem stderr_append (hlogger : logger.Faithful) (herrors : logger.ErrorsOnly)
    (files : FileSystem) (paths paths' : List String) :
    (runWith logger files (paths ++ paths')).stderr =
      (runWith logger files paths).stderr ++ (runWith logger files paths').stderr := by
  simp only [runWith, State.transcript, finalState_append, State.logged_append,
    hlogger.written_eq herrors, List.filter_append, List.map_append, String.join_append]

/-! ## One file -/

/-- Opening gave a stream that can be read to its end, and its bytes are a class file with the given
outline. -/
def Decodes (opened : Except IoFailure (List ReadStep)) (outline : Outline) : Prop :=
  ∃ steps bytes, opened = .ok steps ∧ ReadStep.readToEnd steps = .ok bytes ∧
    (Outline.decode bytes).result = .ok outline

/-- Opening failed, or reading what was opened, or decoding what was read. -/
inductive Fails : Except IoFailure (List ReadStep) → DecodeError → Prop
  | unopened (failure : IoFailure) : Fails (.error failure) (.io failure)
  | unread {steps : List ReadStep} {failure : IoFailure} :
    ReadStep.readToEnd steps = .error failure → Fails (.ok steps) (.io failure)
  | undecoded {steps : List ReadStep} {bytes : List UInt8} {error : DecodeError} :
    ReadStep.readToEnd steps = .ok bytes → (Outline.decode bytes).result = .error error →
      Fails (.ok steps) error

theorem result_readFile_of_decodes (h : Decodes opened outline) :
    (readFile opened).result = .ok outline.positions := by
  obtain ⟨steps, bytes, rfl, hread, hdecode⟩ := h
  have hread' : ReadStep.readOnto [] steps = .ok bytes := by
    simp [ReadStep.readOnto_eq, hread, Except.map]
  simp only [readFile, Positions.read, hread', Positions.result_decode, hdecode, Except.map]

theorem result_readFile_of_fails (h : Fails opened error) :
    (readFile opened).result = .error error := by
  cases h with
  | unopened failure => rfl
  | unread hread => simp [readFile, Positions.read, ReadStep.readOnto_eq, hread, Except.map]
  | undecoded hread hdecode =>
    simp [readFile, Positions.read, ReadStep.readOnto_eq, hread, Positions.result_decode, hdecode,
      Except.map]

/-- There is no third way for a file to go. -/
theorem decodes_or_fails (opened : Except IoFailure (List ReadStep)) :
    (∃ outline, Decodes opened outline) ∨ ∃ error, Fails opened error := by
  cases opened with
  | error failure => exact .inr ⟨_, .unopened failure⟩
  | ok steps =>
    cases hread : ReadStep.readToEnd steps with
    | error failure => exact .inr ⟨_, .unread hread⟩
    | ok bytes =>
      cases hdecode : (Outline.decode bytes).result with
      | error error => exact .inr ⟨error, .undecoded hread hdecode⟩
      | ok outline => exact .inl ⟨outline, steps, bytes, rfl, hread, hdecode⟩

theorem Decodes.not_fails (h : Decodes opened outline) (error : DecodeError) :
    ¬Fails opened error := by
  intro hfails
  have hresult := result_readFile_of_decodes h
  rw [result_readFile_of_fails hfails] at hresult
  cases hresult

/-- Of a file that decodes the block is printed, and the records of decoding it are logged. -/
theorem finalState_of_decodes (h : Decodes (files path) outline) :
    finalState files [path] =
      { printed := Listing.block path outline.positions.toList
        logged := (readFile (files path)).log.toList.map .decoding
        failed := false } := by
  simp [finalState, step, result_readFile_of_decodes h, State.initial]

theorem stdout_of_decodes (h : Decodes (files path) outline) :
    (runWith logger files [path]).stdout = Listing.block path outline.positions.toList := by
  rw [runWith, finalState_of_decodes h, State.transcript]

/-- Of a file that fails nothing is printed, and its failure is logged behind the records there are.
-/
theorem finalState_of_fails (h : Fails (files path) error) :
    finalState files [path] =
      { printed := ""
        logged := (readFile (files path)).log.toList.map .decoding ++ [.failure path error]
        failed := true } := by
  simp [finalState, step, result_readFile_of_fails h, State.initial]

/-- The decoder never logs an error. -/
theorem errors_decoding (records : List Record) :
    ((records.map LogEntry.decoding).filter fun entry => entry.level = .error) = [] := by
  simp [List.filter_eq_nil_iff, LogEntry.level, Record.level_ne_error]

/-- The block of the class is printed, no error is logged, and nothing is shown of what is logged
unless more than errors is. -/
structure Lists (logger : Logger) (files : FileSystem) (path : String) (outline : Outline) :
    Prop where
  stdout : (runWith logger files [path]).stdout = Listing.block path outline.positions.toList
  stderr : logger.ErrorsOnly → (runWith logger files [path]).stderr = ""
  exitCode : (runWith logger files [path]).exitCode = 0
  logged : (finalState files [path]).logged = (readFile (files path)).log.toList.map .decoding
  errors : ((finalState files [path]).logged.filter fun entry => entry.level = .error) = []

/-- Nothing is printed, and one error is logged, with the path; it is all that is shown of what is
logged unless more than errors is. -/
structure Reports (logger : Logger) (files : FileSystem) (path : String) (error : DecodeError) :
    Prop where
  stdout : (runWith logger files [path]).stdout = ""
  stderr : logger.ErrorsOnly →
    (runWith logger files [path]).stderr = logger.render [] (.failure path error)
  stderr_path : logger.ErrorsOnly → ∃ before after,
    (runWith logger files [path]).stderr = before ++ (path ++ ": " ++ error.message) ++ after
  exitCode : (runWith logger files [path]).exitCode = 1
  logged : (finalState files [path]).logged =
    (readFile (files path)).log.toList.map .decoding ++ [.failure path error]
  errors : ((finalState files [path]).logged.filter fun entry => entry.level = .error) =
    [.failure path error]

theorem lists_of_decodes (hlogger : logger.Faithful) (h : Decodes (files path) outline) :
    Lists logger files path outline := by
  have hstate := finalState_of_decodes h
  have herrors : ((finalState files [path]).logged.filter fun entry => entry.level = .error) =
      [] := by
    rw [hstate, errors_decoding]
  refine ⟨stdout_of_decodes h, fun hlevel => ?_, ?_, by rw [hstate], herrors⟩
  · rw [runWith, State.transcript, hlogger.written_eq hlevel, herrors]
    rfl
  · rw [runWith, hstate]
    rfl

theorem reports_of_fails (hlogger : logger.Faithful) (h : Fails (files path) error) :
    Reports logger files path error := by
  have hstate := finalState_of_fails h
  have herrors : ((finalState files [path]).logged.filter fun entry => entry.level = .error) =
      [.failure path error] := by
    rw [hstate, List.filter_append, errors_decoding]
    rfl
  have hstderr : logger.ErrorsOnly →
      (runWith logger files [path]).stderr = logger.render [] (.failure path error) := by
    intro hlevel
    rw [runWith, State.transcript, hlogger.written_eq hlevel, herrors]
    simp
  refine ⟨?_, hstderr, fun hlevel => ?_, ?_, by rw [hstate], herrors⟩
  · rw [runWith, hstate]
    rfl
  · rw [hstderr hlevel]
    exact hlogger.shows_message [] (.failure path error)
  · rw [runWith, hstate]
    rfl

theorem Lists.not_reports (h : Lists logger files path outline) (error : DecodeError) :
    ¬Reports logger files path error := by
  intro h'
  have hcode := h.exitCode
  rw [h'.exitCode] at hcode
  exact absurd hcode (by decide)

/-- Two facts about runs with the same files, whatever logger they report to. What a run over two
lists of paths leaves behind is what the two runs leave behind, one after the other, on standard
output and, where errors only are shown, on standard error; what it logs is what they log, whatever
is shown of it, and its exit code is 1 exactly if one of theirs is. A single path either decodes or fails: where it decodes, a run over it lists the class,
where it fails it reports the error, and it never does both. -/
theorem run_files (logger : Logger) (hlogger : logger.Faithful) (files : FileSystem) :
    (∀ paths paths' : List String,
      (runWith logger files (paths ++ paths')).stdout =
        (runWith logger files paths).stdout ++ (runWith logger files paths').stdout ∧
      (logger.ErrorsOnly → (runWith logger files (paths ++ paths')).stderr =
        (runWith logger files paths).stderr ++ (runWith logger files paths').stderr) ∧
      (finalState files (paths ++ paths')).logged =
        (finalState files paths).logged ++ (finalState files paths').logged ∧
      ((runWith logger files (paths ++ paths')).exitCode = 1 ↔
        (runWith logger files paths).exitCode = 1 ∨ (runWith logger files paths').exitCode = 1)) ∧
    ∀ path,
      ((∃ outline, Decodes (files path) outline) ∨ ∃ error, Fails (files path) error) ∧
      (∀ outline, Decodes (files path) outline → Lists logger files path outline) ∧
      (∀ error, Fails (files path) error → Reports logger files path error) ∧
      ∀ outline error,
        ¬(Decodes (files path) outline ∧ Fails (files path) error) ∧
        ¬(Lists logger files path outline ∧ Reports logger files path error) := by
  refine ⟨fun paths paths' => ⟨?_, fun hlevel => ?_, ?_, ?_⟩, fun path =>
    ⟨decodes_or_fails _, fun _ => lists_of_decodes hlogger, fun _ => reports_of_fails hlogger, ?_⟩⟩
  · simp only [runWith, State.transcript, finalState_append, State.printed_append]
  · exact stderr_append hlogger hlevel files paths paths'
  · rw [finalState_append, State.logged_append]
  · simp [runWith, State.exitCode_eq_one_iff, finalState_append]
  · exact fun outline error =>
      ⟨fun h => h.1.not_fails error h.2, fun h => h.1.not_reports error h.2⟩

/-- A directory with a class file and one that ends after its first byte. -/
def twoFiles : Directory :=
  (Directory.empty.put (Directory.current ++ ["C.class"]) (some Outline.overloads)).put
    (Directory.current ++ ["D.class"]) (some [0xCA])

theorem decodes_twoFiles : Decodes (twoFiles.open? "C.class") Outline.overloadsOutline :=
  ⟨[.chunk Outline.overloads], Outline.overloads, rfl, rfl, Outline.result_decode_overloads⟩

theorem fails_twoFiles : Fails (twoFiles.open? "D.class") (.truncated 0 4 1) := by
  have hread : ReadStep.readToEnd [.chunk [0xCA]] = .ok [0xCA] := rfl
  exact .undecoded hread rfl

theorem block_overloadsOutline :
    Listing.block "C.class" Outline.overloadsOutline.positions.toList =
      "C.class:\n        -  void f()\n        -  void f(a.b)\n" := by
  have hsort : Listing.sort Outline.overloadsOutline.positions.toList =
      [("void f()", .absent), ("void f(a.b)", .absent)] :=
    Listing.sort_eq_of_perm (by decide +kernel) (by decide) (by decide)
  rw [Listing.block, Listing.lines, hsort]
  rfl

theorem run_files_twoFiles :
    Logger.standard.Faithful ∧
      run twoFiles.open? ["C.class", "D.class"] =
        { stdout := "C.class:\n        -  void f()\n        -  void f(a.b)\n"
          stderr := " ERROR methodtable > D.class: Unexpected end of class file at offset 0: " ++
            "4 bytes needed, 1 remaining\n"
          exitCode := 1 } := by
  have hlogger := Logger.faithful_upTo .error
  have hlevel := Logger.errorsOnly_standard
  obtain ⟨hruns, hfiles⟩ := run_files .standard hlogger twoFiles.open?
  obtain ⟨hstdout, hstderr, -, hexitCode⟩ := hruns ["C.class"] ["D.class"]
  have hlists := (hfiles "C.class").2.1 _ decodes_twoFiles
  have hreports := (hfiles "D.class").2.2.1 _ fails_twoFiles
  refine ⟨hlogger, Transcript.ext ?_ ?_ ?_⟩
  · rw [run, ← List.singleton_append, hstdout, hlists.stdout, hreports.stdout,
      block_overloadsOutline]
    rfl
  · rw [run, ← List.singleton_append, hstderr hlevel, hlists.stderr hlevel, hreports.stderr hlevel]
    rfl
  · exact hexitCode.mpr (.inr hreports.exitCode)

end CommandLine

end ClassOutline
