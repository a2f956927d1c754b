import ClassOutline.Logger

/-!
# What is known of a logger

How a logger lays an entry out is left open (`Logger.Faithful`): its text has the message in it, and
depends on what was shown before only where that came from another part of the program. The decoder
never logs an error, so a logger that shows errors only (`Logger.ErrorsOnly`) shows entries from one
part, and writes for them what it would write for each alone (`Logger.Faithful.written_eq`).
-/

namespace ClassOutline

/-! ## Levels of entries -/

/-- The decoder itself never logs an error. -/
theorem Record.level_ne_error (record : Record) : record.level ≠ .error := by
  cases record <;> intro h <;> cases h

namespace LogEntry

variable {entry : LogEntry}

/-- Errors are the failures of files, and nothing else. -/
theorem level_eq_error_iff : entry.level = .error ↔ ∃ path error, entry = failure path error := by
  cases entry with
  | decoding record => simp [level, record.level_ne_error]
  | failure path error => simp [level]

/-- All entries of the most severe level come from the same part of the program. -/
theorem source_of_level_eq_error (h : entry.level = .error) : entry.source = "methodtable" := by
  obtain ⟨path, error, rfl⟩ := level_eq_error_iff.mp h
  rfl

theorem isAtLeast_error : entry.isAtLeast .error = true ↔ entry.level = .error := by
  cases entry with
  | decoding record => cases record <;> simp [isAtLeast, Record.isAtLeast, level, Record.level,
      Level.rank]
  | failure path error => exact iff_of_true rfl rfl

end LogEntry

namespace Logger

variable {logger : Logger} {shown entries : List LogEntry} {source : String}

/-! ## Assumptions -/

/-- What is shown are the entries of the most severe level. -/
def ErrorsOnly (logger : Logger) : Prop :=
  ∀ entry, logger.isEnabled entry = true ↔ entry.level = .error

/-- How an entry is laid out. -/
structure Faithful (logger : Logger) : Prop where
  /-- Entries that were shown before matter only if they came from elsewhere. -/
  render_eq : ∀ shown entry, (∀ other ∈ shown, other.source = entry.source) →
    logger.render shown entry = logger.render [] entry
  /-- The message is part of the text. -/
  shows_message : ∀ shown entry, ∃ before after,
    logger.render shown entry = before ++ entry.message ++ after

/-! ## What is written -/

/-- Entries from one part of the program are written one by one. -/
theorem Faithful.writtenAfter_eq (h : logger.Faithful)
    (hshown : ∀ entry ∈ shown, entry.source = source)
    (hentries : ∀ entry ∈ entries, logger.isEnabled entry = true → entry.source = source) :
    logger.writtenAfter shown entries =
      String.join ((entries.filter logger.isEnabled).map (logger.render [])) := by
  induction entries generalizing shown with
  | nil => rfl
  | cons entry entries ih =>
    have hrest := fun other hother => hentries other (List.mem_cons_of_mem entry hother)
    by_cases henabled : logger.isEnabled entry = true
    · have hsource := hentries entry List.mem_cons_self henabled
      have hlater : ∀ other ∈ shown ++ [entry], other.source = source := by
        simp only [List.mem_append, List.mem_singleton]
        rintro other (hother | rfl)
        · exact hshown other hother
        · exact hsource
      have htext := h.render_eq shown entry fun other hother => by rw [hshown other hother, hsource]
      rw [writtenAfter, if_pos henabled, htext, ih hlater hrest, List.filter_cons_of_pos henabled,
        List.map_cons, String.join_cons]
    · rw [writtenAfter, if_neg henabled, ih hshown hrest, List.filter_cons_of_neg henabled]

/-- A logger that shows errors only writes the errors among the entries, each as it would alone. -/
theorem Faithful.written_eq (hlogger : logger.Faithful) (herrors : logger.ErrorsOnly)
    (entries : List LogEntry) :
    logger.written entries =
      String.join ((entries.filter fun entry => entry.level = .error).map (logger.render [])) := by
  have hfilter : entries.filter logger.isEnabled =
      entries.filter fun entry => entry.level = .error :=
    List.filter_congr fun entry _ => Bool.eq_iff_iff.mpr (by simpa using herrors entry)
  have hsource : ∀ entry ∈ entries, logger.isEnabled entry = true →
      entry.source = "methodtable" := fun entry _ henabled =>
    LogEntry.source_of_level_eq_error ((herrors entry).mp henabled)
  rw [written, hlogger.writtenAfter_eq (List.forall_mem_nil _) hsource, hfilter]

/-! ## The usual logger -/

theorem sourceWidth_le (h : ∀ other ∈ shown, other.source = source) :
    sourceWidth shown ≤ source.length := by
  induction shown with
  | nil => exact Nat.zero_le _
  | cons other shown ih =>
    rw [List.forall_mem_cons] at h
    rw [sourceWidth, h.1]
    exact Nat.max_le.mpr ⟨Nat.le_refl _, ih h.2⟩

/-- The usual logger pads sources, which does nothing where all are the same. -/
theorem faithful_upTo (level : Level) : (upTo level).Faithful where
  render_eq shown entry h := by
    have hwidth : sourceWidth (entry :: shown) = sourceWidth [entry] := by
      rw [sourceWidth, sourceWidth, Nat.max_eq_left (sourceWidth_le h)]
      exact (Nat.max_eq_left (Nat.zero_le _)).symm
    simp only [upTo, hwidth]
  shows_message _ _ := ⟨_, "\n", rfl⟩

theorem errorsOnly_standard : standard.ErrorsOnly := fun _ => LogEntry.isAtLeast_error

end Logger

end ClassOutline
