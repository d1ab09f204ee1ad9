import Mutelemetry.Process.Runs

/-!
# The log file of a process

What a reader of ULog files gets from the file, at any time and whatever has
failed.
-/

namespace Mutelemetry

open ByteString Ulog Telemetry

namespace Process

-- ---------------------------------------------------------------------------
-- The records of the calls
-- ---------------------------------------------------------------------------

def flags : Record := ⟨.B, MuTelemetry.zeros 40, by decide⟩

theorem Answers.records (h : Answers cs ms) : ∃ rss : List (List Record),
    rss.flatten.map Record.type = cs.flatMap Call.types ∧
    ms = rss.map (·.flatMap Record.bytes) := by
  induction h with
  | nil => exact ⟨[], rfl, rfl⟩
  | cons hm _ ih =>
    obtain ⟨t, t', hm⟩ := hm
    obtain ⟨rs, htypes, rfl⟩ := hm.records
    obtain ⟨rss, htypes', rfl⟩ := ih
    exact ⟨rs :: rss, by simp [htypes, htypes'], rfl⟩

theorem flatten_records (rss : List (List Record)) :
    (rss.map (·.flatMap Record.bytes)).flatten = rss.flatten.flatMap Record.bytes := by
  induction rss with
  | nil => rfl
  | cons rs rss ih => simp [ih]

theorem flatten_preamble (t : MuTelemetry) (rss : List (List Record)) :
    (preamble t ++ rss.map (·.flatMap Record.bytes)).flatten =
      fileHeader t.startTimestamp ++ (flags :: rss.flatten).flatMap Record.bytes := by
  rw [List.flatten_append, flatten_records]
  simp [preamble, flags, Record.bytes]

/-- Some of the first messages of a log are nothing, or the header and whole
records. -/
theorem take_log (t : MuTelemetry) (rss : List (List Record)) (k : Nat) :
    ((preamble t ++ rss.map (·.flatMap Record.bytes)).take k).flatten = [] ∨
    ∃ rs : List Record, ((preamble t ++ rss.map (·.flatMap Record.bytes)).take k).flatten =
      fileHeader t.startTimestamp ++ rs.flatMap Record.bytes := by
  match k with
  | 0 => exact .inl rfl
  | 1 => exact .inr ⟨[], by simp [preamble]⟩
  | k + 2 =>
    refine .inr ⟨flags :: (rss.take k).flatten, ?_⟩
    rw [← flatten_preamble, preamble, List.map_take]
    simp

-- ---------------------------------------------------------------------------
-- The file
-- ---------------------------------------------------------------------------

/-- Once the header is on the file, a reader gets the time of `init` and the
first of the messages of the calls, whole and in order. Behind them there is a
part of the next one only if a write has failed. -/
theorem log_file_reads (hclock : ClockRuns es) (h : Transition.run step new es = some p)
    (hlog : p.telemetry.withLocalLog = true) :
    p.logger.file.content = [] ∨
    p.logger.file.bad = true ∧ p.logger.file.content.length < 16 ∨
    ∃ (rs : List Record) (n : Nat) (torn : Bytes),
      rs.map Record.type = .B :: (Transition.trace step answered new es).flatMap Call.types ∧
      p.telemetry.logQueue.flatten =
        fileHeader p.telemetry.startTimestamp ++ rs.flatMap Record.bytes ∧
      LogFile.read p.logger.file.content =
        some ⟨p.telemetry.startTimestamp, rs.take n, torn⟩ ∧
      (torn = [] ∨ p.logger.file.bad = true ∧ ∃ r ∈ rs[n]?, torn <+: r.bytes ∧ torn ≠ r.bytes) := by
  obtain ⟨-, ⟨rfl, -⟩ | hp⟩ := composed_of_run hclock h
  · cases hlog
  obtain ⟨ms, hms, hqueue, -⟩ := hp.messages
  obtain ⟨ls, hls, hrun, harr⟩ := hp.logger hlog
  obtain ⟨-, j, -, -, hj, hacc⟩ := Logger.MutelemetryLogger.journaled_of_run hls hrun
  obtain ⟨rss, htypes, rfl⟩ := hms.records
  rw [if_pos hlog] at hqueue
  rw [harr, hqueue] at hacc
  have hprefix := hacc.prefix
  rw [← hj.content, flatten_preamble] at hprefix
  have hwhole (hb : p.logger.file.bad = false) : p.logger.file.content = [] ∨
      ∃ rs : List Record, p.logger.file.content =
        fileHeader p.telemetry.startTimestamp ++ rs.flatMap Record.bytes := by
    obtain ⟨k, hk⟩ := hacc.whole (hj.torn hb)
    rw [hj.content, hk]
    exact take_log p.telemetry rss k
  by_cases hlen : 16 ≤ p.logger.file.content.length
  · obtain ⟨n, torn, hread, -, htorn⟩ := read_prefix hprefix hlen
    refine .inr (.inr ⟨flags :: rss.flatten, n, torn, by simp [htypes, flags], ?_, hread, ?_⟩)
    · rw [hqueue, flatten_preamble]
    · cases hb : p.logger.file.bad with
      | true => exact htorn.imp_right fun hr => ⟨rfl, hr⟩
      | false =>
        obtain hnil | ⟨rs, hrs⟩ := hwhole hb
        · simp [hnil] at hlen
        · have hsplit : Record.framing.split (rs.flatMap Record.bytes) = (rs, []) :=
            Record.framing.split_bytes rs
          rw [hrs, read_header, hsplit] at hread
          cases hread
          exact .inl rfl
  · cases hb : p.logger.file.bad with
    | true => exact .inr (.inl ⟨rfl, by omega⟩)
    | false =>
      obtain hnil | ⟨rs, hrs⟩ := hwhole hb
      · exact .inl hnil
      · rw [hrs, List.length_append, length_fileHeader] at hlen
        omega

set_option maxRecDepth 4000 in
theorem log_file_reads_parameter : ∃ p, Transition.run step new parameterLogged = some p ∧
    (p.logger.file.content = [] ∨
      p.logger.file.bad = true ∧ p.logger.file.content.length < 16 ∨
      ∃ (rs : List Record) (n : Nat) (torn : Bytes),
        rs.map Record.type =
          .B :: (Transition.trace step answered new parameterLogged).flatMap Call.types ∧
        p.telemetry.logQueue.flatten =
          fileHeader p.telemetry.startTimestamp ++ rs.flatMap Record.bytes ∧
        LogFile.read p.logger.file.content =
          some ⟨p.telemetry.startTimestamp, rs.take n, torn⟩ ∧
        (torn = [] ∨
          p.logger.file.bad = true ∧ ∃ r ∈ rs[n]?, torn <+: r.bytes ∧ torn ≠ r.bytes)) :=
  ⟨_, rfl, log_file_reads clockRuns_parameterLogged rfl rfl⟩

end Process

end Mutelemetry
