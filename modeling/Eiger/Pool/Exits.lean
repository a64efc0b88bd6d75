import Eiger.Metrics.Sample
import Eiger.Pool.Pass

/-!
# When maintenance takes a browser for dead

`kill_reason_for` reads a sample that is missing as an exit of the process. But
`sample_process_tree` has no sample either where `ps` does not start, where it fails and so does the
one for the single process, and where the row of a live process does not parse. What is sampled is
conclusive (`Conclusive`) if none of these is the case, and a pass recycles only sessions whose
process is missing from the table exactly if all that it samples is: `processExit_iff`.
-/

namespace Eiger

open Json Text

/-- The reason for which a session without a sample is terminated. -/
def processExited : String := "browser process exited"

/-! ## What a run of `ps` shows -/

/-- The line is a row for the pid: its first part is. -/
def RowOf (pid : Pid) (line : String) : Prop :=
  ∃ child parts, splitWhitespace line = child :: parts ∧ parseUnsigned (2 ^ 32) child = some pid

/-- A process table was read, and it has no row for the pid. -/
def NoRow (pid : Pid) (table : PsOutput) : Prop :=
  ∃ stdout, table = .ended true stdout ∧ ∀ line ∈ tableLines stdout, ¬ RowOf pid line

/-- The line is a row for the pid, and parses. -/
def ParsedRowOf (pid : Pid) (line : String) : Prop :=
  ∃ row, parseRow line = some row ∧ row.childPid = pid

/-- The line starts with a size and a CPU share. -/
def ReadableSize (line : String) : Prop :=
  ∃ rss cpu parts rssKb, splitWhitespace line = rss :: cpu :: parts ∧
    parseUnsigned (2 ^ 64) rss = some rssKb ∧ isFloat cpu = true

/-- What `ps` writes about the process is conclusive: it writes the table, with a row for the
process that parses if it has any; or it fails, and the one for the single process writes a size. -/
def Conclusive (pid : Pid) (table single : PsOutput) : Prop :=
  (∃ stdout, table = .ended true stdout ∧
    ((∃ line ∈ tableLines stdout, RowOf pid line) →
      ∃ line ∈ tableLines stdout, ParsedRowOf pid line)) ∨
  ∃ stdout written line others, table = .ended false stdout ∧ single = .ended true written ∧
    tableLines written = line :: others ∧ ReadableSize line

section

variable {overflowChecks : Bool} {pid : Pid} {sample : Option ProcessSample}

/-- Where there is no sample, there is nothing to sample. -/
theorem none_sample_iff {p : Prop} (h : ¬ p) : (none : Option ProcessSample) ≠ none ↔ p :=
  iff_of_false (fun hsome => hsome rfl) h

/-- A line is sampled exactly where it starts with a size and a CPU share. -/
theorem sampleLine_isSome {line : String}
    (h : sampleLine overflowChecks pid line = .ok sample) : sample ≠ none ↔ ReadableSize line := by
  rw [sampleLine] at h
  split at h
  · next rss cpu parts hparts =>
    split at h
    · next hrss =>
      cases h
      refine none_sample_iff ?_
      rintro ⟨rss', cpu', parts', rssKb, heq, hrss', -⟩
      rw [hparts] at heq
      cases heq
      rw [hrss] at hrss'
      cases hrss'
    · next rssKb hrss =>
      split at h
      · next hcpu =>
        obtain ⟨rssBytes, -, h⟩ := Outcome.bind_eq_ok_iff.1 h
        cases h
        exact ⟨fun _ => ⟨rss, cpu, parts, rssKb, hparts, hrss, hcpu⟩, fun _ => nofun⟩
      · next hcpu =>
        cases h
        refine none_sample_iff ?_
        rintro ⟨rss', cpu', parts', rssKb, heq, -, hcpu'⟩
        rw [hparts] at heq
        cases heq
        exact (hcpu hcpu').elim
  · next hparts =>
    cases h
    refine none_sample_iff ?_
    rintro ⟨rss, cpu, parts, rssKb, heq, -⟩
    exact (hparts _ _ _ heq).elim

/-- `sample_process` has a sample exactly where its `ps` writes a size. -/
theorem sampleProcess_isSome {single : PsOutput}
    (h : sampleProcess overflowChecks pid single = .ok sample) :
    sample ≠ none ↔ ∃ written line others, single = .ended true written ∧
      tableLines written = line :: others ∧ ReadableSize line := by
  cases single with
  | notStarted =>
    cases h
    refine none_sample_iff ?_
    rintro ⟨written, line, others, heq, -⟩
    cases heq
  | ended success written =>
    cases success with
    | false =>
      cases h
      refine none_sample_iff ?_
      rintro ⟨written, line, others, heq, -⟩
      cases heq
    | true =>
      have hsame : (∃ written' line others, PsOutput.ended true written = .ended true written' ∧
          tableLines written' = line :: others ∧ ReadableSize line) ↔
          ∃ line others, tableLines written = line :: others ∧ ReadableSize line := by
        constructor
        · rintro ⟨_, line, others, heq, hline⟩
          cases heq
          exact ⟨line, others, hline⟩
        · rintro ⟨line, others, hline⟩
          exact ⟨written, line, others, rfl, hline⟩
      rw [hsame]
      rw [sampleProcess] at h
      split at h
      · next hlines =>
        cases h
        refine none_sample_iff ?_
        rintro ⟨line, others, heq, -⟩
        rw [hlines] at heq
        cases heq
      · next line others hlines =>
        have hline : (∃ line' others', tableLines written = line' :: others' ∧
            ReadableSize line') ↔ ReadableSize line := by
          rw [hlines]
          constructor
          · rintro ⟨line', others', heq, hsize⟩
            cases heq
            exact hsize
          · exact fun hsize => ⟨line, others, rfl, hsize⟩
        rw [hline]
        exact sampleLine_isSome h

/-- `sample_process_tree` has no sample of a table exactly where no row for the pid parses. -/
theorem sampleTable_none_iff {stdout : String} {single : PsOutput}
    (h : sampleProcessTree overflowChecks pid (.ended true stdout) single = .ok sample) :
    sample = none ↔ ∀ line ∈ tableLines stdout, ¬ ParsedRowOf pid line := by
  rw [sampleProcessTree, Outcome.bind_eq_ok_iff] at h
  obtain ⟨rows, hrows, h⟩ := h
  have hnone : sample = none ↔ sampleTree overflowChecks rows pid = .ok none := by
    rw [h, Outcome.ok.injEq]
  rw [hnone, sampleTree_none_iff, pushRows_ok hrows]
  constructor
  · rintro hno line hline ⟨row, hparse, hpid⟩
    exact hno _ (List.mem_map_of_mem (List.mem_filterMap.2 ⟨line, hline, hparse⟩)) hpid
  · intro hno row hrow hpid
    obtain ⟨parsed, hparsed, rfl⟩ := List.mem_map.1 hrow
    obtain ⟨line, hline, hparse⟩ := List.mem_filterMap.1 hparsed
    exact hno line hline ⟨parsed, hparse, hpid⟩

/-- What `ps` writes is conclusive exactly if a missing sample means a missing row. -/
theorem conclusive_iff {table single : PsOutput}
    (h : sampleProcessTree overflowChecks pid table single = .ok sample) :
    Conclusive pid table single ↔ (sample = none → NoRow pid table) := by
  cases table with
  | notStarted =>
    cases h
    constructor
    · rintro (⟨stdout, heq, -⟩ | ⟨stdout, written, line, others, heq, -⟩) <;> cases heq
    · intro hrow
      obtain ⟨stdout, heq, -⟩ := hrow rfl
      cases heq
  | ended success stdout =>
    cases success with
    | false =>
      have hsome := sampleProcess_isSome h
      constructor
      · rintro (⟨stdout', heq, -⟩ | ⟨stdout', written, line, others, -, hsingle⟩) hnone
        · cases heq
        · exact (hsome.2 ⟨written, line, others, hsingle⟩ hnone).elim
      · intro hrow
        refine .inr ?_
        obtain ⟨written, line, others, hsingle⟩ := hsome.1 fun hnone => by
          obtain ⟨stdout', heq, -⟩ := hrow hnone
          cases heq
        exact ⟨stdout, written, line, others, rfl, hsingle⟩
    | true =>
      rw [sampleTable_none_iff h]
      constructor
      · rintro (⟨stdout', heq, hrow⟩ | ⟨stdout', written, line, others, heq, -⟩) hno
        · cases heq
          refine ⟨stdout, rfl, fun line hline hof => ?_⟩
          obtain ⟨parsed, hparsed, hof⟩ := hrow ⟨line, hline, hof⟩
          exact hno parsed hparsed hof
        · cases heq
      · intro hrow
        refine .inl ⟨stdout, rfl, ?_⟩
        rintro ⟨line, hline, hof⟩
        by_contra hno
        obtain ⟨stdout', heq, hmissing⟩ := hrow fun line hline hof => hno ⟨line, hline, hof⟩
        cases heq
        exact hmissing line hline hof

end

/-! ## What a pass makes of it -/

/-- A visit of a maintenance pass, with the pid of the session and what comes of `ps` when the visit
samples it. -/
structure PsVisit extends Visit where
  pid : Pid
  table : PsOutput
  single : PsOutput

/-- The visit gets as far as to sample: the entry is not being shut down, and neither too old nor
idle for too long. -/
def Visit.Samples (options : PoolOptions) (v : Visit) : Prop :=
  ¬ (v.state = .killing ∨ v.state = .dead) ∧ options.lifetimeReason v.age = none ∧
    options.idleReason v.stateAgain v.idleFor = none

section

variable {json : Codec} {options : PoolOptions} {v : Visit}

/-- `kill_reason_for` takes a process for dead exactly where it has no sample. -/
theorem Visit.killReasonFor_exited_iff :
    (v.killReasonFor json options).value = some (some processExited) ↔
      options.lifetimeReason v.age = none ∧ options.idleReason v.stateAgain v.idleFor = none ∧
        v.sample = none := by
  rw [killReasonFor]
  cases hlifetime : options.lifetimeReason v.age with
  | some reason =>
    refine iff_of_false (fun h => ?_) fun h => by cases h.1
    exact options.lifetimeReason_ne v.age (by decide) (hlifetime.trans (Option.some.inj h))
  | none =>
    cases hidle : options.idleReason v.stateAgain v.idleFor with
    | some reason =>
      refine iff_of_false (fun h => ?_) fun h => by cases h.2.1
      exact options.idleReason_ne _ _ (by decide) (hidle.trans (Option.some.inj h))
    | none =>
      cases hsample : v.sample with
      | none => exact iff_of_true rfl ⟨rfl, rfl, rfl⟩
      | some sample =>
        refine iff_of_false (fun h => ?_) fun h => by cases h.2.2
        cases hreason : options.sampleReason (some sample) with
        | some reason =>
          rw [hreason] at h
          exact options.sampleReason_ne (some sample) (by decide) (by simp)
            (hreason.trans (Option.some.inj h))
        | none =>
          rw [hreason] at h
          simp only at h
          split at h
          · obtain ⟨result, -, h⟩ :=
              Option.bind_eq_some_iff.1 ((Future.value_bind _ _).symm.trans h)
            exact healthReason_ne result (by decide) (Option.some.inj h)
          · cases h

/-- A visit terminates its session as one whose process has exited exactly where it samples, has no
sample, and still finds the session. -/
theorem Visit.decide_exited_iff :
    (v.decide json options).value = some (.terminated processExited) ↔
      v.Samples options ∧ v.sample = none ∧ v.inMap = true := by
  have hreason : (v.killReasonFor json options).value = some (some processExited) ∧
      v.inMap = true ↔ (options.lifetimeReason v.age = none ∧
        options.idleReason v.stateAgain v.idleFor = none) ∧ v.sample = none ∧ v.inMap = true := by
    rw [killReasonFor_exited_iff, and_assoc, and_assoc, and_assoc]
  rw [decide_value, Samples, and_assoc, ← hreason]
  split
  · next hstate =>
    refine ⟨nofun, fun h => (h.1 hstate).elim⟩
  · next hstate =>
    rw [Option.map_eq_some_iff]
    constructor
    · rintro ⟨_ | reason, hvalue, hended⟩
      · cases hended
      · have hended : v.ended reason = .terminated processExited := hended
        rw [ended] at hended
        split at hended
        · next hmap =>
          cases hended
          exact ⟨hstate, hvalue, hmap⟩
        · cases hended
    · rintro ⟨-, hvalue, hmap⟩
      refine ⟨_, hvalue, ?_⟩
      simp only [ended]
      rw [if_pos hmap]

end

/-- **A failed sample is no exit** exactly where there is none. Whatever `ps` does, every session
that a pass terminates as one whose process has exited is missing from a table that was read, if and
only if all that `ps` writes for the visits that the pass gets to, samples and still finds in the
map is conclusive. The visits are those up to a sampling that panics, which would end the pass. -/
theorem processExit_iff (json : Codec) (options : PoolOptions) (overflowChecks : Bool)
    (visits : List PsVisit)
    (hsampled : ∀ v ∈ visits, v.Samples options →
      sampleProcessTree overflowChecks v.pid v.table v.single = .ok v.sample) :
    (∀ v, (v, Decision.terminated processExited) ∈
        visits.zip (maintenancePass json options (visits.map (·.toVisit))) →
      NoRow v.pid v.table) ↔
    ∀ before v after, visits = before ++ v :: after →
      (∀ u ∈ before, ¬ (u.Probed options ∧ u.endpoint.connect = .never)) →
      v.Samples options → v.inMap = true → Conclusive v.pid v.table v.single := by
  have hzip : ∀ v, (v, Decision.terminated processExited) ∈
      visits.zip (maintenancePass json options (visits.map (·.toVisit))) ↔
      ∃ before after, visits = before ++ v :: after ∧
        (∀ u ∈ before, ¬ (u.Probed options ∧ u.endpoint.connect = .never)) ∧
        v.Samples options ∧ v.sample = none ∧ v.inMap = true := by
    intro v
    rw [maintenancePass, List.map_map, Future.mem_zip_inTurn]
    simp only [Function.comp_apply, ne_eq, Visit.decide_never, Visit.decide_exited_iff]
  have hmem : ∀ {before v after}, visits = before ++ v :: after → v ∈ visits := by
    rintro before v after rfl
    exact List.mem_append_right before List.mem_cons_self
  constructor
  · intro h before v after hvisits hbefore hsamples hmap
    rw [conclusive_iff (hsampled v (hmem hvisits) hsamples)]
    intro hnone
    exact h v ((hzip v).2 ⟨before, after, hvisits, hbefore, hsamples, hnone, hmap⟩)
  · intro h v hv
    obtain ⟨before, after, hvisits, hbefore, hsamples, hnone, hmap⟩ := (hzip v).1 hv
    exact (conclusive_iff (hsampled v (hmem hvisits) hsamples)).1
      (h before v after hvisits hbefore hsamples hmap) hnone

/-! ## Live processes without a sample -/

/-- A visit of the session with the pid 10, which is within its limits. -/
def psVisit (table single : PsOutput) (sample : Option ProcessSample) : PsVisit :=
  { hungVisit with sinceCheck := .fromSecs 0, sample, pid := 10, table, single }

/-- What `ps` writes when the process has exited. -/
def exitedTable : PsOutput := .ended true "    1     0   900  0.0\n   11     1  1200  0.5\n"

/-- A pass that visits the session after the exit of its process. -/
theorem processExit_exited :
    (∀ v, (v, Decision.terminated processExited) ∈ [psVisit exitedTable .notStarted none].zip
        (maintenancePass silentCodec (examplePool 1).options
          ([psVisit exitedTable .notStarted none].map (·.toVisit))) →
      NoRow v.pid v.table) ↔
    ∀ before v after, [psVisit exitedTable .notStarted none] = before ++ v :: after →
      (∀ u ∈ before, ¬ (u.Probed (examplePool 1).options ∧ u.endpoint.connect = .never)) →
      v.Samples (examplePool 1).options → v.inMap = true →
      Conclusive v.pid v.table v.single := by
  refine processExit_iff silentCodec (examplePool 1).options true _ ?_
  intro v hv _
  rw [List.mem_singleton.1 hv]
  rfl

/-- What `ps` writes about the live process in a locale with decimal commas. -/
def commaTable : PsOutput := .ended true "    1     0   900  0,0\n   10     1  1200  0,5\n"

/-- That table has a row for the process. -/
theorem rowOf_commaTable : ¬ NoRow 10 commaTable := by
  rintro ⟨stdout, heq, hno⟩
  cases heq
  refine hno "   10     1  1200  0,5" ?_ ⟨"10", ["1", "1200", "0,5"], rfl, rfl⟩
  have hlines : tableLines "    1     0   900  0,0\n   10     1  1200  0,5\n" =
      ["    1     0   900  0,0", "   10     1  1200  0,5"] := rfl
  rw [hlines]
  exact List.mem_cons_of_mem _ List.mem_cons_self

/-- At these outputs of `ps` there is no sample, and the pass terminates the session as one whose
process has exited, though no table that was read has no row for it. -/
def TakenForExited (table single : PsOutput) : Prop :=
  sampleProcessTree true 10 table single = .ok none ∧
    maintenancePass silentCodec (examplePool 1).options [(psVisit table single none).toVisit] =
      [.terminated processExited] ∧
    ¬ NoRow 10 table

/-- That is so when `ps` cannot be started, when it fails both times, and when the row of the live
process does not parse. -/
theorem processExit_of_live :
    TakenForExited .notStarted .notStarted ∧
      TakenForExited (.ended false "") (.ended false "") ∧
      TakenForExited commaTable .notStarted := by
  have hpass (table single : PsOutput) :
      maintenancePass silentCodec (examplePool 1).options [(psVisit table single none).toVisit] =
        [.terminated processExited] := rfl
  refine ⟨⟨rfl, hpass _ _, ?_⟩, ⟨rfl, hpass _ _, ?_⟩, rfl, hpass _ _, rowOf_commaTable⟩
  · rintro ⟨stdout, heq, -⟩
    cases heq
  · rintro ⟨stdout, heq, -⟩
    cases heq

end Eiger
