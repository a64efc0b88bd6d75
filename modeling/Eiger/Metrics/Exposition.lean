import Eiger.Lib.Exposition
import Eiger.Lib.Text

/-!
# The metrics of the pool

`render_prometheus` writes ten values of the pool and, for three fields of the sessions, a value of
each session that has the field, with the session's id and state as labels. `escape_label` escapes a
backslash and a double quote, so the text is read back as it was meant as long as no label has a
line feed; a line feed is written as it is, and ends the line in the midst of a label's value:
`parse_renderPrometheus_iff`.
-/

namespace Eiger

open Text Exposition

/-- A CPU share as it is printed: a text in one line. -/
structure CpuToken where
  text : String
  nonempty : text.toList ≠ []
  line : '\n' ∉ text.toList

/-- `SessionMetric`, with the fields that are rendered. -/
structure SessionMetric where
  id : String
  state : String
  rssBytes : Option Nat
  cpuPercent : Option CpuToken
  processCount : Option Nat

/-- `PoolMetrics`, with the fields of its sessions that are rendered. -/
structure PoolMetrics where
  activeSessions : Nat
  maxConcurrentSessions : Nat
  sessionsCreatedTotal : Nat
  sessionsHardKilledTotal : Nat
  sessionsRejectedTotal : Nat
  sessionsRssLimitRecycledTotal : Nat
  sessionsIdleRecycledTotal : Nat
  sessionsLifetimeRecycledTotal : Nat
  sessionsProcessExitRecycledTotal : Nat
  sessionsCdpUnhealthyRecycledTotal : Nat
  sessions : List SessionMetric

/-- `escape_label`. -/
def escapeLabel (value : String) : String :=
  replaceChar (replaceChar value '\\' "\\\\") '"' "\\\""

/-- The lines of `render_prometheus` about what a value is. -/
def describe (name help kind : String) : String :=
  "# HELP " ++ name ++ " " ++ help ++ "\n" ++ "# TYPE " ++ name ++ " " ++ kind ++ "\n"

/-- A value of the pool. -/
structure PoolValue where
  name : String
  help : String
  kind : String
  value : Nat

/-- Its lines in `render_prometheus`. -/
def PoolValue.text (entry : PoolValue) : String :=
  describe entry.name entry.help entry.kind ++ entry.name ++ " " ++ Nat.repr entry.value ++ "\n"

/-- The values of the pool, in the order of `render_prometheus`. -/
def PoolMetrics.values (metrics : PoolMetrics) : List PoolValue :=
  [⟨"eiger_sessions_active", "Active browser sessions.", "gauge", metrics.activeSessions⟩,
    ⟨"eiger_sessions_max", "Maximum concurrently allowed browser sessions.", "gauge",
      metrics.maxConcurrentSessions⟩,
    ⟨"eiger_sessions_created_total", "Browser sessions created.", "counter",
      metrics.sessionsCreatedTotal⟩,
    ⟨"eiger_sessions_hard_killed_total", "Browser sessions that required SIGKILL.", "counter",
      metrics.sessionsHardKilledTotal⟩,
    ⟨"eiger_sessions_rejected_total", "Session requests rejected by capacity or timeout.",
      "counter", metrics.sessionsRejectedTotal⟩,
    ⟨"eiger_sessions_rss_limit_recycled_total",
      "Sessions recycled after exceeding their RSS ceiling.", "counter",
      metrics.sessionsRssLimitRecycledTotal⟩,
    ⟨"eiger_sessions_idle_recycled_total", "Sessions recycled after idle timeout.", "counter",
      metrics.sessionsIdleRecycledTotal⟩,
    ⟨"eiger_sessions_lifetime_recycled_total", "Sessions recycled after max lifetime.", "counter",
      metrics.sessionsLifetimeRecycledTotal⟩,
    ⟨"eiger_sessions_process_exit_recycled_total",
      "Sessions recycled because their browser process exited.", "counter",
      metrics.sessionsProcessExitRecycledTotal⟩,
    ⟨"eiger_sessions_cdp_unhealthy_recycled_total",
      "Sessions recycled after CDP health-check failure.", "counter",
      metrics.sessionsCdpUnhealthyRecycledTotal⟩]

/-- A field of the sessions, as it is printed of those that have it. -/
structure SessionField where
  name : String
  help : String
  value : SessionMetric → Option String

/-- The line of `render_prometheus` of a session that has the field. -/
def SessionField.line (field : SessionField) (session : SessionMetric) (value : String) : String :=
  field.name ++ "\x7bsession=\"" ++ escapeLabel session.id ++ "\",state=\"" ++
    escapeLabel session.state ++ "\"\x7d " ++ value ++ "\n"

/-- Its lines of the sessions that have the field. -/
def SessionField.text (field : SessionField) (sessions : List SessionMetric) : String :=
  sessions.foldl (fun output session =>
    match field.value session with
    | some value => output ++ field.line session value
    | none => output) (describe field.name field.help "gauge")

/-- The fields of the sessions, in the order of `render_prometheus`. -/
def sessionFields : List SessionField :=
  [⟨"eiger_session_rss_bytes", "Browser process resident memory by session.",
      fun session => session.rssBytes.map Nat.repr⟩,
    ⟨"eiger_session_cpu_percent", "Browser process CPU percent by session.",
      fun session => session.cpuPercent.map CpuToken.text⟩,
    ⟨"eiger_session_processes", "Browser process-tree process count by session.",
      fun session => session.processCount.map Nat.repr⟩]

/-- `render_prometheus`. -/
def renderPrometheus (metrics : PoolMetrics) : String :=
  let output := metrics.values.foldl (fun output entry => output ++ entry.text) ""
  sessionFields.foldl (fun output field => output ++ field.text metrics.sessions) output

/-- The page is the texts of the values and the fields, one after the other. -/
theorem renderPrometheus_eq_join (metrics : PoolMetrics) : renderPrometheus metrics =
    String.join (metrics.values.map PoolValue.text ++
      sessionFields.map (·.text metrics.sessions)) := by
  rw [renderPrometheus, String.join, List.foldl_append, List.foldl_map, List.foldl_map]

/-! ## What is meant -/

/-- A value of the pool as a metric. -/
def PoolValue.metric (entry : PoolValue) : Metric :=
  ⟨entry.name, entry.help, entry.kind, [⟨[], Nat.repr entry.value⟩]⟩

/-- A value of a session, with its id and state. -/
def SessionMetric.sample (session : SessionMetric) (value : String) : Sample :=
  ⟨[("session", session.id), ("state", session.state)], value⟩

/-- A field of the sessions as a metric: a sample of each session that has it, in their order. -/
def SessionField.metric (field : SessionField) (sessions : List SessionMetric) : Metric :=
  ⟨field.name, field.help, "gauge",
    sessions.filterMap fun session => (field.value session).map session.sample⟩

namespace PoolMetrics

variable (metrics : PoolMetrics)

/-- The metrics that are to be read: the values of the pool, and the fields of the sessions. -/
def meant : List Metric :=
  metrics.values.map PoolValue.metric ++ sessionFields.map fun field =>
    field.metric metrics.sessions

end PoolMetrics

/-- Some field of the session is rendered. -/
def SessionMetric.reported (session : SessionMetric) : Bool :=
  session.rssBytes.isSome || session.cpuPercent.isSome || session.processCount.isSome

/-! ## Reading it -/

/-- A character of a label as it is written: a line feed as it is. -/
def labelWord (c : Char) : List Char := if c = '\n' then [c] else word c

/-- The two replacements write each character as its word. -/
theorem escapeLabel_toList (value : String) :
    (escapeLabel value).toList = value.toList.flatMap labelWord := by
  simp only [escapeLabel, replaceChar, String.toList_ofList, List.flatMap_assoc]
  refine List.flatMap_congr fun c _ => ?_
  unfold labelWord word
  split
  · next h =>
    subst h
    rfl
  · split
    · next h =>
      subst h
      rfl
    · next hfeed hbackslash => split <;> simp_all

/-- So any other character is written as it is to be. -/
theorem flatMap_labelWord {cs : List Char} (h : '\n' ∉ cs) : cs.flatMap labelWord = escape cs := by
  refine List.flatMap_congr fun c hc => if_neg ?_
  rintro rfl
  exact h hc

/-- A label without a line feed is written as it is to be. -/
theorem escapeLabel_plain {value : String} (h : '\n' ∉ value.toList) :
    (escapeLabel value).toList = escape value.toList := by
  rw [escapeLabel_toList, flatMap_labelWord h]

/-- A label is written as it is to be up to its first line feed. -/
theorem escapeLabel_feed {value : String} (h : '\n' ∈ value.toList) :
    ∃ front rest, (escapeLabel value).toList = escape front ++ '\n' :: rest := by
  obtain ⟨front, back, hvalue, hfront⟩ := List.eq_append_cons_of_mem h
  refine ⟨front, back.flatMap labelWord, ?_⟩
  rw [escapeLabel_toList, hvalue, List.flatMap_append, List.flatMap_cons, flatMap_labelWord hfront]
  rfl

/-- The line of a session, without its end. -/
def SessionField.chars (field : SessionField) (session : SessionMetric) (value : String) :
    List Char :=
  field.name.toList ++ "\x7bsession=\"".toList ++ (escapeLabel session.id).toList ++
    "\",state=\"".toList ++ (escapeLabel session.state).toList ++ "\"\x7d ".toList ++ value.toList

/-- The lines of a field, without their ends. -/
def SessionField.lines (field : SessionField) (sessions : List SessionMetric) : List (List Char) :=
  (field.metric sessions).helpLine :: (field.metric sessions).kindLine ::
    sessions.filterMap fun session => (field.value session).map (field.chars session)

/-- A loop that writes some lines for each element writes all the lines. -/
theorem foldl_toList {α : Type} {write : String → α → String} {lines : α → List (List Char)}
    (hwrite : ∀ output x, (write output x).toList = output.toList ++ unlines (lines x))
    (xs : List α) (output : String) :
    (xs.foldl write output).toList = output.toList ++ unlines (xs.flatMap lines) := by
  induction xs generalizing output with
  | nil => exact (List.append_nil _).symm
  | cons x xs ih =>
    rw [List.foldl_cons, ih, hwrite, List.flatMap_cons, unlines, unlines, unlines,
      List.flatMap_append, List.append_assoc]

/-- The end of a line. -/
theorem feed_toList : "\n".toList = ['\n'] := rfl

/-- The first two lines. -/
theorem describe_toList (metric : Metric) :
    (describe metric.name metric.help metric.kind).toList =
      unlines [metric.helpLine, metric.kindLine] := by
  have hlines : unlines [metric.helpLine, metric.kindLine] =
      metric.helpLine ++ ['\n'] ++ (metric.kindLine ++ ['\n']) := by
    simp only [unlines, List.flatMap_cons, List.flatMap_nil, List.append_nil]
  rw [hlines]
  unfold describe Metric.helpLine Metric.kindLine
  rw [← feed_toList]
  simp only [String.toList_append, List.append_assoc]

/-- The lines of a value of the pool are those that are to be written. -/
theorem PoolValue.text_toList (entry : PoolValue) :
    entry.text.toList = unlines entry.metric.lines := by
  have hdescribe : (describe entry.name entry.help entry.kind).toList =
      unlines [entry.metric.helpLine, entry.metric.kindLine] :=
    describe_toList entry.metric
  have hlines : unlines entry.metric.lines =
      unlines [entry.metric.helpLine, entry.metric.kindLine] ++
        (writeSample entry.name ⟨[], Nat.repr entry.value⟩ ++ ['\n']) := by
    simp only [Metric.lines, PoolValue.metric, unlines, List.map_cons, List.map_nil,
      List.flatMap_cons, List.flatMap_nil, List.append_assoc, List.append_nil]
  rw [hlines, PoolValue.text]
  simp only [String.toList_append, hdescribe, writeSample, if_true, feed_toList,
    List.append_assoc, List.nil_append]

/-- The lines of a field of the sessions. -/
theorem SessionField.text_toList (field : SessionField) (sessions : List SessionMetric) :
    (field.text sessions).toList = unlines (field.lines sessions) := by
  have hwrite : ∀ (output : String) (session : SessionMetric),
      (match field.value session with
        | some value => output ++ field.line session value
        | none => output).toList =
      output.toList ++ unlines ((field.value session).map (field.chars session)).toList := by
    intro output session
    cases field.value session with
    | none => exact (List.append_nil _).symm
    | some value =>
      simp only [SessionField.line, SessionField.chars, unlines, String.toList_append, feed_toList,
        Option.map_some, Option.toList_some, List.flatMap_cons, List.flatMap_nil,
        List.append_assoc, List.append_nil]
  have hdescribe : (describe field.name field.help "gauge").toList =
      unlines [(field.metric sessions).helpLine, (field.metric sessions).kindLine] :=
    describe_toList (field.metric sessions)
  rw [SessionField.text, foldl_toList hwrite, hdescribe, ← List.filterMap_eq_flatMap_toList]
  exact List.flatMap_append.symm

/-- The lines of the page. -/
def PoolMetrics.lines (metrics : PoolMetrics) : List (List Char) :=
  (metrics.values.flatMap fun entry => entry.metric.lines) ++
    sessionFields.flatMap fun field => field.lines metrics.sessions

/-- The page is written line by line. -/
theorem renderPrometheus_toList (metrics : PoolMetrics) :
    (renderPrometheus metrics).toList = unlines metrics.lines := by
  have hvalues : metrics.values.flatMap (fun entry => entry.text.toList) =
      metrics.values.flatMap fun entry => unlines entry.metric.lines :=
    List.flatMap_congr fun entry _ => entry.text_toList
  have hfields : sessionFields.flatMap (fun field => (field.text metrics.sessions).toList) =
      sessionFields.flatMap fun field => unlines (field.lines metrics.sessions) :=
    List.flatMap_congr fun field _ => field.text_toList metrics.sessions
  rw [renderPrometheus_eq_join, String.toList_join, List.flatMap_append, List.flatMap_map,
    List.flatMap_map, hvalues, hfields, PoolMetrics.lines, unlines, List.flatMap_append,
    List.flatMap_assoc, List.flatMap_assoc]
  rfl

/-! ## What can be written in lines -/

/-- A value that is printed in one line. -/
structure Printed (value : String) : Prop where
  nonempty : value.toList ≠ []
  line : '\n' ∉ value.toList

/-- A number is. -/
theorem printed_repr (n : Nat) : Printed (Nat.repr n) := by
  refine ⟨?_, not_mem_repr (by decide) n⟩
  rw [Nat.toList_repr]
  exact List.ne_nil_of_length_pos Nat.length_toDigits_pos

/-- So is each field of a session. -/
theorem printed_field : ∀ field ∈ sessionFields, ∀ session value,
    field.value session = some value → Printed value := by
  have hnumber : ∀ (n : Option Nat) value, n.map Nat.repr = some value → Printed value := by
    intro n value h
    obtain ⟨n, -, rfl⟩ := Option.map_eq_some_iff.1 h
    exact printed_repr n
  simp only [sessionFields, List.forall_mem_cons]
  refine ⟨fun _ => hnumber _, fun session value h => ?_, fun _ => hnumber _,
    fun _ h => absurd h List.not_mem_nil⟩
  obtain ⟨token, -, rfl⟩ := Option.map_eq_some_iff.1 h
  exact ⟨token.nonempty, token.line⟩

/-- The texts are such as a metric has. -/
def Described (name help kind : String) : Prop :=
  MetricName name ∧ ('\\' ∉ help.toList ∧ '\n' ∉ help.toList) ∧ kind ∈ kinds

/-- Texts are such where their characters are. -/
theorem described_ofList {name help : List Char} {kind : String} (hstarts : starts name = true)
    (hname : name.all isNameChar = true) (hhelp : '\\' ∉ help ∧ '\n' ∉ help)
    (hkind : kind ∈ kinds) : Described (.ofList name) (.ofList help) kind := by
  rw [List.all_eq_true] at hname
  rw [← @String.toList_ofList name] at hstarts hname
  rw [← @String.toList_ofList help] at hhelp
  exact ⟨⟨hstarts, hname⟩, hhelp, hkind⟩

/-- The values of the pool have such texts. -/
theorem values_described (metrics : PoolMetrics) :
    ∀ entry ∈ metrics.values, Described entry.name entry.help entry.kind := by
  simp only [PoolMetrics.values, List.forall_mem_cons, List.not_mem_nil, false_implies,
    implies_true, and_true]
  refine ⟨?_, ?_, ?_, ?_, ?_, ?_, ?_, ?_, ?_, ?_⟩
  all_goals exact described_ofList (by decide) (by decide) (by decide) (by decide)

/-- So have the fields of the sessions. -/
theorem fields_described :
    ∀ field ∈ sessionFields, Described field.name field.help "gauge" := by
  simp only [sessionFields, List.forall_mem_cons, List.not_mem_nil, false_implies,
    implies_true, and_true]
  refine ⟨?_, ?_, ?_⟩
  all_goals exact described_ofList (by decide) (by decide) (by decide) (by decide)

/-- The labels of a session have names. -/
theorem labelNames : LabelName "session" ∧ LabelName "state" := by decide

/-- The metrics that are meant can be written in lines. -/
theorem meant_plain (metrics : PoolMetrics) : ∀ metric ∈ metrics.meant, metric.Plain := by
  intro metric hmetric
  obtain hmetric | hmetric := List.mem_append.1 hmetric
  · obtain ⟨entry, hentry, rfl⟩ := List.mem_map.1 hmetric
    obtain ⟨hname, hhelp, hkind⟩ := values_described metrics entry hentry
    refine ⟨hname, hhelp, hkind, fun sample hsample => ?_⟩
    obtain rfl := List.mem_singleton.1 hsample
    exact ⟨fun _ h => absurd h List.not_mem_nil, (printed_repr _).nonempty, (printed_repr _).line⟩
  · obtain ⟨field, hfield, rfl⟩ := List.mem_map.1 hmetric
    obtain ⟨hname, hhelp, hkind⟩ := fields_described field hfield
    refine ⟨hname, hhelp, hkind, fun sample hsample => ?_⟩
    obtain ⟨session, -, hsession⟩ := List.mem_filterMap.1 hsample
    obtain ⟨value, hvalue, rfl⟩ := Option.map_eq_some_iff.1 hsession
    have hprinted := printed_field field hfield session value hvalue
    refine ⟨?_, hprinted.nonempty, hprinted.line⟩
    rw [SessionMetric.sample, List.forall_mem_cons, List.forall_mem_cons]
    exact ⟨labelNames.1, labelNames.2, fun _ h => absurd h List.not_mem_nil⟩

/-- They have different names. -/
theorem meant_nodup (metrics : PoolMetrics) :
    (metrics.meant.map Metric.name).Nodup := by
  simp only [PoolMetrics.meant, PoolMetrics.values, sessionFields,
    PoolValue.metric, SessionField.metric, List.map_cons, List.map_nil, List.cons_append,
    List.nil_append]
  decide

/-- The line of a session, in the parts of a sample. -/
theorem chars_parts (field : SessionField) (session : SessionMetric) (value : String) :
    field.chars session value = field.name.toList ++ ("\x7b".toList ++
      ("session".toList ++ ("=\"".toList ++ ((escapeLabel session.id).toList ++ ("\"".toList ++
        (",".toList ++ ("state".toList ++ ("=\"".toList ++ ((escapeLabel session.state).toList ++
          ("\"".toList ++ ("\x7d".toList ++ (" ".toList ++ value.toList)))))))))))) := by
  have hopen : "\x7bsession=\"".toList = "\x7b".toList ++ ("session".toList ++ "=\"".toList) := by
    decide
  have hnext : "\",state=\"".toList =
      "\"".toList ++ (",".toList ++ ("state".toList ++ "=\"".toList)) := by
    decide
  have hclose : "\"\x7d ".toList = "\"".toList ++ ("\x7d".toList ++ " ".toList) := by decide
  simp only [SessionField.chars, hopen, hnext, hclose, List.append_assoc]

/-- The line of a session without a line feed in its labels is the one that is meant. -/
theorem chars_eq (field : SessionField) {session : SessionMetric} (value : String)
    (hid : '\n' ∉ session.id.toList) (hstate : '\n' ∉ session.state.toList) :
    field.chars session value = writeSample field.name (session.sample value) := by
  rw [chars_parts, writeSample, SessionMetric.sample, if_neg (List.cons_ne_nil _ _),
    escapeLabel_plain hid, escapeLabel_plain hstate]
  simp only [writeLabels, writeLabel, List.append_assoc]

/-- A session is rendered where it has one of the fields. -/
theorem reported_iff (session : SessionMetric) :
    session.reported = true ↔
      ∃ field ∈ sessionFields, ∃ value, field.value session = some value := by
  simp only [← Option.isSome_iff_exists, sessionFields, List.exists_mem_cons_iff, List.not_mem_nil,
    false_and, exists_false, or_false, Option.isSome_map, SessionMetric.reported, Bool.or_eq_true,
    or_assoc]

/-- Without a line feed in a label that is rendered, the lines are those that are meant. -/
theorem lines_eq {metrics : PoolMetrics}
    (h : ∀ session ∈ metrics.sessions, session.reported = true →
      '\n' ∉ session.id.toList ∧ '\n' ∉ session.state.toList) :
    metrics.lines = metrics.meant.flatMap Metric.lines := by
  have hfield : ∀ field ∈ sessionFields,
      field.lines metrics.sessions = (field.metric metrics.sessions).lines := by
    intro field hfield
    rw [SessionField.lines, Metric.lines, SessionField.metric, List.map_filterMap]
    refine congrArg (_ :: _ :: ·) (List.filterMap_congr fun session hsession => ?_)
    cases hvalue : field.value session with
    | none => rfl
    | some value =>
      have hreported := (reported_iff session).2 ⟨field, hfield, value, hvalue⟩
      obtain ⟨hid, hstate⟩ := h session hsession hreported
      exact congrArg some (chars_eq field value hid hstate)
  rw [PoolMetrics.lines, PoolMetrics.meant, List.flatMap_append, List.flatMap_map,
    List.flatMap_map, List.flatMap_congr hfield]

/-- The line of a session with a line feed in a label breaks off before the label ends. -/
theorem chars_broken {field : SessionField} (hname : MetricName field.name)
    {session : SessionMetric} (value : String)
    (h : '\n' ∈ session.id.toList ∨ '\n' ∈ session.state.toList) :
    ∃ line, line ++ ['\n'] <+: field.chars session value ∧ '\n' ∉ line ∧
      ∀ families, readLine families line = none := by
  have hfeed : '\n' ∉ field.name.toList := hname.not_mem (by decide)
  have hopen : Scans (.inName []) (field.name.toList ++ "\x7b".toList)
      (.inLabel ⟨field.name.toList, []⟩ []) :=
    (scans_name hname).append (scans_nameEnd hname).1
  by_cases hid : '\n' ∈ session.id.toList
  · -- The line breaks off in the id.
    obtain ⟨front, rest, hlabel⟩ := escapeLabel_feed hid
    have hscans := hopen.append (scans_value_of_label labelNames.1 _ front)
    rw [List.append_assoc] at hscans
    refine ⟨_, ?_, ?_, fun families => readLine_inQuotes hname hscans⟩
    · rw [chars_parts, hlabel]
      simp only [List.append_assoc, List.cons_append, List.prefix_append_right_inj]
      exact ⟨_, rfl⟩
    · exact List.not_mem_append hfeed (List.not_mem_append (by decide)
        (List.not_mem_append (by decide) (not_mem_escape front)))
  · -- The id is written as it is to be, and the line breaks off in the state.
    obtain ⟨front, rest, hlabel⟩ := escapeLabel_feed (h.resolve_left hid)
    have hcomma : Scans (.afterQuotes ⟨field.name.toList, [] ++ [("session", session.id)]⟩)
        ",".toList (.inLabel ⟨field.name.toList, [] ++ [("session", session.id)]⟩ []) := rfl
    have hscans := hopen.append ((@scans_writeLabel ("session", session.id) labelNames.1 _).append
      (hcomma.append (scans_value_of_label labelNames.2 _ front)))
    rw [List.append_assoc] at hscans
    refine ⟨_, ?_, ?_, fun families => readLine_inQuotes hname hscans⟩
    · rw [chars_parts, hlabel, escapeLabel_plain hid]
      simp only [writeLabel, List.append_assoc, List.cons_append, List.prefix_append_right_inj]
      exact ⟨_, rfl⟩
    · exact List.not_mem_append hfeed (List.not_mem_append (by decide)
        (List.not_mem_append (not_mem_writeLabel labelNames.1)
          (List.not_mem_append (by decide)
            (List.not_mem_append (by decide) (not_mem_escape front)))))

/-- The page is not read where a label that is rendered has a line feed. -/
theorem parse_eq_none_of_feed {metrics : PoolMetrics} {session : SessionMetric}
    (hsession : session ∈ metrics.sessions) (hreported : session.reported = true)
    (h : '\n' ∈ session.id.toList ∨ '\n' ∈ session.state.toList) :
    parse (renderPrometheus metrics) = none := by
  obtain ⟨field, hfield, value, hvalue⟩ := (reported_iff session).1 hreported
  have hline : field.chars session value ∈ metrics.lines := by
    refine List.mem_append_right _ (List.mem_flatMap.2 ⟨field, hfield, ?_⟩)
    refine List.mem_cons_of_mem _ (List.mem_cons_of_mem _ (List.mem_filterMap.2 ?_))
    exact ⟨session, hsession, congrArg (Option.map _) hvalue⟩
  obtain ⟨line, ⟨rest, hbroken⟩, hfeed, hread⟩ :=
    chars_broken (fields_described field hfield).1 value h
  obtain ⟨before, after, hlines⟩ := List.append_of_mem hline
  refine @parse_eq_none _ before line (rest ++ '\n' :: unlines after) ?_ hfeed hread
  rw [renderPrometheus_toList, hlines, ← hbroken]
  simp only [unlines, List.flatMap_append, List.flatMap_cons, List.append_assoc, List.cons_append,
    List.nil_append]

/-- Otherwise it is read as what is meant. -/
theorem parse_eq_some {metrics : PoolMetrics}
    (h : ∀ session ∈ metrics.sessions, session.reported = true →
      '\n' ∉ session.id.toList ∧ '\n' ∉ session.state.toList) :
    parse (renderPrometheus metrics) = some (metrics.meant.map Metric.family) := by
  have hpage : renderPrometheus metrics =
      .ofList (unlines (metrics.meant.flatMap Metric.lines)) := by
    rw [← lines_eq h, ← renderPrometheus_toList, String.ofList_toList]
  rw [hpage]
  exact parse_document (meant_plain metrics) (meant_nodup metrics)

/-- The page is read as what is meant just if no label that is rendered has a line feed. -/
theorem parse_renderPrometheus_iff (metrics : PoolMetrics) :
    parse (renderPrometheus metrics) = some (metrics.meant.map Metric.family) ↔
      ∀ session ∈ metrics.sessions, session.reported = true →
        '\n' ∉ session.id.toList ∧ '\n' ∉ session.state.toList := by
  refine ⟨fun hparse session hsession hreported => ?_, parse_eq_some⟩
  refine not_or.1 fun hfeed => ?_
  rw [parse_eq_none_of_feed hsession hreported hfeed] at hparse
  cases hparse

/-- The page of a pool with one session, of which no CPU share is known. -/
example : renderPrometheus ⟨1, 4, 2, 1, 3, 4, 5, 6, 7, 8,
    [⟨"a\"b", "in_use", some 1000, none, some 3⟩]⟩ = String.join
    ["# HELP eiger_sessions_active Active browser sessions.\n" ++
        "# TYPE eiger_sessions_active gauge\n" ++
        "eiger_sessions_active 1\n",
      "# HELP eiger_sessions_max Maximum concurrently allowed browser sessions.\n" ++
        "# TYPE eiger_sessions_max gauge\n" ++
        "eiger_sessions_max 4\n",
      "# HELP eiger_sessions_created_total Browser sessions created.\n" ++
        "# TYPE eiger_sessions_created_total counter\n" ++
        "eiger_sessions_created_total 2\n",
      "# HELP eiger_sessions_hard_killed_total Browser sessions that required SIGKILL.\n" ++
        "# TYPE eiger_sessions_hard_killed_total counter\n" ++
        "eiger_sessions_hard_killed_total 1\n",
      "# HELP eiger_sessions_rejected_total Session requests rejected by capacity or timeout.\n" ++
        "# TYPE eiger_sessions_rejected_total counter\n" ++
        "eiger_sessions_rejected_total 3\n",
      "# HELP eiger_sessions_rss_limit_recycled_total " ++
          "Sessions recycled after exceeding their RSS ceiling.\n" ++
        "# TYPE eiger_sessions_rss_limit_recycled_total counter\n" ++
        "eiger_sessions_rss_limit_recycled_total 4\n",
      "# HELP eiger_sessions_idle_recycled_total Sessions recycled after idle timeout.\n" ++
        "# TYPE eiger_sessions_idle_recycled_total counter\n" ++
        "eiger_sessions_idle_recycled_total 5\n",
      "# HELP eiger_sessions_lifetime_recycled_total Sessions recycled after max lifetime.\n" ++
        "# TYPE eiger_sessions_lifetime_recycled_total counter\n" ++
        "eiger_sessions_lifetime_recycled_total 6\n",
      "# HELP eiger_sessions_process_exit_recycled_total " ++
          "Sessions recycled because their browser process exited.\n" ++
        "# TYPE eiger_sessions_process_exit_recycled_total counter\n" ++
        "eiger_sessions_process_exit_recycled_total 7\n",
      "# HELP eiger_sessions_cdp_unhealthy_recycled_total " ++
          "Sessions recycled after CDP health-check failure.\n" ++
        "# TYPE eiger_sessions_cdp_unhealthy_recycled_total counter\n" ++
        "eiger_sessions_cdp_unhealthy_recycled_total 8\n",
      "# HELP eiger_session_rss_bytes Browser process resident memory by session.\n" ++
        "# TYPE eiger_session_rss_bytes gauge\n" ++
        "eiger_session_rss_bytes\x7bsession=\"a\\\"b\",state=\"in_use\"\x7d 1000\n",
      "# HELP eiger_session_cpu_percent Browser process CPU percent by session.\n" ++
        "# TYPE eiger_session_cpu_percent gauge\n",
      "# HELP eiger_session_processes Browser process-tree process count by session.\n" ++
        "# TYPE eiger_session_processes gauge\n" ++
        "eiger_session_processes\x7bsession=\"a\\\"b\",state=\"in_use\"\x7d 3\n"] := by
  rw [renderPrometheus_eq_join]
  refine congrArg String.join ?_
  decide +kernel

/-- A line feed in the id of a session with a field makes a page that is not read. -/
theorem parse_renderPrometheus_feed :
    ¬ ∀ metrics : PoolMetrics,
      parse (renderPrometheus metrics) = some (metrics.meant.map Metric.family) := by
  intro h
  have hparse := h ⟨1, 4, 2, 1, 3, 4, 5, 6, 7, 8, [⟨"a\nb", "ready", some 1000, none, some 3⟩]⟩
  rw [parse_eq_none_of_feed List.mem_cons_self rfl (.inl (by decide))] at hparse
  cases hparse

end Eiger
