import Eiger.Api.Handlers
import Eiger.Lib.Markup

/-!
# The pages of the server

`view_sessions` writes a page with a row for each session: the cells of its fields and a link to its
developer tools. `escape_html` makes four replacements, each over what the one before has written;
the ampersand comes first, so that together they write each character once: `escapeHtml_toList`.
So a reader of the page finds the texts of the fields and the link as they were: `view_faithful`.

The page of `GET /metrics` is read back too: the ids and states that the pool reports have no line
feed (`parse_metricsPage`).
-/

namespace Eiger

open Text Json Markup

/-- `escape_html`. -/
def escapeHtml (value : String) : String :=
  replaceChar
    (replaceChar (replaceChar (replaceChar value '&' "&amp;") '<' "&lt;") '>' "&gt;") '"' "&quot;"

/-- `SessionState`'s `Display`. -/
def SessionState.text : SessionState → String
  | .launching => "launching"
  | .ready => "ready"
  | .inUse => "in_use"
  | .draining => "draining"
  | .killing => "killing"
  | .dead => "dead"

/-- How a CPU share is written with one decimal: in decimal digits, or as infinity or no number. -/
structure CpuFormat where
  text : Number → String
  written : ∀ share, ∀ c ∈ (text share).toList, c.isDigit = true ∨ c ∈ "-.infNaN".toList

example : Nonempty CpuFormat :=
  have hname : "NaN".toList <:+ "-.infNaN".toList := by decide
  ⟨fun _ => "NaN", fun _ _ hc => .inr (hname.subset hc)⟩

/-- The page up to its style sheet. -/
def viewHead : String :=
  "<!doctype html><html><head><meta charset=\"utf-8\">" ++ "<title>Eiger Sessions</title><style>"

/-- Its style sheet. -/
def viewStyle : String :=
  "body\x7bfont-family:system-ui,sans-serif;margin:24px;color:#111827\x7d" ++
    "table\x7bborder-collapse:collapse;width:100%\x7d" ++
    "th,td\x7bborder-bottom:1px solid #e5e7eb;padding:8px;text-align:left\x7d" ++
    "th\x7bfont-size:12px;text-transform:uppercase;color:#6b7280\x7d" ++
    "td\x7bfont-variant-numeric:tabular-nums\x7da\x7bcolor:#0369a1\x7d"

/-- The start of its table. -/
def viewTable : String :=
  "</style></head><body><h1>Sessions</h1>" ++ "<table><thead><tr><th>id</th><th>state</th>" ++
    "<th>age</th><th>idle</th><th>rss</th>" ++ "<th>cpu</th><th>pid</th><th>devtools</th>" ++
    "</tr></thead><tbody>"

/-- What `view_sessions` writes before the sessions. -/
def viewStart : String := viewHead ++ viewStyle ++ viewTable

/-- What it writes after them. -/
def viewEnd : String := "</tbody></table></body></html>"

/-- A cell of the page. -/
def cell (content : String) : String := "<td>" ++ content ++ "</td>"

/-- The cell of the link. -/
def linkCell (url : String) : String := "<td><a href=\"" ++ url ++ "\">devtools</a></td>"

section

variable (cpu : CpuFormat) (session : SessionInfo) (devtools : Option String)

/-- The row of a session, of which `session_devtools_link` has found this link, or none. -/
def sessionRow : String :=
  "<tr>" ++ cell (escapeHtml session.id.hyphenated) ++ cell (escapeHtml session.state.text) ++
    cell (Nat.repr session.ageSeconds) ++ cell (Nat.repr session.idleSeconds) ++
    cell ((session.rssBytes.map Nat.repr).getD "") ++
    cell ((session.cpuPercent.map cpu.text).getD "") ++ cell ((session.pid.map Nat.repr).getD "") ++
    linkCell (escapeHtml (devtools.getD "#")) ++ "</tr>"

/-- The page that `view_sessions` writes of the sessions with their links. -/
def sessionsPage (rows : List (SessionInfo × Option String)) : String :=
  rows.foldl (fun html row => html ++ sessionRow cpu row.1 row.2) viewStart ++ viewEnd

end

/-! ## Escaping -/

/-- The four replacements write each character as its word. -/
theorem escapeHtml_toList (value : String) :
    (escapeHtml value).toList = escape value.toList := by
  simp only [escapeHtml, replaceChar, String.toList_ofList, List.flatMap_assoc, escape]
  refine List.flatMap_congr fun c _ => ?_
  induction c using word_cases with
  | amp | lt | gt | quot => decide
  | plain c hamp hlt hgt hquot =>
    simp only [if_neg hamp, if_neg hlt, if_neg hgt, if_neg hquot, List.flatMap_cons,
      List.flatMap_nil, List.append_nil]

/-- What `escape_html` writes is safe and says what it was written for. -/
structure Faithful (value : String) : Prop where
  closes : ∀ c ∈ (escapeHtml value).toList, c ≠ '<' ∧ c ≠ '>' ∧ c ≠ '"'
  ampersands : ∀ rest, '&' :: rest <:+ (escapeHtml value).toList →
    ∃ reference ∈ references, reference <+: '&' :: rest
  decoded : String.ofList (decode (escapeHtml value).toList) = value

/-- So it is of every text. -/
theorem faithful (value : String) : Faithful value := by
  refine ⟨fun c hc => ?_, fun rest hrest => ?_, ?_⟩
  · rw [escapeHtml_toList] at hc
    obtain ⟨hlt, hgt, hquot⟩ := not_mem_escape value.toList
    exact ⟨fun h => hlt (h ▸ hc), fun h => hgt (h ▸ hc), fun h => hquot (h ▸ hc)⟩
  · rw [escapeHtml_toList] at hrest
    exact reference_of_amp hrest
  · rw [escapeHtml_toList, decode_escape, String.ofList_toList]

/-! ## Reading the page -/

/-- The tokens of a cell with this text. -/
def cellTokens (text : String) : List Token :=
  [.tag "td" []] ++ shown text ++ [.tag "/td" []]

/-- The tokens of the cell of a link. -/
def linkTokens (url : String) : List Token :=
  [.tag "td" [], .tag "a href=" [url], .text "devtools", .tag "/a" [], .tag "/td" []]

/-- A cell closes at its end, whatever is in it. -/
theorem reads_cell {content : String} (h : '<' ∉ content.toList) :
    Reads (.text []) (cell content).toList
      ([.tag "td" []] ++ textTokens content.toList ++ [.tag "/td" []]) (.text []) := by
  have hopen : Reads (.text []) "<td>".toList [.tag "td" []] (.text []) := rfl
  have hclose : Reads (.text content.toList) "</td>".toList
      (textTokens content.toList ++ [.tag "/td" []]) (.text []) := rfl
  rw [cell, String.toList_append, String.toList_append, List.append_assoc, List.append_assoc]
  exact hopen.append ((reads_whole_text h).append hclose)

/-- A field that is escaped is read as it was. -/
theorem reads_escaped (text : String) :
    Reads (.text []) (cell (escapeHtml text)).toList (cellTokens text) (.text []) := by
  rw [cellTokens, ← textTokens_escape, ← escapeHtml_toList]
  refine reads_cell ?_
  rw [escapeHtml_toList]
  exact (not_mem_escape text.toList).1

/-- So is a field without a character of the markup. -/
theorem reads_plain {text : String} (hlt : '<' ∉ text.toList) (hamp : '&' ∉ text.toList) :
    Reads (.text []) (cell text).toList (cellTokens text) (.text []) := by
  rw [cellTokens, ← textTokens_plain hamp]
  exact reads_cell hlt

/-- The link is read as it was. -/
theorem reads_link (url : String) :
    Reads (.text []) (linkCell (escapeHtml url)).toList (linkTokens url) (.text []) := by
  have hopen : Reads (.text []) "<td><a href=\"".toList [.tag "td" []]
      (.value "a href=".toList [] []) := rfl
  have hvalue : Reads (.value "a href=".toList [] []) (escape url.toList) []
      (.value "a href=".toList [] (escape url.toList)) :=
    reads_value (not_mem_escape url.toList).2.2 [] []
  have hclose : Reads (.value "a href=".toList [] (escape url.toList))
      "\">devtools</a></td>".toList
      [.tag "a href=" [.ofList (decode (escape url.toList))], .text "devtools", .tag "/a" [],
        .tag "/td" []] (.text []) := rfl
  rw [decode_escape, String.ofList_toList] at hclose
  unfold linkCell
  rw [String.toList_append, String.toList_append, escapeHtml_toList, List.append_assoc]
  exact hopen.append (hvalue.append hclose)

/-- So is a number, and nothing in place of one. -/
theorem reads_number (n : Option Nat) :
    Reads (.text []) (cell ((n.map Nat.repr).getD "")).toList
      (cellTokens ((n.map Nat.repr).getD "")) (.text []) := by
  cases n with
  | none => exact reads_plain List.not_mem_nil List.not_mem_nil
  | some n => exact reads_plain (not_mem_repr (by decide) n) (not_mem_repr (by decide) n)

section

variable (cpu : CpuFormat)

/-- So is a CPU share. -/
theorem reads_cpu (share : Option Number) :
    Reads (.text []) (cell ((share.map cpu.text).getD "")).toList
      (cellTokens ((share.map cpu.text).getD "")) (.text []) := by
  cases share with
  | none => exact reads_plain List.not_mem_nil List.not_mem_nil
  | some share =>
    have hplain : ∀ c : Char, c.isDigit = false → c ∉ "-.infNaN".toList →
        c ∉ (cpu.text share).toList := by
      intro c hdigit hother hc
      obtain h | h := cpu.written share c hc
      · exact Bool.false_ne_true (hdigit.symm.trans h)
      · exact hother h
    exact reads_plain (hplain '<' (by decide) (by decide)) (hplain '&' (by decide) (by decide))

/-- The tokens of the row of a session. -/
def rowTokens (session : SessionInfo) (devtools : Option String) : List Token :=
  [.tag "tr" []] ++ cellTokens session.id.hyphenated ++ cellTokens session.state.text ++
    cellTokens (Nat.repr session.ageSeconds) ++ cellTokens (Nat.repr session.idleSeconds) ++
    cellTokens ((session.rssBytes.map Nat.repr).getD "") ++
    cellTokens ((session.cpuPercent.map cpu.text).getD "") ++
    cellTokens ((session.pid.map Nat.repr).getD "") ++ linkTokens (devtools.getD "#") ++
    [.tag "/tr" []]

/-- A row is read with its fields and its link as they were. -/
theorem reads_row (session : SessionInfo) (devtools : Option String) :
    Reads (.text []) (sessionRow cpu session devtools).toList (rowTokens cpu session devtools)
      (.text []) := by
  have hopen : Reads (.text []) "<tr>".toList [.tag "tr" []] (.text []) := rfl
  have hclose : Reads (.text []) "</tr>".toList [.tag "/tr" []] (.text []) := rfl
  unfold sessionRow
  rw [String.toList_append, String.toList_append, String.toList_append, String.toList_append,
    String.toList_append, String.toList_append, String.toList_append, String.toList_append,
    String.toList_append]
  exact ((((((((hopen.append (reads_escaped _)).append (reads_escaped _)).append
    (reads_number (some _))).append (reads_number (some _))).append (reads_number _)).append
    (reads_cpu cpu _)).append (reads_number _)).append (reads_link _)).append hclose

/-- So are the rows, after whatever has been read. -/
theorem reads_rows (rows : List (SessionInfo × Option String)) {html : String} {ts : List Token}
    (h : Reads (.text []) html.toList ts (.text [])) :
    Reads (.text [])
      (rows.foldl (fun html row => html ++ sessionRow cpu row.1 row.2) html).toList
      (ts ++ rows.flatMap fun row => rowTokens cpu row.1 row.2) (.text []) := by
  induction rows generalizing html ts with
  | nil =>
    rw [List.flatMap_nil, List.append_nil]
    exact h
  | cons row rows ih =>
    rw [List.foldl_cons, List.flatMap_cons, ← List.append_assoc]
    refine ih ?_
    rw [String.toList_append]
    exact h.append (reads_row cpu row.1 row.2)

end

/-- The style sheet is a text. -/
theorem not_mem_viewStyle : '<' ∉ viewStyle.toList := by
  unfold viewStyle
  rw [String.toList_append, String.toList_append, String.toList_append, String.toList_append]
  refine List.not_mem_append (List.not_mem_append (List.not_mem_append
    (List.not_mem_append ?_ ?_) ?_) ?_) ?_
  all_goals
    rw [String.toList_ofList]
    decide

/-- What is before it leaves nothing open. -/
theorem viewHead_closed : (read (.text []) viewHead.toList).2 = .text [] := by
  unfold viewHead
  rw [String.toList_append]
  refine closed_append ?_ ?_
  all_goals
    rw [String.toList_ofList]
    decide

/-- Nor does what is after it. -/
theorem viewTable_closed : (read (.text []) viewTable.toList).2 = .text [] := by
  unfold viewTable
  rw [String.toList_append, String.toList_append, String.toList_append, String.toList_append]
  refine closed_append (closed_append (closed_append (closed_append ?_ ?_) ?_) ?_) ?_
  all_goals
    rw [String.toList_ofList]
    decide

/-- The start of the page is read up to a text that is empty. -/
theorem reads_viewStart : ∃ ts, Reads (.text []) viewStart.toList ts (.text []) := by
  have hopens : viewTable.toList.head? = some '<' := by
    unfold viewTable
    rw [String.toList_append, String.toList_append, String.toList_append, String.toList_append,
      String.toList_ofList]
    rfl
  have hopened : (read (.text viewStyle.toList) viewTable.toList).2 = .text [] :=
    (read_opened hopens _).trans viewTable_closed
  have hreads := ((reads_of_closed viewHead_closed).append
    (reads_whole_text not_mem_viewStyle)).append (reads_of_closed hopened)
  rw [← String.toList_append, ← String.toList_append] at hreads
  exact ⟨_, hreads⟩

/-- Every text is escaped faithfully, and the page is read with each session's fields and link as
they were, in the order of the sessions: no field ends its cell, and no link its value. -/
theorem view_faithful (cpu : CpuFormat) :
    (∀ value, Faithful value) ∧ ∀ rows : List (SessionInfo × Option String),
      tokens (sessionsPage cpu rows) =
        tokens viewStart ++ (rows.flatMap fun row => rowTokens cpu row.1 row.2) ++
          tokens viewEnd := by
  refine ⟨faithful, fun rows => tokens_of_reads ?_⟩
  have hstart : Reads (.text []) viewStart.toList (tokens viewStart) (.text []) := by
    obtain ⟨ts, hread⟩ := reads_viewStart
    rwa [← tokens_of_reads hread] at hread
  have hend : Reads (.text []) viewEnd.toList (tokens viewEnd) (.text []) := rfl
  rw [sessionsPage, String.toList_append]
  exact (reads_rows cpu rows hstart).append hend

/-! ## The metrics page -/

/-- The `SessionMetric` that `SessionPool::metrics` makes of a session. -/
def SessionInfo.metric (cpu : Number → CpuToken) (info : SessionInfo) : SessionMetric :=
  ⟨info.id.hyphenated, info.state.text, info.rssBytes, info.cpuPercent.map cpu, info.processCount⟩

/-- `SessionPool::metrics`: what the memory counts, with the sessions as they are listed. -/
def SessionPool.metrics (pool : SessionPool) (m : Memory) (cpu : Number → CpuToken)
    (sessions : List SessionInfo) : PoolMetrics where
  activeSessions := m.sessions.card
  maxConcurrentSessions := pool.options.maxConcurrentSessions
  sessionsCreatedTotal := m.sessionsCreatedTotal
  sessionsHardKilledTotal := m.sessionsHardKilledTotal
  sessionsRejectedTotal := m.sessionsRejectedTotal
  sessionsRssLimitRecycledTotal := m.recycledTotal .rssLimit
  sessionsIdleRecycledTotal := m.recycledTotal .idle
  sessionsLifetimeRecycledTotal := m.recycledTotal .lifetime
  sessionsProcessExitRecycledTotal := m.recycledTotal .processExit
  sessionsCdpUnhealthyRecycledTotal := m.recycledTotal .cdpUnhealthy
  sessions := sessions.map (SessionInfo.metric cpu)

/-- Whatever the pool counts and lists, the page of it is read as what is meant. -/
theorem parse_metricsPage (pool : SessionPool) (m : Memory) (cpu : Number → CpuToken)
    (sessions : List SessionInfo) :
    Exposition.parse (renderPrometheus (pool.metrics m cpu sessions)) =
      some ((pool.metrics m cpu sessions).meant.map Exposition.Metric.family) := by
  have hdigit : ∀ n < 16, Nat.digitChar n ≠ '\n' := by decide
  refine parse_eq_some fun session hsession _ => ?_
  obtain ⟨info, -, rfl⟩ := List.mem_map.1 hsession
  constructor
  · intro hfeed
    obtain h | ⟨n, hn, h⟩ := mem_hyphenated hfeed
    · cases h
    · exact hdigit n hn h.symm
  · show '\n' ∉ info.state.text.toList
    cases info.state <;> decide

end Eiger
