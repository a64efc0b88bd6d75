import Eiger.Browser.Launch

/-!
# The port file while it is written

Chrome does not write `DevToolsActivePort` at once: `read_devtools_port` may find any part of its
text. Some of the digits are read as a port, only that it is another one, where nobody serves HTTP,
and the wait goes on. Of the empty text there is no first line, and that is an error, which
`wait_until_ready` returns: `portFile_ready_iff`.
-/

namespace Eiger

open Json Text

/-! ## What is read of a part of the file -/

/-- What has been written of the text of the port file names some port, as soon as it is not
empty. -/
theorem readDevtoolsPort_part {port : Nat} (hport : port < 2 ^ 16) {path text : String}
    (htext : text.toList <+: (Nat.repr port ++ "\n" ++ path).toList) (hne : text ≠ "") :
    ∃ other, readDevtoolsPort (.contents text) = .ok (some other) := by
  have hfull : (Nat.repr port ++ "\n" ++ path).toList =
      (Nat.repr port).toList ++ '\n' :: path.toList := by
    simp [String.toList_append]
  have hnoFeed : ∀ digits : List Char, digits <+: (Nat.repr port).toList → '\n' ∉ digits :=
    fun digits hdigits hmem => not_mem_repr (by decide) port (hdigits.subset hmem)
  rw [hfull] at htext
  obtain hdigits | ⟨more, hmore⟩ :=
    List.prefix_or_prefix_of_prefix htext (List.prefix_append (Nat.repr port).toList _)
  · -- Some of the digits: they are the first line, and a number.
    obtain ⟨other, hother⟩ := parseUnsigned_digits hport hdigits
      fun h => hne (String.toList_inj.1 h)
    rw [String.ofList_toList] at hother
    refine ⟨other, ?_⟩
    rw [readDevtoolsPort, firstLine_single hne (hnoFeed _ hdigits)]
    simp only
    rw [hother]
  · -- All of them: they are the first line whatever comes next.
    refine ⟨port, ?_⟩
    rw [← hmore, List.prefix_append_right_inj] at htext
    cases more with
    | nil =>
      have htext : text = Nat.repr port := by rw [← String.toList_inj, ← hmore, List.append_nil]
      rw [readDevtoolsPort, firstLine_single hne (htext ▸ hnoFeed _ (List.prefix_refl _))]
      simp only
      rw [htext, parseUnsigned_repr hport]
    | cons c more =>
      obtain ⟨rfl, -⟩ := List.cons_prefix_cons.1 htext
      have htext : text = Nat.repr port ++ "\n" ++ String.ofList more := by
        rw [← String.toList_inj, ← hmore]
        simp [String.toList_append]
      rw [htext]
      exact readDevtoolsPort_written hport (String.ofList more)

/-! ## The polls of a start -/

/-- A listener does what the browser that starts does: it responds with no success yet, or with the
URL of an endpoint which is well. -/
def Listener.Starts (json : Codec) (listener : Listener) : Prop :=
  listener.reply = some .failed ∨ listener.reply = some .unsuccessful ∨
    ∃ endpoint, listener.reply = some (.version endpoint) ∧ endpoint.Answers json (.fromSecs 2)

/-- A listener does not serve HTTP: what it sends is no response, or it sends nothing. -/
def Listener.Foreign (listener : Listener) : Prop :=
  listener.reply = some .failed ∨ listener.reply = none

/-- A poll of a start: there is time, the child is alive, the file is absent or has a part of the
text that the child writes, and only the child's port serves HTTP. -/
structure Poll.Starting (json : Codec) (child : ProcessId) (port : Nat) (path : String)
    (poll : Poll) : Prop where
  unexpired : poll.expired = false
  alive : poll.exit = .ok none
  file : poll.file = .notFound ∨
    ∃ text, poll.file = .contents text ∧ text.toList <+: (Nat.repr port ++ "\n" ++ path).toList
  own : ∀ listener ∈ poll.listener port, listener.process = child ∧ listener.Starts json
  others : ∀ other, other ≠ port → ∀ listener ∈ poll.listener other, listener.Foreign

/-- The wait ends with the endpoint of the port. -/
def EndsAt (json : Codec) (urls : BrowserUrls) (launchTimeout : Duration) (child : ProcessId)
    (port : Nat) (polls : List Poll) : Prop :=
  ∃ rest, waitUntilReady json urls launchTimeout polls =
    some (.ok ⟨"http://127.0.0.1:" ++ Nat.repr port, urls.url child⟩, rest)

/-- A poll finds the file empty, or in it a port at which a connection is accepted and nothing is
ever sent. -/
def Poll.Spoilt (poll : Poll) : Prop :=
  poll.file = .contents "" ∨
    ∃ port listener, readDevtoolsPort poll.file = .ok (some port) ∧
      poll.listener port = some listener ∧ listener.reply = none

/-- No poll is spoilt, up to the first that is answered. -/
def Unspoilt (json : Codec) (child : ProcessId) (polls : List Poll) : Prop :=
  ∀ early poll late, polls = early ++ poll :: late →
    (∀ poll ∈ early, ¬ poll.AnsweredBy json child) → ¬ poll.Spoilt

section

variable {json : Codec} {urls : BrowserUrls} {launchTimeout : Duration} {child : ProcessId}
  {port : Nat} {path : String}

/-- The first of the polls, and the others unless it is answered. -/
theorem unspoilt_cons {poll : Poll} {polls : List Poll} :
    Unspoilt json child (poll :: polls) ↔
      ¬ poll.Spoilt ∧ (¬ poll.AnsweredBy json child → Unspoilt json child polls) := by
  constructor
  · intro h
    refine ⟨h [] poll polls rfl nofun, ?_⟩
    rintro hanswered early later late rfl hearly
    exact h (poll :: early) later late rfl (List.forall_mem_cons.2 ⟨hanswered, hearly⟩)
  · rintro ⟨hpoll, hpolls⟩ (_ | ⟨first, early⟩) later late heq hearly
    · cases heq
      exact hpoll
    · cases heq
      rw [List.forall_mem_cons] at hearly
      exact hpolls hearly.1 early later late rfl hearly.2

/-- A turn at which the child is alive and there is time, where no port is read. -/
theorem Poll.Starting.turn_unread {poll : Poll} (h : poll.Starting json child port path) :
    (readDevtoolsPort poll.file = .ok none → poll.turn json urls launchTimeout = .again) ∧
    ∀ error, readDevtoolsPort poll.file = .error error →
      poll.turn json urls launchTimeout = .ended (.error error) := by
  rw [Poll.turn, h.unexpired, h.alive]
  simp only [Bool.false_eq_true, if_false]
  refine ⟨fun hread => ?_, fun error hread => ?_⟩
  · rw [hread]
  · rw [hread]

/-- Such a turn where a port is read: it depends on who listens there. -/
theorem Poll.Starting.turn_read {poll : Poll} (h : poll.Starting json child port path)
    {other : Nat} (hread : readDevtoolsPort poll.file = .ok (some other)) :
    (poll.listener other = none → poll.turn json urls launchTimeout = .again) ∧
    ∀ listener, poll.listener other = some listener →
      (listener.reply = none → poll.turn json urls launchTimeout = .never) ∧
      (listener.reply = some .failed → poll.turn json urls launchTimeout = .again) ∧
      (listener.reply = some .unsuccessful → poll.turn json urls launchTimeout = .again) ∧
      ∀ endpoint, listener.reply = some (.version endpoint) →
        endpoint.Answers json (.fromSecs 2) → poll.turn json urls launchTimeout =
          .ended (.ok ⟨"http://127.0.0.1:" ++ Nat.repr other, urls.url listener.process⟩) := by
  rw [Poll.turn, h.unexpired, h.alive]
  simp only [Bool.false_eq_true, if_false]
  rw [hread]
  simp only
  refine ⟨fun hlistener => ?_, fun listener hlistener => ⟨?_, ?_, ?_, ?_⟩⟩
  · rw [hlistener]
  all_goals
    rw [hlistener]
    simp only
  · intro hreply
    rw [hreply]
  · intro hreply
    rw [hreply]
  · intro hreply
    rw [hreply]
  · intro endpoint hreply hanswers
    rw [hreply]
    simp only
    rw [healthCheckBrowserWs_value_iff.2 hanswers]

/-- A poll that reads no port is not answered, and not spoilt unless the file is empty. -/
theorem Poll.not_answeredBy {poll : Poll} {process : ProcessId}
    (hread : ∀ other, readDevtoolsPort poll.file ≠ .ok (some other)) :
    ¬ poll.AnsweredBy json process ∧ (poll.Spoilt ↔ poll.file = .contents "") := by
  refine ⟨?_, ?_, .inl⟩
  · rintro ⟨other, -, hother, -⟩
    exact hread other hother
  · rintro (hempty | ⟨other, -, hother, -⟩)
    · exact hempty
    · exact (hread other hother).elim

/-- What becomes of a poll which reads a port in the file: it is spoilt if it gets no reply,
answered if that is the child's and well, and followed by another poll otherwise. -/
theorem Poll.Starting.turn_cases {poll : Poll} (h : poll.Starting json child port path)
    {other : Nat} (hread : readDevtoolsPort poll.file = .ok (some other)) :
    (poll.Spoilt ∧ poll.turn json urls launchTimeout = .never) ∨
    (¬ poll.Spoilt ∧ poll.AnsweredBy json child ∧ poll.turn json urls launchTimeout =
      .ended (.ok ⟨"http://127.0.0.1:" ++ Nat.repr port, urls.url child⟩)) ∨
    (¬ poll.Spoilt ∧ ¬ poll.AnsweredBy json child ∧
      poll.turn json urls launchTimeout = .again) := by
  have hcontents : poll.file ≠ .contents "" := by
    intro hempty
    rw [hempty] at hread
    cases hread
  have hspoilt : poll.Spoilt ↔
      ∃ listener, poll.listener other = some listener ∧ listener.reply = none := by
    constructor
    · rintro (hempty | ⟨port', listener, hport', hlistener⟩)
      · exact (hcontents hempty).elim
      · rw [hread] at hport'
        cases hport'
        exact ⟨listener, hlistener⟩
    · rintro ⟨listener, hlistener⟩
      exact .inr ⟨other, listener, hread, hlistener⟩
  have hanswered : poll.AnsweredBy json child ↔ ∃ endpoint,
      poll.listener other = some ⟨child, some (.version endpoint)⟩ ∧
        endpoint.Answers json (.fromSecs 2) := by
    constructor
    · rintro ⟨port', endpoint, hport', hlistener⟩
      rw [hread] at hport'
      cases hport'
      exact ⟨endpoint, hlistener⟩
    · rintro ⟨endpoint, hlistener⟩
      exact ⟨other, endpoint, hread, hlistener⟩
  obtain ⟨hnone, hsome⟩ := h.turn_read hread
  rw [hspoilt, hanswered]
  cases hlistener : poll.listener other with
  | none =>
    refine .inr (.inr ⟨?_, ?_, hnone hlistener⟩)
    · rintro ⟨listener, hlistener, -⟩
      cases hlistener
    · rintro ⟨endpoint, hlistener, -⟩
      cases hlistener
  | some listener =>
    obtain ⟨process, reply⟩ := listener
    obtain ⟨hsilent, hfailed, hunsuccessful, hversion⟩ := hsome _ hlistener
    have hreply : reply = none ∨ (reply = some .failed ∨ reply = some .unsuccessful) ∨
        (other = port ∧ process = child ∧
          ∃ endpoint, reply = some (.version endpoint) ∧ endpoint.Answers json (.fromSecs 2)) := by
      obtain rfl | hother := eq_or_ne other port
      · obtain ⟨hprocess, hstarts⟩ := h.own _ hlistener
        obtain hstarts | hstarts | hstarts := hstarts
        · exact .inr (.inl (.inl hstarts))
        · exact .inr (.inl (.inr hstarts))
        · exact .inr (.inr ⟨rfl, hprocess, hstarts⟩)
      · obtain hforeign | hforeign := h.others other hother _ hlistener
        · exact .inr (.inl (.inl hforeign))
        · exact .inl hforeign
    obtain rfl | hagain | ⟨rfl, rfl, endpoint, rfl, hanswers⟩ := hreply
    · exact .inl ⟨⟨_, rfl, rfl⟩, hsilent rfl⟩
    · refine .inr (.inr ⟨?_, ?_, hagain.elim hfailed hunsuccessful⟩)
      · rintro ⟨_, heq, hsilent⟩
        cases heq
        obtain rfl | rfl := hagain <;> cases hsilent
      · rintro ⟨endpoint, heq, -⟩
        cases heq
        obtain hagain | hagain := hagain <;> cases hagain
    · refine .inr (.inl ⟨?_, ⟨endpoint, rfl, hanswers⟩, hversion endpoint rfl hanswers⟩)
      rintro ⟨_, heq, hsilent⟩
      cases heq
      cases hsilent

/-- A turn of a start: a spoilt poll ends the wait with an error, or is never over; one that is
answered ends it with the endpoint; and any other is followed by another poll. -/
theorem Poll.Starting.turn {poll : Poll} (hport : port < 2 ^ 16)
    (h : poll.Starting json child port path) :
    (poll.Spoilt ∧ (poll.turn json urls launchTimeout = .never ∨
      ∃ error, poll.turn json urls launchTimeout = .ended (.error error))) ∨
    (¬ poll.Spoilt ∧ poll.AnsweredBy json child ∧ poll.turn json urls launchTimeout =
      .ended (.ok ⟨"http://127.0.0.1:" ++ Nat.repr port, urls.url child⟩)) ∨
    (¬ poll.Spoilt ∧ ¬ poll.AnsweredBy json child ∧
      poll.turn json urls launchTimeout = .again) := by
  obtain hfile | ⟨text, hfile, htext⟩ := h.file
  · have hread : readDevtoolsPort poll.file = .ok none := by rw [hfile]; rfl
    have hnone : ∀ other, readDevtoolsPort poll.file ≠ .ok (some other) := by
      intro other hother
      rw [hread] at hother
      cases hother
    obtain ⟨hanswered, hspoilt⟩ := @Poll.not_answeredBy json poll child hnone
    rw [hspoilt, hfile]
    exact .inr (.inr ⟨nofun, hanswered, h.turn_unread.1 hread⟩)
  · obtain rfl | hne := eq_or_ne text ""
    · have hread : readDevtoolsPort poll.file = .error (.invalidDevtoolsPort "") := by
        rw [hfile]
        rfl
      exact .inl ⟨.inl hfile, .inr ⟨_, h.turn_unread.2 _ hread⟩⟩
    · obtain ⟨other, hread⟩ := readDevtoolsPort_part hport htext hne
      rw [← hfile] at hread
      obtain ⟨hspoilt, hnever⟩ | hcases := h.turn_cases hread
      · exact .inl ⟨hspoilt, .inl hnever⟩
      · exact .inr hcases

/-- A poll that finds the whole text, and the child's endpoint at its port, ends the wait. -/
theorem Poll.Starting.turn_whole {poll : Poll} {endpoint : Endpoint}
    (h : poll.Starting json child port path) (hport : port < 2 ^ 16)
    (hfile : poll.file = devtoolsActivePort port path)
    (hlistener : poll.listener port = some ⟨child, some (.version endpoint)⟩)
    (hanswers : endpoint.Answers json (.fromSecs 2)) :
    poll.turn json urls launchTimeout =
      .ended (.ok ⟨"http://127.0.0.1:" ++ Nat.repr port, urls.url child⟩) := by
  have hread : readDevtoolsPort poll.file = .ok (some port) := by
    rw [hfile]
    exact readDevtoolsPort_written hport path
  exact ((h.turn_read hread).2 _ hlistener).2.2.2 endpoint rfl hanswers

end

/-- However the child writes its port file, and whenever it comes to serve its port, the wait ends
with the endpoint of that port exactly if no poll up to the first that is answered finds the file
empty, or in it a port which accepts a connection and never replies. -/
theorem portFile_ready_iff (json : Codec) (urls : BrowserUrls) (launchTimeout : Duration)
    (child : ProcessId) (port : Nat) (path : String) (hport : port < 2 ^ 16)
    (partly : List Poll) (whole : Poll) (rest : List Poll) (endpoint : Endpoint)
    (hpartly : ∀ poll ∈ partly, poll.Starting json child port path)
    (hwhole : whole.Starting json child port path)
    (hfile : whole.file = devtoolsActivePort port path)
    (hlistener : whole.listener port = some ⟨child, some (.version endpoint)⟩)
    (hanswers : endpoint.Answers json (.fromSecs 2)) :
    EndsAt json urls launchTimeout child port (partly ++ whole :: rest) ↔
      Unspoilt json child partly := by
  induction partly with
  | nil =>
    refine ⟨fun _ early poll late heq => ?_, fun _ => ⟨rest, ?_⟩⟩
    · cases early <;> cases heq
    · rw [List.nil_append, waitUntilReady, hwhole.turn_whole hport hfile hlistener hanswers]
  | cons first partly ih =>
    rw [List.forall_mem_cons] at hpartly
    rw [unspoilt_cons]
    obtain ⟨hspoilt, hturn⟩ | ⟨hspoilt, hanswered, hturn⟩ | ⟨hspoilt, hanswered, hturn⟩ :=
      @Poll.Starting.turn json urls launchTimeout child port path first hport hpartly.1
    · refine ⟨?_, fun h => (h.1 hspoilt).elim⟩
      rintro ⟨left, hready⟩
      rw [List.cons_append, waitUntilReady] at hready
      obtain hturn | ⟨error, hturn⟩ := hturn
      · rw [hturn] at hready
        cases hready
      · rw [hturn] at hready
        cases hready
    · refine ⟨fun _ => ⟨hspoilt, fun h => (h hanswered).elim⟩, fun _ => ?_⟩
      refine ⟨partly ++ whole :: rest, ?_⟩
      rw [List.cons_append, waitUntilReady, hturn]
    · have hnext : EndsAt json urls launchTimeout child port (first :: partly ++ whole :: rest) ↔
          EndsAt json urls launchTimeout child port (partly ++ whole :: rest) := by
        rw [EndsAt, List.cons_append, waitUntilReady, hturn]
        rfl
      rw [hnext, ih hpartly.2]
      exact ⟨fun h => ⟨hspoilt, fun _ => h⟩, fun h => h.2 hanswered⟩

/-! ## A file that has just been created -/

/-- A poll of the start of process 8, which gets the port 40001, at this state of its file. -/
def portFilePoll (file : FileRead) : Poll :=
  { expired := false
    exit := .ok none
    file
    listener := fun port =>
      if port = 40001 then some ⟨8, some (.version healthyEndpoint)⟩ else none }

/-- What the port file of process 8 becomes. -/
def portFileWhole : FileRead := devtoolsActivePort 40001 "/devtools/browser/8"

/-- The endpoint in the examples is well. -/
theorem healthyEndpoint_answers : healthyEndpoint.Answers targetsCodec (.fromSecs 2) :=
  healthCheckBrowserWs_value_iff.1 rfl

/-- Such a poll is one of a start, at every part of the text. -/
theorem portFilePoll_starting {file : FileRead} (h : file = .notFound ∨ ∃ text,
    file = .contents text ∧
      text.toList <+: (Nat.repr 40001 ++ "\n" ++ "/devtools/browser/8").toList) :
    (portFilePoll file).Starting targetsCodec 8 40001 "/devtools/browser/8" where
  unexpired := rfl
  alive := rfl
  file := h
  own := by
    rintro listener hlistener
    cases hlistener
    exact ⟨rfl, .inr (.inr ⟨healthyEndpoint, rfl, healthyEndpoint_answers⟩)⟩
  others := by
    intro other hother listener hlistener
    have hnone : (portFilePoll file).listener other = none := if_neg hother
    rw [hnone] at hlistener
    cases hlistener

/-- The wait survives a poll that finds two of the digits. -/
theorem portFile_ready_digits :
    EndsAt targetsCodec exampleUrls (.fromSecs 10) 8 40001
      ([portFilePoll (.contents "40")] ++ [portFilePoll portFileWhole]) ↔
    Unspoilt targetsCodec 8 [portFilePoll (.contents "40")] := by
  refine portFile_ready_iff _ _ _ _ _ "/devtools/browser/8" (by decide) _ _ _ healthyEndpoint
    ?_ (portFilePoll_starting (.inr ⟨_, rfl, List.prefix_refl _⟩)) rfl rfl healthyEndpoint_answers
  rintro poll hpoll
  rw [List.mem_singleton.1 hpoll]
  exact portFilePoll_starting (.inr ⟨"40", rfl, ⟨_, rfl⟩⟩)

/-- A poll between the creation of the file and the first write to it ends the launch with an error,
with the child alive and about to be ready. -/
theorem portFile_aborted :
    (∀ poll ∈ [portFilePoll (.contents ""), portFilePoll portFileWhole],
      poll.Starting targetsCodec 8 40001 "/devtools/browser/8") ∧
    waitUntilReady targetsCodec exampleUrls (.fromSecs 10)
      [portFilePoll (.contents ""), portFilePoll portFileWhole] =
        some (.error (.invalidDevtoolsPort ""), [portFilePoll portFileWhole]) ∧
    ¬ EndsAt targetsCodec exampleUrls (.fromSecs 10) 8 40001
      [portFilePoll (.contents ""), portFilePoll portFileWhole] := by
  have habort : waitUntilReady targetsCodec exampleUrls (.fromSecs 10)
      [portFilePoll (.contents ""), portFilePoll portFileWhole] =
        some (.error (.invalidDevtoolsPort ""), [portFilePoll portFileWhole]) := rfl
  refine ⟨?_, habort, ?_⟩
  · rintro poll hpoll
    obtain rfl | hpoll := List.mem_cons.1 hpoll
    · exact portFilePoll_starting (.inr ⟨"", rfl, List.nil_prefix⟩)
    · rw [List.mem_singleton.1 hpoll]
      exact portFilePoll_starting (.inr ⟨_, rfl, List.prefix_refl _⟩)
  · rintro ⟨rest, hready⟩
    rw [habort] at hready
    cases hready

end Eiger
