import Eiger.Browser.Cdp
import Eiger.Lib.Text

/-!
# Waiting for a browser

`launch_chrome` starts Chrome with a debugging port that the system chooses. Chrome writes it into a
file of its user data directory, and `wait_until_ready` polls that file, asks the port that it finds
for the URL of a browser endpoint, and takes the one that it is told.

The directory of a persistent profile may have the file of an earlier session. Until the child has
written its own port, that is the port which is asked, and the wait takes whoever answers there:
`launch_bound_iff`. Nothing of the launch is looked at but the directory, so two sessions may come
to share a browser.

A poll is given by what it meets (`Poll`): the state of the file and of the child, and who listens
on which port. Whatever may happen meanwhile is some list of polls.
-/

namespace Eiger

open Json Text

/-- `prepare_user_data_dir`, where it succeeds: the directory asked for, as it is, or a fresh
one. -/
def prepareUserDataDir (path : Option PathBuf) (fresh : PathBuf) : UserDataDir :=
  match path with
  | some path => .persistent path
  | none => .temporary fresh

/-- What reading a file finds. -/
inductive FileRead where
  | contents (contents : String)
  | notFound
  | failed (error : String)
  deriving DecidableEq, Repr

/-- `read_devtools_port`, at what reading `DevToolsActivePort` finds. -/
def readDevtoolsPort : FileRead → Except BrowserError (Option Nat)
  | .notFound => .ok none
  | .failed error => .error (.devtoolsPort error)
  | .contents contents =>
    match firstLine contents with
    | none => .error (.invalidDevtoolsPort contents)
    | some line =>
      match parseUnsigned (2 ^ 16) line with
      | some port => .ok (some port)
      | none => .error (.invalidDevtoolsPort contents)

/-- A process, by its pid. -/
abbrev ProcessId := Nat

/-- The URL of the browser endpoint that a process has. No two have the same. -/
structure BrowserUrls where
  url : ProcessId → String
  injective : Function.Injective url

/-- What a request for `/json/version` gets: no response, one without success, one with a body that
is none, or the URL of the endpoint, at which there is this. -/
inductive VersionReply where
  | failed
  | unsuccessful
  | invalid (error : String)
  | version (endpoint : Endpoint)

/-- A process that listens on a port. Its reply may never come; a URL in it is its own. -/
structure Listener where
  process : ProcessId
  reply : Option VersionReply

/-- What a poll of `wait_until_ready` meets: whether the launch timeout has passed, what `try_wait`
returns for the child, what reading the file finds, and who listens on the loopback ports. -/
structure Poll where
  expired : Bool
  exit : Except String (Option String)
  file : FileRead
  listener : Nat → Option Listener

/-- What comes of a poll: another one, nothing ever, or the end of the wait. -/
inductive Polled where
  | again
  | never
  | ended (result : Except BrowserError BrowserReady)
  deriving Repr

/-- One turn of the loop of `wait_until_ready`. -/
def Poll.turn (json : Codec) (urls : BrowserUrls) (launchTimeout : Duration) (poll : Poll) :
    Polled :=
  if poll.expired then .ended (.error (.launchTimeout launchTimeout))
  else
    match poll.exit with
    | .error error => .ended (.error (.exitedEarly error))
    | .ok (some status) => .ended (.error (.exitedEarly status))
    | .ok none =>
      match readDevtoolsPort poll.file with
      | .error error => .ended (.error error)
      | .ok none => .again
      | .ok (some port) =>
        match poll.listener port with
        | none => .again
        | some listener =>
          match listener.reply with
          | none => .never
          | some .failed => .again
          | some .unsuccessful => .again
          | some (.invalid error) => .ended (.error (.http error))
          | some (.version endpoint) =>
            match (healthCheckBrowserWs json endpoint (.fromSecs 2)).value with
            | none => .never
            | some (.error error) => .ended (.error error)
            | some (.ok ()) =>
              .ended (.ok
                { httpBaseUrl := "http://127.0.0.1:" ++ Nat.repr port
                  browserWsUrl := urls.url listener.process })

/-- `wait_until_ready`, with the polls that are not made any more. It may not return. -/
def waitUntilReady (json : Codec) (urls : BrowserUrls) (launchTimeout : Duration) :
    List Poll → Option (Except BrowserError BrowserReady × List Poll)
  | [] => none
  | poll :: rest =>
    match poll.turn json urls launchTimeout with
    | .again => waitUntilReady json urls launchTimeout rest
    | .never => none
    | .ended result => some (result, rest)

/-! ## Whose endpoint it is -/

/-- The launch binds to its own browser: where the wait returns an endpoint, it is the child's. -/
def BoundTo (json : Codec) (urls : BrowserUrls) (launchTimeout : Duration) (child : ProcessId)
    (polls : List Poll) : Prop :=
  ∀ ready rest, waitUntilReady json urls launchTimeout polls = some (.ok ready, rest) →
    ready.browserWsUrl = urls.url child

/-- The process listens on the port that the file names, and its endpoint is well. -/
def Poll.AnsweredBy (json : Codec) (poll : Poll) (process : ProcessId) : Prop :=
  ∃ port endpoint, readDevtoolsPort poll.file = .ok (some port) ∧
    poll.listener port = some ⟨process, some (.version endpoint)⟩ ∧
    endpoint.Answers json (.fromSecs 2)

/-- The wait is misled: it comes to a poll, with the child running, at which it is another process
that answers. -/
def Misled (json : Codec) (urls : BrowserUrls) (launchTimeout : Duration) (child : ProcessId)
    (polls : List Poll) : Prop :=
  ∃ before poll rest process, polls = before ++ poll :: rest ∧
    (∀ poll ∈ before, poll.turn json urls launchTimeout = .again) ∧
    poll.expired = false ∧ poll.exit = .ok none ∧ poll.AnsweredBy json process ∧ process ≠ child

section

variable {json : Codec} {urls : BrowserUrls} {launchTimeout : Duration}

/-- The health check passes where the endpoint answers. -/
theorem healthCheckBrowserWs_value_iff {endpoint : Endpoint} {wait : Duration} :
    (healthCheckBrowserWs json endpoint wait).value = some (.ok ()) ↔
      endpoint.Answers json wait := by
  cases hconnect : endpoint.connect with
  | never =>
    rw [Future.value_eq_none.2 (healthCheckBrowserWs_never.2 hconnect)]
    refine ⟨nofun, ?_⟩
    rintro ⟨⟨d, hd⟩, -⟩
    rw [hconnect] at hd
    cases hd
  | ready d connected =>
    obtain ⟨result, hvalue, hiff⟩ :=
      @healthCheckBrowserWs_ok json endpoint wait d connected hconnect
    rw [hvalue, Option.some.injEq, hiff]

/-- Where a poll ends the wait with an endpoint, it is that of the process which answers. -/
theorem Poll.turn_ready {poll : Poll} {ready : BrowserReady}
    (h : poll.turn json urls launchTimeout = .ended (.ok ready)) :
    poll.expired = false ∧ poll.exit = .ok none ∧
      ∃ process, poll.AnsweredBy json process ∧ ready.browserWsUrl = urls.url process := by
  rw [Poll.turn] at h
  split at h
  · cases h
  · next hexpired =>
    refine ⟨Bool.eq_false_iff.2 hexpired, ?_⟩
    split at h
    · cases h
    · cases h
    · next hexit =>
      refine ⟨hexit, ?_⟩
      split at h
      · cases h
      · cases h
      · next port hport =>
        split at h
        · cases h
        · next listener hlistener =>
          split at h
          · cases h
          · cases h
          · cases h
          · cases h
          · next endpoint hreply =>
            split at h
            · cases h
            · cases h
            · next hhealth =>
              cases h
              refine ⟨listener.process, ⟨port, endpoint, hport, ?_,
                healthCheckBrowserWs_value_iff.1 hhealth⟩, rfl⟩
              rw [hlistener, ← hreply]

/-- Where a process answers while the child runs, the poll ends the wait with its endpoint. -/
theorem Poll.turn_answered {poll : Poll} {process : ProcessId} (hexpired : poll.expired = false)
    (hexit : poll.exit = .ok none) (h : poll.AnsweredBy json process) :
    ∃ ready, poll.turn json urls launchTimeout = .ended (.ok ready) ∧
      ready.browserWsUrl = urls.url process := by
  obtain ⟨port, endpoint, hport, hlistener, hanswers⟩ := h
  rw [Poll.turn, hexpired, hexit]
  simp only [Bool.false_eq_true, if_false]
  rw [hport]
  simp only
  rw [hlistener]
  simp only
  rw [healthCheckBrowserWs_value_iff.2 hanswers]
  exact ⟨_, rfl, rfl⟩

/-- The wait ends with an endpoint at the first poll that is not followed by another. -/
theorem waitUntilReady_ok_iff {polls rest : List Poll} {ready : BrowserReady} :
    waitUntilReady json urls launchTimeout polls = some (.ok ready, rest) ↔
      ∃ before poll, polls = before ++ poll :: rest ∧
        (∀ poll ∈ before, poll.turn json urls launchTimeout = .again) ∧
        poll.turn json urls launchTimeout = .ended (.ok ready) := by
  induction polls with
  | nil =>
    refine ⟨nofun, ?_⟩
    rintro ⟨before, poll, hpolls, -⟩
    cases before <;> cases hpolls
  | cons first polls ih =>
    rw [waitUntilReady]
    constructor
    · intro h
      split at h
      · next hfirst =>
        obtain ⟨before, poll, rfl, hbefore, hpoll⟩ := ih.1 h
        exact ⟨first :: before, poll, rfl, List.forall_mem_cons.2 ⟨hfirst, hbefore⟩, hpoll⟩
      · cases h
      · next hfirst =>
        cases h
        exact ⟨[], first, rfl, nofun, hfirst⟩
    · rintro ⟨_ | ⟨earlier, before⟩, poll, hpolls, hbefore, hpoll⟩
      · cases hpolls
        rw [hpoll]
      · cases hpolls
        rw [List.forall_mem_cons] at hbefore
        rw [hbefore.1]
        exact ih.2 ⟨before, poll, rfl, hbefore.2, hpoll⟩

/-- A launch binds to its own browser exactly if it is not misled. -/
theorem boundTo_iff {child : ProcessId} {polls : List Poll} :
    BoundTo json urls launchTimeout child polls ↔ ¬ Misled json urls launchTimeout child polls := by
  constructor
  · rintro hbound ⟨before, poll, rest, process, hpolls, hbefore, hexpired, hexit, hanswered, hother⟩
    obtain ⟨ready, hready, hurl⟩ := Poll.turn_answered hexpired hexit hanswered
    have hchild := hbound ready rest
      (waitUntilReady_ok_iff.2 ⟨before, poll, hpolls, hbefore, hready⟩)
    exact hother (urls.injective (hurl.symm.trans hchild))
  · intro hmisled ready rest hwait
    obtain ⟨before, poll, hpolls, hbefore, hready⟩ := waitUntilReady_ok_iff.1 hwait
    obtain ⟨hexpired, hexit, process, hanswered, hurl⟩ := Poll.turn_ready hready
    rw [hurl]
    by_contra hother
    exact hmisled ⟨before, poll, rest, process, hpolls, hbefore, hexpired, hexit, hanswered,
      fun hprocess => hother (congrArg urls.url hprocess)⟩

/-! ## Stale and fresh directories -/

/-- At a poll, nobody but the child listens on the port that the file names, if it names one. -/
def Poll.Own (poll : Poll) (child : ProcessId) : Prop :=
  ∀ port, readDevtoolsPort poll.file = .ok (some port) →
    ∀ listener ∈ poll.listener port, listener.process = child

/-- Nobody but the child answers there. -/
theorem Poll.Own.eq_of_answeredBy {poll : Poll} {child process : ProcessId} (h : poll.Own child)
    (hanswered : poll.AnsweredBy json process) : process = child := by
  obtain ⟨port, endpoint, hport, hlistener, -⟩ := hanswered
  exact h port hport _ hlistener

/-- Once the file is the child's own, a launch is not misled any more: it is the polls before that
matter. -/
theorem misled_append_iff {child : ProcessId} {early late : List Poll}
    (hlate : ∀ poll ∈ late, poll.Own child) :
    Misled json urls launchTimeout child (early ++ late) ↔
      Misled json urls launchTimeout child early := by
  constructor
  · rintro ⟨before, poll, rest, process, hpolls, hbefore, hexpired, hexit, hanswered, hother⟩
    obtain ⟨more, rfl, hmore⟩ | ⟨more, rfl, hmore⟩ := List.append_eq_append_iff.1 hpolls
    · have hmem : poll ∈ late := by
        rw [hmore]
        simp
      exact (hother ((hlate poll hmem).eq_of_answeredBy hanswered)).elim
    · obtain _ | ⟨first, more⟩ := more
      · have hmem : poll ∈ late := by
          rw [← List.nil_append late, ← hmore]
          exact List.mem_cons_self
        exact (hother ((hlate poll hmem).eq_of_answeredBy hanswered)).elim
      · cases hmore
        exact ⟨before, poll, more, process, rfl, hbefore, hexpired, hexit, hanswered, hother⟩
  · rintro ⟨before, poll, rest, process, rfl, hmisled⟩
    exact ⟨before, poll, rest ++ late, process, by simp, hmisled⟩

/-- What Chrome writes into the file: its port, and the path of its endpoint. -/
def devtoolsActivePort (port : Nat) (path : String) : FileRead :=
  .contents (Nat.repr port ++ "\n" ++ path)

/-- The port that Chrome writes is read back. -/
theorem readDevtoolsPort_written {port : Nat} (h : port < 2 ^ 16) (path : String) :
    readDevtoolsPort (devtoolsActivePort port path) = .ok (some port) := by
  have hline : firstLine (Nat.repr port ++ "\n" ++ path) = some (Nat.repr port) := by
    refine firstLine_append path (not_mem_repr (by decide) port) fun hlast => ?_
    exact not_mem_repr (by decide) port (List.mem_of_getLast? hlast)
  rw [devtoolsActivePort, readDevtoolsPort, hline]
  simp only
  rw [parseUnsigned_repr h]

/-- In a fresh directory a launch is not misled: the file is missing until the child has written it,
and nobody else listens on the port that the child has. -/
theorem not_misled_of_fresh {child : ProcessId} {port : Nat} {path : String}
    {early late : List Poll} (hport : port < 2 ^ 16)
    (hearly : ∀ poll ∈ early, poll.file = .notFound)
    (hlate : ∀ poll ∈ late, poll.file = devtoolsActivePort port path ∧
      ∀ listener ∈ poll.listener port, listener.process = child) :
    ¬ Misled json urls launchTimeout child (early ++ late) := by
  have hown : ∀ poll ∈ late, poll.Own child := by
    intro poll hpoll other hother
    rw [(hlate poll hpoll).1, readDevtoolsPort_written hport] at hother
    cases hother
    exact (hlate poll hpoll).2
  rw [misled_append_iff hown]
  rintro ⟨before, poll, rest, process, rfl, -, -, -, ⟨other, endpoint, hother, -⟩, -⟩
  rw [hearly poll (by simp)] at hother
  cases hother

end

/-- A launch binds to its own browser exactly if it is not misled; so two launches that are not do
not share an endpoint. -/
theorem launch_bound_iff (json : Codec) (urls : BrowserUrls) (launchTimeout : Duration)
    (child : ProcessId) (polls : List Poll) :
    (BoundTo json urls launchTimeout child polls ↔
      ¬ Misled json urls launchTimeout child polls) ∧
    ∀ child' polls', child' ≠ child → ¬ Misled json urls launchTimeout child polls →
      ¬ Misled json urls launchTimeout child' polls' → ∀ ready rest ready' rest',
      waitUntilReady json urls launchTimeout polls = some (.ok ready, rest) →
      waitUntilReady json urls launchTimeout polls' = some (.ok ready', rest') →
      ready'.browserWsUrl ≠ ready.browserWsUrl := by
  refine ⟨boundTo_iff, ?_⟩
  intro child' polls' hchild hmisled hmisled' ready rest ready' rest' hwait hwait' heq
  rw [boundTo_iff.2 hmisled ready rest hwait, boundTo_iff.2 hmisled' ready' rest' hwait'] at heq
  exact hchild (urls.injective heq)

/-! ## A stale file -/

/-- What a Chrome responds to the health check. -/
def targetsText : String := "\x7b\"id\":1,\"result\":\x7b\"targetInfos\":[]\x7d\x7d"

/-- A library that reads this response. -/
def targetsCodec : Codec :=
  { fromStr := fun text =>
      if text = targetsText then
        .ok (.object
          [("id", .number (.posInt 1)), ("result", .object [("targetInfos", .array [])])])
      else .error "expected value at line 1 column 1"
    toString := fun _ => "null" }

/-- The endpoint of a Chrome that is well. -/
def healthyEndpoint : Endpoint :=
  { connect := .ready 1 (.ok ())
    send := (0, .ok ())
    incoming := [(1, .ok (.text targetsText))]
    closed := .never
    close := 0 }

/-- The URLs of endpoints. -/
def exampleUrls : BrowserUrls where
  url process := "ws://127.0.0.1:40001/devtools/browser/" ++ Nat.repr process
  injective p q h := by
    have h : Nat.repr p = Nat.repr q := by
      rw [← String.toList_inj, String.toList_append, String.toList_append] at h
      exact String.toList_inj.1 (List.append_cancel_left h)
    have hdigits := congrArg String.toList h
    rw [Nat.toList_repr, Nat.toList_repr] at hdigits
    rw [← @Nat.ofDigitChars_ten_toDigits p, hdigits, Nat.ofDigitChars_ten_toDigits]

/-- A poll in the directory of a profile whose last session had the port 40001, which the Chrome of
another session, process 7, has got since. -/
def stalePoll : Poll :=
  { expired := false
    exit := .ok none
    file := devtoolsActivePort 40001 "/devtools/browser/5"
    listener := fun port =>
      if port = 40001 then some ⟨7, some (.version healthyEndpoint)⟩ else none }

/-- The launch of process 8 binds to the browser of process 7. -/
theorem launch_unbound : ¬ BoundTo targetsCodec exampleUrls (.fromSecs 10) 8 [stalePoll] := by
  intro h
  have hready : waitUntilReady targetsCodec exampleUrls (.fromSecs 10) [stalePoll] =
      some (.ok ⟨"http://127.0.0.1:40001", exampleUrls.url 7⟩, []) := by rfl
  exact absurd (exampleUrls.injective (h _ _ hready)) (by decide)

end Eiger
