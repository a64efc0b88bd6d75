import Eiger.Browser.Types
import Eiger.Lib.Text

/-!
# Chrome's command line

`chrome_args` builds the arguments that a Chrome process is started with: the switches that the
server manages, those that follow from the launch options, and at the end the additional arguments,
as they are: `switchValues_chromeArgs`. Chrome takes the last occurrence of a switch. The server
writes one `--user-data-dir`, so an additional one is in force instead: `userDataDirs_chromeArgs`.
-/

namespace Eiger

open Text

/-- `DEFAULT_USER_AGENT`. -/
def defaultUserAgent : String :=
  "Mozilla/5.0 (X11; Linux x86_64) AppleWebKit/537.36 (KHTML, like Gecko) Chrome/124.0.0.0 " ++
    "Safari/537.36"

/-- `StealthProfile::chrome_args`. -/
def StealthProfile.chromeArgs (profile : StealthProfile) : List String :=
  if ¬ profile.enabled then []
  else
    ["--disable-blink-features=AutomationControlled",
      "--window-size=" ++ Nat.repr profile.windowWidth ++ "," ++ Nat.repr profile.windowHeight,
      "--user-agent=" ++
        replaceAll (profile.userAgent.getD defaultUserAgent) "HeadlessChrome" "Chrome"]

/-- The arguments that `chrome_args` begins with. -/
def managedArgs (userDataDir : PathBuf) : List String :=
  ["--headless=new",
    "--remote-debugging-address=127.0.0.1",
    "--remote-debugging-port=0",
    "--user-data-dir=" ++ userDataDir,
    "--no-first-run",
    "--no-default-browser-check",
    "--disable-background-networking",
    "--disable-background-timer-throttling",
    "--disable-client-side-phishing-detection",
    "--disable-component-update",
    "--disable-default-apps",
    "--disable-dev-shm-usage",
    "--disable-gpu",
    "--disable-hang-monitor",
    "--disable-popup-blocking",
    "--disable-prompt-on-repost",
    "--disable-sync",
    "--metrics-recording-only",
    "--mute-audio",
    "--password-store=basic",
    "--use-mock-keychain"]

/-- The arguments by which `chrome_args` turns extensions off, or these on. -/
def extensionArgs (extensionPaths : List PathBuf) : List String :=
  if extensionPaths = [] then ["--disable-extensions"]
  else
    let paths := ",".intercalate extensionPaths
    ["--disable-features=DisableLoadExtensionCommandLineSwitch",
      "--enable-extensions",
      "--load-extension=" ++ paths,
      "--disable-extensions-except=" ++ paths]

/-- `chrome_args`. -/
def chromeArgs (userDataDir : PathBuf) (options : ChromeLaunchOptions) : List String :=
  let args := managedArgs userDataDir ++ if options.noSandbox then ["--no-sandbox"] else []
  let args :=
    if options.extensionPaths ≠ [] then args.filter (· ≠ "--disable-background-networking")
    else args
  let args := args ++
    ((options.proxy.filter (!isBlank ·)).map fun proxy => "--proxy-server=" ++ trim proxy).toList
  args ++ extensionArgs options.extensionPaths ++ options.stealth.chromeArgs ++
    options.additionalArgs ++ ["about:blank"]

/-! ## The switches of a command line -/

/-- The value of an argument that is this switch. -/
def switchOf (name arg : String) : Option String :=
  if arg = name then some "" else stripPrefix arg (name ++ "=")

/-- The values that a command line gives a switch, in their order. -/
def switchValues (name : String) (args : List String) : List String :=
  args.filterMap (switchOf name)

/-- An argument with this start is another switch. -/
def Apart (name start : String) : Prop :=
  ¬ (name ++ "=").toList <+: start.toList ∧ ¬ start.toList <+: (name ++ "=").toList

instance (name start : String) : Decidable (Apart name start) :=
  inferInstanceAs (Decidable (_ ∧ _))

section

variable {name start arg : String} {args more : List String}

/-- An argument that starts as another switch does is not this one. -/
theorem switchOf_eq_none (h : start.toList <+: arg.toList) (hstart : Apart name start) :
    switchOf name arg = none := by
  have hbare : arg ≠ name := by
    rintro rfl
    rw [Apart, String.toList_append] at hstart
    exact hstart.2 (h.trans (List.prefix_append ..))
  rw [switchOf, if_neg hbare, stripPrefix, startsWith_eq_false h hstart.1 hstart.2]
  rfl

/-- Whatever is written after that start. -/
theorem switchOf_apart (hstart : Apart name start) (rest : String) :
    switchOf name (start ++ rest) = none :=
  switchOf_eq_none ⟨_, String.toList_append.symm⟩ hstart

/-- The switch has the value that is written after it. -/
theorem switchOf_append (name value : String) :
    switchOf name (name ++ "=" ++ value) = some value := by
  have hbare : name ++ "=" ++ value ≠ name := by
    intro h
    have hlength := congrArg (·.toList.length) h
    simp only [String.toList_append, List.length_append] at hlength
    have hequals : "=".toList.length = 1 := rfl
    omega
  have hstart : startsWith (name ++ "=" ++ value) (name ++ "=") = true := by
    rw [startsWith_iff, @String.toList_append (name ++ "=")]
    exact List.prefix_append ..
  rw [switchOf, if_neg hbare, stripPrefix, if_pos hstart, @String.toList_append (name ++ "="),
    List.drop_left, String.ofList_toList]

/-- Two command lines in a row name what each of them names. -/
theorem switchValues_append :
    switchValues name (args ++ more) = switchValues name args ++ switchValues name more :=
  List.filterMap_append

/-- Arguments that are not the switch name nothing. -/
theorem switchValues_eq_nil (h : ∀ arg ∈ args, switchOf name arg = none) :
    switchValues name args = [] :=
  List.filterMap_eq_nil_iff.2 h

/-- Leaving out an argument that is not the switch changes nothing. -/
theorem switchValues_filter {out : String} (h : switchOf name out = none) (args : List String) :
    switchValues name (args.filter (· ≠ out)) = switchValues name args := by
  rw [switchValues, List.filterMap_filter]
  refine congrArg (List.filterMap · args) (funext fun arg => ?_)
  by_cases harg : arg = out
  · rw [harg, h]
    simp
  · simp [harg]

/-- Of the managed arguments, only the one for the user data directory is not fixed. -/
theorem switchValues_managedArgs (dir : PathBuf)
    (hfixed : ∀ arg ∈ (managedArgs "").take 3 ++ (managedArgs "").drop 4,
      switchOf name arg = none) :
    switchValues name (managedArgs dir) = switchValues name ["--user-data-dir=" ++ dir] := by
  obtain ⟨hfirst, hlast⟩ := List.forall_mem_append.1 hfixed
  have hargs : managedArgs dir = (managedArgs "").take 3 ++ ["--user-data-dir=" ++ dir] ++
      (managedArgs "").drop 4 := rfl
  rw [hargs, switchValues_append, switchValues_append, switchValues_eq_nil hfirst,
    switchValues_eq_nil hlast, List.nil_append, List.append_nil]

/-- A stealth profile gives no value to a switch that is not its own. -/
theorem switchValues_stealth
    (hfixed : switchOf name "--disable-blink-features=AutomationControlled" = none)
    (hwindow : Apart name "--window-size=") (hagent : Apart name "--user-agent=")
    (profile : StealthProfile) : switchValues name profile.chromeArgs = [] := by
  rw [StealthProfile.chromeArgs]
  split
  · rfl
  · refine switchValues_eq_nil ?_
    simp only [List.forall_mem_cons, List.not_mem_nil, false_imp_iff, implies_true, and_true]
    refine ⟨hfixed, ?_, switchOf_apart hagent _⟩
    rw [String.append_assoc, String.append_assoc]
    exact switchOf_apart hwindow _

/-- A switch that is not among those of the sandbox, the proxy and the stealth profile has its
values from the managed arguments, those for extensions and the additional ones, in this order. -/
theorem switchValues_chromeArgs (dir : PathBuf) (options : ChromeLaunchOptions)
    (hfixed : ∀ arg ∈ ["--no-sandbox", "--disable-background-networking",
      "--disable-blink-features=AutomationControlled", "about:blank"], switchOf name arg = none)
    (hopen : ∀ start ∈ ["--proxy-server=", "--window-size=", "--user-agent="], Apart name start) :
    switchValues name (chromeArgs dir options) =
      switchValues name (managedArgs dir) ++
        switchValues name (extensionArgs options.extensionPaths) ++
        switchValues name options.additionalArgs := by
  simp only [List.forall_mem_cons, List.not_mem_nil, false_imp_iff, implies_true, and_true]
    at hfixed hopen
  obtain ⟨hsandbox, hnetworking, hblink, hlast⟩ := hfixed
  obtain ⟨hproxy, hwindow, hagent⟩ := hopen
  have hstealth := switchValues_stealth hblink hwindow hagent options.stealth
  have hlast : switchValues name ["about:blank"] = [] :=
    switchValues_eq_nil (List.forall_mem_singleton.2 hlast)
  have hproxy : switchValues name ((options.proxy.filter (!isBlank ·)).map fun proxy =>
      "--proxy-server=" ++ trim proxy).toList = [] := by
    refine switchValues_eq_nil fun arg harg => ?_
    obtain ⟨proxy, -, rfl⟩ := Option.map_eq_some_iff.1 (Option.mem_toList.1 harg)
    exact switchOf_apart hproxy _
  have hsandbox : switchValues name
      (managedArgs dir ++ if options.noSandbox then ["--no-sandbox"] else []) =
        switchValues name (managedArgs dir) := by
    rw [switchValues_append]
    split
    · rw [switchValues_eq_nil (List.forall_mem_singleton.2 hsandbox), List.append_nil]
    · exact List.append_nil _
  have hmanaged : switchValues name (if options.extensionPaths ≠ [] then
      (managedArgs dir ++ if options.noSandbox then ["--no-sandbox"] else []).filter
        (· ≠ "--disable-background-networking")
      else managedArgs dir ++ if options.noSandbox then ["--no-sandbox"] else []) =
        switchValues name (managedArgs dir) := by
    split
    · rw [switchValues_filter hnetworking, hsandbox]
    · exact hsandbox
  rw [chromeArgs]
  simp only [switchValues_append, hmanaged, hproxy, hstealth, hlast, List.append_nil]

end

/-! ## The user data directory in force -/

/-- The user data directory that is in force, if one is named: the last one. -/
def userDataDirInForce (args : List String) : Option String :=
  (switchValues "--user-data-dir" args).getLast?

/-- The managed arguments name the directory of the launch. -/
theorem userDataDirs_managedArgs (dir : PathBuf) :
    switchValues "--user-data-dir" (managedArgs dir) = [dir] := by
  have hvalue : switchOf "--user-data-dir" ("--user-data-dir=" ++ dir) = some dir :=
    switchOf_append "--user-data-dir" dir
  rw [switchValues_managedArgs dir (by decide), switchValues, List.filterMap_cons_some hvalue,
    List.filterMap_nil]

/-- The arguments for extensions name no directory. -/
theorem userDataDirs_extensionArgs (paths : List PathBuf) :
    switchValues "--user-data-dir" (extensionArgs paths) = [] := by
  rw [extensionArgs]
  split
  · decide
  · refine switchValues_eq_nil ?_
    simp only [List.forall_mem_cons, List.not_mem_nil, false_imp_iff, implies_true, and_true]
    exact ⟨by decide, by decide, switchOf_apart (by decide) _, switchOf_apart (by decide) _⟩

/-- A command line names the directory of the launch, and then those among the additional
arguments. -/
theorem userDataDirs_chromeArgs (dir : PathBuf) (options : ChromeLaunchOptions) :
    switchValues "--user-data-dir" (chromeArgs dir options) =
      dir :: switchValues "--user-data-dir" options.additionalArgs := by
  rw [switchValues_chromeArgs dir options (by decide) (by decide), userDataDirs_managedArgs,
    userDataDirs_extensionArgs]
  rfl

/-- So the last of these is in force, or else the directory of the launch. -/
theorem userDataDirInForce_chromeArgs (dir : PathBuf) (options : ChromeLaunchOptions) :
    userDataDirInForce (chromeArgs dir options) =
      some ((userDataDirInForce options.additionalArgs).getD dir) := by
  rw [userDataDirInForce, userDataDirs_chromeArgs, List.getLast?_cons]
  rfl

end Eiger
