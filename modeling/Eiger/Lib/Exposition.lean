import Eiger.Lib.Escape
import Mathlib.Data.List.Nodup

/-!
# The text format of metrics

An exposition is a text of lines. A line is empty, a comment, which may say a metric's help or its
type, or a sample: the name of the metric, labels, and a value. Each label's value is quoted, and in
it a backslash, a double quote and a line feed are escaped. The lines of a metric stand together,
its help and its type, at most once each, before its samples; the values are left as they are
written.

`parse` reads a text as the families of its lines; the names that a histogram and a summary give to
their samples are not told apart from names of metrics. What is written of metrics, line by line, is
read back: `parse_document`.
-/

namespace Exposition

/-- A sample, without the name of its metric. -/
structure Sample where
  labels : List (String × String)
  value : String
  deriving DecidableEq, Repr

/-- The lines of a metric. -/
structure Family where
  name : String
  help : Option String
  kind : Option String
  samples : List Sample
  deriving DecidableEq, Repr

/-! ## Reading a sample -/

/-- The name of a label has such characters. -/
def isLabelChar (c : Char) : Bool := c.isAlphanum || c == '_'

/-- The name of a metric has such characters. -/
def isNameChar (c : Char) : Bool := isLabelChar c || c == ':'

/-- A name is not empty, and does not start with a digit. -/
def starts (name : List Char) : Bool := name.head?.any fun c => !c.isDigit

/-- What has been read of a sample: its name and its labels. -/
structure Scanned where
  name : List Char
  labels : List (String × String)
  deriving DecidableEq, Repr

/-- Where a reader is in a sample. -/
inductive Place where
  | inName (name : List Char)
  | inLabel (scanned : Scanned) (label : List Char)
  | afterLabel (scanned : Scanned) (label : List Char)
  | inQuotes (scanned : Scanned) (label value : List Char)
  | afterBackslash (scanned : Scanned) (label value : List Char)
  | afterQuotes (scanned : Scanned)
  | afterLabels (scanned : Scanned)
  | inValue (scanned : Scanned) (value : List Char)
  deriving DecidableEq, Repr

/-- The character that an escaped one stands for. -/
def unescape (c : Char) : Option Char :=
  if c = '\\' then some '\\' else if c = '"' then some '"' else if c = 'n' then some '\n' else none

/-- A reader takes one character. -/
def Place.step : Place → Char → Option Place
  | .inName name, c =>
    if isNameChar c then some (.inName (name ++ [c]))
    else if ¬ starts name then none
    else if c = '\x7b' then some (.inLabel ⟨name, []⟩ [])
    else if c = ' ' then some (.inValue ⟨name, []⟩ [])
    else none
  | .inLabel scanned label, c =>
    if isLabelChar c then some (.inLabel scanned (label ++ [c]))
    else if c = '=' ∧ starts label then some (.afterLabel scanned label)
    else if c = '\x7d' ∧ label = [] then some (.afterLabels scanned)
    else none
  | .afterLabel scanned label, c => if c = '"' then some (.inQuotes scanned label []) else none
  | .inQuotes scanned label value, c =>
    if c = '"' then
      some (.afterQuotes { scanned with
        labels := scanned.labels ++ [(.ofList label, .ofList value)] })
    else if c = '\\' then some (.afterBackslash scanned label value)
    else some (.inQuotes scanned label (value ++ [c]))
  | .afterBackslash scanned label value, c =>
    (unescape c).map fun c => .inQuotes scanned label (value ++ [c])
  | .afterQuotes scanned, c =>
    if c = ',' then some (.inLabel scanned [])
    else if c = '\x7d' then some (.afterLabels scanned)
    else none
  | .afterLabels scanned, c => if c = ' ' then some (.inValue scanned []) else none
  | .inValue scanned value, c => some (.inValue scanned (value ++ [c]))

/-- Reads a sample: the name of its metric, and the sample. -/
def readSample (line : List Char) : Option (String × Sample) :=
  match line.foldlM Place.step (.inName []) with
  | some (.inValue scanned value) =>
    if value = [] then none else some (.ofList scanned.name, ⟨scanned.labels, .ofList value⟩)
  | _ => none

/-! ## Reading a text -/

/-- What a comment with this keyword says of which metric. -/
def directive (keyword : String) (comment : List Char) : Option (String × List Char) :=
  if keyword.toList.isPrefixOf comment then
    let rest := comment.drop keyword.toList.length
    some (.ofList (rest.takeWhile (· ≠ ' ')), (rest.dropWhile (· ≠ ' ')).drop 1)
  else none

/-- The text of a help, in which a backslash and a line feed are escaped. -/
def unescapeHelp : List Char → List Char
  | '\\' :: '\\' :: rest => '\\' :: unescapeHelp rest
  | '\\' :: 'n' :: rest => '\n' :: unescapeHelp rest
  | c :: rest => c :: unescapeHelp rest
  | [] => []

/-- The types of metrics. -/
def kinds : List String := ["counter", "gauge", "histogram", "summary", "untyped"]

/-- A family is given its help. -/
def Family.addHelp (help : List Char) (family : Family) : Option Family :=
  if family.help.isSome then none
  else some { family with help := some (.ofList (unescapeHelp help)) }

/-- A family is given its type, before its samples. -/
def Family.addKind (kind : List Char) (family : Family) : Option Family :=
  if family.kind.isSome ∨ family.samples ≠ [] ∨ String.ofList kind ∉ kinds then none
  else some { family with kind := some (.ofList kind) }

/-- A family is given a sample. -/
def Family.addSample (sample : Sample) (family : Family) : Option Family :=
  some { family with samples := family.samples ++ [sample] }

/-- A line is of the family that the line before is of, or of a new one. The families are in the
order from the last one. -/
def amend (name : String) (add : Family → Option Family) : List Family → Option (List Family)
  | [] => (add ⟨name, none, none, []⟩).map ([·])
  | family :: families =>
    if family.name = name then (add family).map (· :: families)
    else if name ∈ families.map Family.name then none
    else (add ⟨name, none, none, []⟩).map (· :: family :: families)

/-- Reads a line after others. -/
def readLine (families : List Family) (line : List Char) : Option (List Family) :=
  if line = [] then some families
  else if line.head? = some '#' then
    match directive " HELP " line.tail, directive " TYPE " line.tail with
    | some (name, help), _ => amend name (Family.addHelp help) families
    | none, some (name, kind) => amend name (Family.addKind kind) families
    | none, none => some families
  else (readSample line).bind fun (name, sample) => amend name (Family.addSample sample) families

/-- Reads a text, whose last line ends in a line feed as the others do. -/
def parse (text : String) : Option (List Family) :=
  let parts := text.toList.splitOn '\n'
  if parts.getLast? = some [] then
    (parts.dropLast.foldlM readLine []).map List.reverse
  else none

/-! ## Writing a text -/

/-- How a character of a label's value is written. -/
def word (c : Char) : List Char :=
  if c = '\\' then ['\\', '\\']
  else if c = '"' then ['\\', '"']
  else if c = '\n' then ['\\', 'n']
  else [c]

/-- How a label's value is written. -/
def escape (value : List Char) : List Char := value.flatMap word

/-- A label as it is written. -/
def writeLabel (label : String × String) : List Char :=
  label.1.toList ++ "=\"".toList ++ escape label.2.toList ++ "\"".toList

/-- The labels up to their end. -/
def writeLabels : List (String × String) → List Char
  | [] => "\x7d".toList
  | [label] => writeLabel label ++ "\x7d".toList
  | label :: next :: labels => writeLabel label ++ ",".toList ++ writeLabels (next :: labels)

/-- A sample as it is written. -/
def writeSample (name : String) (sample : Sample) : List Char :=
  name.toList ++
    (if sample.labels = [] then [] else "\x7b".toList ++ writeLabels sample.labels) ++
    " ".toList ++ sample.value.toList

/-- What is written of a metric: its help, its type, and its samples. -/
structure Metric where
  name : String
  help : String
  kind : String
  samples : List Sample
  deriving DecidableEq, Repr

/-- The family that is read of it. -/
def Metric.family (metric : Metric) : Family :=
  ⟨metric.name, some metric.help, some metric.kind, metric.samples⟩

/-- The line of its help. -/
def Metric.helpLine (metric : Metric) : List Char :=
  "# HELP ".toList ++ (metric.name.toList ++ " ".toList ++ metric.help.toList)

/-- The line of its type. -/
def Metric.kindLine (metric : Metric) : List Char :=
  "# TYPE ".toList ++ (metric.name.toList ++ " ".toList ++ metric.kind.toList)

/-- Its lines. -/
def Metric.lines (metric : Metric) : List (List Char) :=
  metric.helpLine :: metric.kindLine :: metric.samples.map (writeSample metric.name)

/-- The lines, each with its end. -/
def unlines (lines : List (List Char)) : List Char := lines.flatMap (· ++ ['\n'])

/-- The name is one of a metric. -/
structure MetricName (name : String) : Prop where
  starts : starts name.toList = true
  chars : ∀ c ∈ name.toList, isNameChar c = true

/-- The name is one of a label. -/
structure LabelName (name : String) : Prop where
  starts : starts name.toList = true
  chars : ∀ c ∈ name.toList, isLabelChar c = true

instance (name : String) : Decidable (LabelName name) :=
  decidable_of_iff ((starts name.toList && name.toList.all isLabelChar) = true) (by
    rw [Bool.and_eq_true, List.all_eq_true]
    exact ⟨fun h => ⟨h.1, h.2⟩, fun h => ⟨h.1, h.2⟩⟩)

/-- A sample that can be written in a line. -/
structure Sample.Plain (sample : Sample) : Prop where
  labels : ∀ label ∈ sample.labels, LabelName label.1
  value : sample.value.toList ≠ []
  line : '\n' ∉ sample.value.toList

/-! ## A sample is read back -/

/-- The characters take a reader from the one place to the other. -/
def Scans (place : Place) (cs : List Char) (next : Place) : Prop :=
  cs.foldlM Place.step place = some next

section

variable {place next last : Place} {cs ds : List Char}

/-- Two rows of characters are read one after the other. -/
theorem Scans.append (hcs : Scans place cs next) (hds : Scans next ds last) :
    Scans place (cs ++ ds) last := by
  rw [Scans, List.foldlM_append, hcs]
  exact hds

/-- Where each word takes a reader one symbol further, a row of words takes it as far. -/
theorem scans_words {words : Char → List Char} {reading : List Char → Place} (xs : List Char)
    (hword : ∀ read, ∀ x ∈ xs, Scans (reading read) (words x) (reading (read ++ [x])))
    (read : List Char) : Scans (reading read) (xs.flatMap words) (reading (read ++ xs)) := by
  induction xs generalizing read with
  | nil =>
    rw [List.append_nil]
    rfl
  | cons x xs ih =>
    have hrest := ih (fun read y hy => hword read y (List.mem_cons_of_mem x hy)) (read ++ [x])
    rw [List.append_assoc, List.singleton_append] at hrest
    rw [List.flatMap_cons]
    exact (hword read x List.mem_cons_self).append hrest

/-- So do single characters. -/
theorem scans_chars {reading : List Char → Place} {xs : List Char}
    (hstep : ∀ read, ∀ x ∈ xs, (reading read).step x = some (reading (read ++ [x])))
    (read : List Char) : Scans (reading read) xs (reading (read ++ xs)) := by
  have hwords := @scans_words ([·]) reading xs (fun read x hx => ?_) read
  · rw [List.flatMap_singleton'] at hwords
    exact hwords
  · rw [Scans, List.foldlM_cons, hstep read x hx]
    rfl

/-- The name of a metric is read as a whole. -/
theorem scans_name {name : String} (hname : MetricName name) :
    Scans (.inName []) name.toList (.inName name.toList) :=
  @scans_chars Place.inName _ (fun _ c hc => if_pos (hname.chars c hc)) []

/-- So is the name of a label. -/
theorem scans_label {name : String} (hname : LabelName name) (scanned : Scanned) :
    Scans (.inLabel scanned []) name.toList (.inLabel scanned name.toList) :=
  @scans_chars (Place.inLabel scanned) _ (fun _ c hc => if_pos (hname.chars c hc)) []

/-- The value of a sample is what is left of its line. -/
theorem scans_value (scanned : Scanned) (value : List Char) :
    Scans (.inValue scanned []) value (.inValue scanned value) :=
  @scans_chars (Place.inValue scanned) _ (fun _ _ _ => rfl) []

/-- The value of a label is read as it was. -/
theorem scans_escape (scanned : Scanned) (label value : List Char) :
    Scans (.inQuotes scanned label []) (escape value) (.inQuotes scanned label value) := by
  refine @scans_words word (Place.inQuotes scanned label) value (fun read c _ => ?_) []
  unfold word
  split
  · next h =>
    subst h
    rfl
  · next hbackslash =>
    split
    · next h =>
      subst h
      rfl
    · next hquote =>
      split
      · next h =>
        subst h
        rfl
      · have hstep : (Place.inQuotes scanned label read).step c =
            some (.inQuotes scanned label (read ++ [c])) := by
          rw [Place.step, if_neg hquote, if_neg hbackslash]
        rw [Scans, List.foldlM_cons, hstep]
        rfl

/-- A label is read up to the end of its value. -/
theorem scans_value_of_label {label : String} (hname : LabelName label) (scanned : Scanned)
    (value : List Char) :
    Scans (.inLabel scanned []) (label.toList ++ "=\"".toList ++ escape value)
      (.inQuotes scanned label.toList value) := by
  have hequals : Scans (.inLabel scanned label.toList) "=\"".toList
      (.inQuotes scanned label.toList []) := by
    have hstep : (Place.inLabel scanned label.toList).step '=' =
        some (.afterLabel scanned label.toList) :=
      if_pos ⟨rfl, hname.starts⟩
    show ['=', '"'].foldlM Place.step _ = _
    rw [List.foldlM_cons, hstep]
    rfl
  exact ((scans_label hname scanned).append hequals).append (scans_escape _ _ _)

/-- A label is read as it was. -/
theorem scans_writeLabel {label : String × String} (hname : LabelName label.1)
    (scanned : Scanned) :
    Scans (.inLabel scanned []) (writeLabel label)
      (.afterQuotes { scanned with labels := scanned.labels ++ [label] }) := by
  have hquote : Scans (.inQuotes scanned label.1.toList label.2.toList) "\"".toList
      (.afterQuotes { scanned with labels := scanned.labels ++ [label] }) := by
    show some (Place.afterQuotes { scanned with labels := scanned.labels ++
      [(.ofList label.1.toList, .ofList label.2.toList)] }) = _
    rw [String.ofList_toList, String.ofList_toList]
  exact (scans_value_of_label hname scanned label.2.toList).append hquote

/-- The labels are read as they were. -/
theorem scans_writeLabels {labels : List (String × String)}
    (hnames : ∀ label ∈ labels, LabelName label.1) (scanned : Scanned) :
    Scans (.inLabel scanned []) (writeLabels labels)
      (.afterLabels { scanned with labels := scanned.labels ++ labels }) := by
  induction labels using writeLabels.induct generalizing scanned with
  | case1 =>
    rw [List.append_nil]
    rfl
  | case2 label =>
    have hend : Scans (.afterQuotes { scanned with labels := scanned.labels ++ [label] })
        "\x7d".toList (.afterLabels { scanned with labels := scanned.labels ++ [label] }) := rfl
    exact (scans_writeLabel (hnames label List.mem_cons_self) scanned).append hend
  | case3 label next labels ih =>
    have hcomma : Scans (.afterQuotes { scanned with labels := scanned.labels ++ [label] })
        ",".toList (.inLabel { scanned with labels := scanned.labels ++ [label] } []) := rfl
    have hrest := ih (fun other hother => hnames other (List.mem_cons_of_mem label hother))
      { scanned with labels := scanned.labels ++ [label] }
    simp only [List.append_assoc, List.singleton_append] at hrest
    exact ((scans_writeLabel (hnames label List.mem_cons_self) scanned).append hcomma).append hrest

/-- What ends the name of a metric is not one of its characters. -/
theorem scans_nameEnd {name : String} (hname : MetricName name) :
    Scans (.inName name.toList) "\x7b".toList (.inLabel ⟨name.toList, []⟩ []) ∧
      Scans (.inName name.toList) " ".toList (.inValue ⟨name.toList, []⟩ []) := by
  have hstarts : ¬ ¬ starts name.toList = true := not_not_intro hname.starts
  constructor
  · show (Place.step (.inName name.toList) '\x7b').bind some = _
    rw [Place.step, if_neg (by decide), if_neg hstarts, if_pos rfl]
    rfl
  · show (Place.step (.inName name.toList) ' ').bind some = _
    rw [Place.step, if_neg (by decide), if_neg hstarts, if_neg (by decide), if_pos rfl]
    rfl

/-- A sample is read as it was. -/
theorem readSample_writeSample {name : String} {sample : Sample} (hname : MetricName name)
    (hsample : sample.Plain) :
    readSample (writeSample name sample) = some (name, sample) := by
  have hscans : Scans (.inName []) (writeSample name sample)
      (.inValue ⟨name.toList, sample.labels⟩ sample.value.toList) := by
    have hblank : Scans (.afterLabels ⟨name.toList, sample.labels⟩) " ".toList
        (.inValue ⟨name.toList, sample.labels⟩ []) := rfl
    rw [writeSample]
    split
    · next hlabels =>
      rw [List.append_nil, hlabels]
      exact ((scans_name hname).append (scans_nameEnd hname).2).append (scans_value _ _)
    · exact (((scans_name hname).append ((scans_nameEnd hname).1.append
        (scans_writeLabels hsample.labels _))).append hblank).append (scans_value _ _)
  rw [readSample, hscans]
  simp only [hsample.value, if_false, String.ofList_toList]

/-- A sample that breaks off in a quoted value is not read. -/
theorem readSample_inQuotes {line label value : List Char} {scanned : Scanned}
    (h : Scans (.inName []) line (.inQuotes scanned label value)) : readSample line = none := by
  rw [readSample, h]

end

/-! ## A text is read back -/

/-- A metric that can be written in lines. -/
structure Metric.Plain (metric : Metric) : Prop where
  name : MetricName metric.name
  help : '\\' ∉ metric.help.toList ∧ '\n' ∉ metric.help.toList
  kind : metric.kind ∈ kinds
  samples : ∀ sample ∈ metric.samples, sample.Plain

section

variable {name keyword : String} {add : Family → Option Family} {family : Family}
  {families : List Family} {metric : Metric} {metrics : List Metric}

/-- The name of a metric has neither of these. -/
theorem MetricName.not_mem (hname : MetricName name) {c : Char} (hc : isNameChar c = false) :
    c ∉ name.toList := by
  intro hmem
  exact Bool.false_ne_true (hc.symm.trans (hname.chars c hmem))

/-- It has a first character. -/
theorem MetricName.cons (hname : MetricName name) :
    ∃ c cs, name.toList = c :: cs ∧ isNameChar c = true := by
  cases hcs : name.toList with
  | nil =>
    have hstarts := hname.starts
    rw [hcs] at hstarts
    cases hstarts
  | cons c cs => exact ⟨c, cs, rfl, hname.chars c (hcs ▸ List.mem_cons_self)⟩

/-- A comment with the keyword is about the metric that it names. -/
theorem directive_append (hname : ' ' ∉ name.toList) (text : List Char) :
    directive keyword (keyword.toList ++ (name.toList ++ " ".toList ++ text)) =
      some (name, text) := by
  have hpass : ∀ c ∈ name.toList, decide (c ≠ ' ') = true := by
    intro c hc
    exact decide_eq_true fun h => hname (h ▸ hc)
  have hpre : keyword.toList.isPrefixOf
      (keyword.toList ++ (name.toList ++ " ".toList ++ text)) = true :=
    List.isPrefixOf_iff_prefix.2 (List.prefix_append ..)
  have hblank : (" ".toList ++ text).takeWhile (· ≠ ' ') = [] := rfl
  have hrest : ((" ".toList ++ text).dropWhile (· ≠ ' ')).drop 1 = text := rfl
  rw [directive, if_pos hpre]
  simp only [List.drop_left, List.append_assoc, List.takeWhile_append_of_pos hpass,
    List.dropWhile_append_of_pos hpass, hblank, hrest, List.append_nil, String.ofList_toList]

/-- A help without a backslash is read as it is. -/
theorem unescapeHelp_plain {help : List Char} (h : '\\' ∉ help) : unescapeHelp help = help := by
  induction help with
  | nil => rfl
  | cons c help ih =>
    rw [List.mem_cons, not_or] at h
    have hcons : unescapeHelp (c :: help) = c :: unescapeHelp help := by
      rw [unescapeHelp]
      all_goals
        intro
        intros
        simp_all
    rw [hcons, ih h.2]

/-- A line of the family that the line before is of. -/
theorem amend_same (family : Family) (families : List Family) (add : Family → Option Family) :
    amend family.name add (family :: families) = (add family).map (· :: families) :=
  if_pos rfl

/-- A line of a new family. -/
theorem amend_new (hnew : name ∉ families.map Family.name) :
    amend name add families = (add ⟨name, none, none, []⟩).map (· :: families) := by
  cases families with
  | nil => rfl
  | cons family families =>
    have hnames := hnew
    rw [List.map_cons, List.mem_cons, not_or] at hnames
    rw [amend, if_neg (Ne.symm hnames.1), if_neg hnames.2]

/-- A comment is read by its keyword. -/
theorem readLine_comment (families : List Family) (comment : List Char) :
    readLine families ('#' :: comment) =
      match directive " HELP " comment, directive " TYPE " comment with
      | some (name, help), _ => amend name (Family.addHelp help) families
      | none, some (name, kind) => amend name (Family.addKind kind) families
      | none, none => some families := by
  rw [readLine, if_neg (List.cons_ne_nil _ _), if_pos List.head?_cons]
  rfl

/-- A help is read of a metric that is new. -/
theorem readLine_help (hmetric : metric.Plain)
    (hnew : metric.name ∉ families.map Family.name) :
    readLine families metric.helpLine =
      some (⟨metric.name, some metric.help, none, []⟩ :: families) := by
  have hdirective : directive " HELP " metric.helpLine.tail =
      some (metric.name, metric.help.toList) :=
    directive_append (hmetric.name.not_mem (by decide)) _
  have hplain : unescapeHelp metric.help.toList = metric.help.toList :=
    unescapeHelp_plain hmetric.help.1
  show readLine families ('#' :: metric.helpLine.tail) = _
  rw [readLine_comment, hdirective]
  simp only
  rw [amend_new hnew, Family.addHelp, hplain, String.ofList_toList]
  rfl

/-- Its type is read after it. -/
theorem readLine_kind (hmetric : metric.Plain) :
    readLine (⟨metric.name, some metric.help, none, []⟩ :: families) metric.kindLine =
      some (⟨metric.name, some metric.help, some metric.kind, []⟩ :: families) := by
  have hother : directive " HELP " metric.kindLine.tail = none := rfl
  have hdirective : directive " TYPE " metric.kindLine.tail =
      some (metric.name, metric.kind.toList) :=
    directive_append (hmetric.name.not_mem (by decide)) _
  have hamend := amend_same ⟨metric.name, some metric.help, none, []⟩ families
    (Family.addKind metric.kind.toList)
  show readLine _ ('#' :: metric.kindLine.tail) = _
  rw [readLine_comment, hother, hdirective]
  simp only
  rw [hamend, Family.addKind, String.ofList_toList, if_neg (by simp [hmetric.kind])]
  rfl

/-- A line that starts with the name of a metric is not a comment. -/
theorem readLine_sample (hname : MetricName name) (line : List Char) :
    readLine families (name.toList ++ line) =
      (readSample (name.toList ++ line)).bind fun (name, sample) =>
        amend name (Family.addSample sample) families := by
  obtain ⟨c, cs, hcs, hc⟩ := hname.cons
  have hcomment : (name.toList ++ line).head? ≠ some '#' := by
    rw [hcs, List.cons_append, List.head?_cons]
    rintro ⟨⟩
    cases hc
  have hne : name.toList ++ line ≠ [] := by
    rw [hcs]
    exact List.cons_ne_nil _ _
  rw [readLine, if_neg hne, if_neg hcomment]

/-- A line that breaks off in a quoted value is not read. -/
theorem readLine_inQuotes (hname : MetricName name) {line label value : List Char}
    {scanned : Scanned}
    (h : Scans (.inName []) (name.toList ++ line) (.inQuotes scanned label value)) :
    readLine families (name.toList ++ line) = none := by
  rw [readLine_sample hname, readSample_inQuotes h]
  rfl

/-- So its samples are read, one after the other. -/
theorem foldlM_samples (hname : MetricName name) {samples : List Sample}
    (hsamples : ∀ sample ∈ samples, sample.Plain) (help kind : Option String)
    (read : List Sample) :
    (samples.map (writeSample name)).foldlM readLine (⟨name, help, kind, read⟩ :: families) =
      some (⟨name, help, kind, read ++ samples⟩ :: families) := by
  induction samples generalizing read with
  | nil =>
    rw [List.append_nil]
    rfl
  | cons sample samples ih =>
    rw [List.forall_mem_cons] at hsamples
    have hline : readLine (⟨name, help, kind, read⟩ :: families) (writeSample name sample) =
        some (⟨name, help, kind, read ++ [sample]⟩ :: families) := by
      have hread := readSample_writeSample hname hsamples.1
      rw [writeSample, List.append_assoc, List.append_assoc] at hread ⊢
      rw [readLine_sample hname, hread]
      exact amend_same ⟨name, help, kind, read⟩ families (Family.addSample sample)
    have hrest := ih hsamples.2 (read ++ [sample])
    rw [List.append_assoc, List.singleton_append] at hrest
    rw [List.map_cons, List.foldlM_cons, hline]
    exact hrest

/-- The lines of a metric are read as its family. -/
theorem foldlM_lines (hmetric : metric.Plain) (hnew : metric.name ∉ families.map Family.name) :
    metric.lines.foldlM readLine families = some (metric.family :: families) := by
  rw [Metric.lines, List.foldlM_cons, readLine_help hmetric hnew]
  show (metric.kindLine :: metric.samples.map (writeSample metric.name)).foldlM readLine _ = _
  rw [List.foldlM_cons, readLine_kind hmetric]
  exact foldlM_samples hmetric.name hmetric.samples _ _ []

/-- The lines of several metrics are read as their families. -/
theorem foldlM_metrics (hmetrics : ∀ metric ∈ metrics, metric.Plain)
    (hnames : (metrics.map Metric.name).Nodup)
    (hnew : ∀ name ∈ metrics.map Metric.name, name ∉ families.map Family.name) :
    (metrics.flatMap Metric.lines).foldlM readLine families =
      some ((metrics.map Metric.family).reverse ++ families) := by
  induction metrics generalizing families with
  | nil => rfl
  | cons metric metrics ih =>
    rw [List.forall_mem_cons] at hmetrics
    rw [List.map_cons, List.forall_mem_cons] at hnew
    rw [List.map_cons, List.nodup_cons] at hnames
    have hrest : ∀ name ∈ metrics.map Metric.name,
        name ∉ (metric.family :: families).map Family.name := by
      intro name hname hmem
      obtain rfl | hmem := List.mem_cons.1 hmem
      · exact hnames.1 hname
      · exact hnew.2 name hname hmem
    rw [List.flatMap_cons, List.foldlM_append, foldlM_lines hmetrics.1 hnew.1]
    refine (ih hmetrics.2 hnames.2 hrest).trans ?_
    rw [List.map_cons, List.reverse_cons, List.append_assoc, List.singleton_append]

end

/-! ## The lines of a text -/

/-- A line is split where it has line feeds itself. -/
theorem splitOn_unlines (lines : List (List Char)) (rest : List Char) :
    (unlines lines ++ rest).splitOn '\n' =
      (lines.flatMap fun line => line.splitOn '\n') ++ rest.splitOn '\n' := by
  induction lines with
  | nil => rfl
  | cons line lines ih =>
    have htext : unlines (line :: lines) ++ rest = line ++ '\n' :: (unlines lines ++ rest) := by
      simp [unlines]
    rw [htext, List.splitOn_append_cons_self, ih, List.flatMap_cons, List.append_assoc]

/-- A text of lines without a line feed is read by its lines. -/
theorem parse_unlines {lines : List (List Char)} (hlines : ∀ line ∈ lines, '\n' ∉ line) :
    parse (.ofList (unlines lines)) = (lines.foldlM readLine []).map List.reverse := by
  have hparts : (unlines lines).splitOn '\n' = lines ++ [[]] := by
    have hsplit := splitOn_unlines lines []
    have hline : (lines.flatMap fun line => line.splitOn '\n') = lines := by
      refine (List.flatMap_congr fun line hmem => ?_).trans (List.flatMap_singleton' lines)
      exact List.splitOn_eq_singleton (hlines line hmem)
    rwa [List.append_nil, hline] at hsplit
  rw [parse, String.toList_ofList, hparts, List.getLast?_concat, if_pos rfl, List.dropLast_concat]

/-- A text with a line that is not read is not read. -/
theorem parse_eq_none {text : String} {before : List (List Char)} {line rest : List Char}
    (htext : text.toList = unlines before ++ (line ++ '\n' :: rest)) (hline : '\n' ∉ line)
    (hread : ∀ families, readLine families line = none) : parse text = none := by
  have hfold : ∀ (lines more : List (List Char)) (families : List Family),
      (lines ++ line :: more).foldlM readLine families = none := by
    intro lines more families
    rw [List.foldlM_append]
    cases lines.foldlM readLine families with
    | none => rfl
    | some families =>
      show (line :: more).foldlM readLine families = none
      rw [List.foldlM_cons, hread]
      rfl
  have hparts : text.toList.splitOn '\n' =
      (before.flatMap fun line => line.splitOn '\n') ++ line :: rest.splitOn '\n' := by
    rw [htext, splitOn_unlines, List.splitOn_append_cons_self, List.splitOn_eq_singleton hline,
      List.singleton_append]
  have hlast : (line :: rest.splitOn '\n').dropLast = line :: (rest.splitOn '\n').dropLast :=
    List.dropLast_cons_of_ne_nil (List.splitOn_ne_nil _ _)
  rw [parse, hparts]
  simp only [List.dropLast_append_of_ne_nil (List.cons_ne_nil _ _), hlast, hfold, Option.map_none,
    ite_self]

/-- A word has no line feed. -/
theorem not_mem_word (c : Char) : '\n' ∉ word c := by
  unfold word
  split
  · decide
  · split
    · decide
    · split
      · decide
      · next hfeed =>
        rw [List.mem_singleton]
        exact Ne.symm hfeed

/-- The value of a label is written in a line. -/
theorem not_mem_escape (value : List Char) : '\n' ∉ escape value :=
  Escape.not_mem_flatMap not_mem_word value

/-- A label is written in a line. -/
theorem not_mem_writeLabel {label : String × String} (hname : LabelName label.1) :
    '\n' ∉ writeLabel label := by
  have hchars : '\n' ∉ label.1.toList := fun hmem => by cases hname.chars _ hmem
  exact List.not_mem_append (List.not_mem_append (List.not_mem_append hchars (by decide))
    (not_mem_escape label.2.toList)) (by decide)

/-- The labels of a sample are written in a line. -/
theorem not_mem_writeLabels {labels : List (String × String)}
    (hnames : ∀ label ∈ labels, LabelName label.1) : '\n' ∉ writeLabels labels := by
  induction labels using writeLabels.induct with
  | case1 => decide
  | case2 label =>
    exact List.not_mem_append (not_mem_writeLabel (hnames label List.mem_cons_self)) (by decide)
  | case3 label next labels ih =>
    have hrest := ih fun other hother => hnames other (List.mem_cons_of_mem label hother)
    exact List.not_mem_append
      (List.not_mem_append (not_mem_writeLabel (hnames label List.mem_cons_self)) (by decide)) hrest

/-- A sample is written in a line. -/
theorem not_mem_writeSample {name : String} {sample : Sample} (hname : MetricName name)
    (hsample : sample.Plain) : '\n' ∉ writeSample name sample := by
  have hlabels : '\n' ∉
      (if sample.labels = [] then [] else "\x7b".toList ++ writeLabels sample.labels) := by
    split
    · exact List.not_mem_nil
    · exact List.not_mem_append (by decide) (not_mem_writeLabels hsample.labels)
  exact List.not_mem_append (List.not_mem_append
    (List.not_mem_append (hname.not_mem (by decide)) hlabels) (by decide)) hsample.line

/-- The lines of a metric are lines. -/
theorem not_mem_lines {metric : Metric} (hmetric : metric.Plain) :
    ∀ line ∈ metric.lines, '\n' ∉ line := by
  have hname : '\n' ∉ metric.name.toList := hmetric.name.not_mem (by decide)
  have hblank : '\n' ∉ " ".toList := by decide
  have hkinds : ∀ kind ∈ kinds, '\n' ∉ kind.toList := by decide
  rw [Metric.lines, List.forall_mem_cons, List.forall_mem_cons]
  refine ⟨?_, ?_, ?_⟩
  · have hkeyword : '\n' ∉ "# HELP ".toList := by decide
    exact List.not_mem_append hkeyword
      (List.not_mem_append (List.not_mem_append hname hblank) hmetric.help.2)
  · have hkeyword : '\n' ∉ "# TYPE ".toList := by decide
    exact List.not_mem_append hkeyword
      (List.not_mem_append (List.not_mem_append hname hblank) (hkinds _ hmetric.kind))
  · intro line hline
    obtain ⟨sample, hsample, rfl⟩ := List.mem_map.1 hline
    exact not_mem_writeSample hmetric.name (hmetric.samples sample hsample)

/-- **The round trip.** What is written of metrics with different names is read as their
families. -/
theorem parse_document {metrics : List Metric} (hmetrics : ∀ metric ∈ metrics, metric.Plain)
    (hnames : (metrics.map Metric.name).Nodup) :
    parse (.ofList (unlines (metrics.flatMap Metric.lines))) =
      some (metrics.map Metric.family) := by
  have hlines : ∀ line ∈ metrics.flatMap Metric.lines, '\n' ∉ line := by
    intro line hline
    obtain ⟨metric, hmetric, hmem⟩ := List.mem_flatMap.1 hline
    exact not_mem_lines (hmetrics metric hmetric) line hmem
  rw [parse_unlines hlines, foldlM_metrics hmetrics hnames fun _ _ => List.not_mem_nil,
    List.append_nil, Option.map_some, List.reverse_reverse]

end Exposition
