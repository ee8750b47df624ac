import EggReplay.Core.Reports
import EggReplay.Library.Xml

/-!
The JUnit document that the reports of a command are projected to, and the tree that an XML
reader finds in it.
-/

namespace EggReplay.Cli.JunitReports

open EggReplay.Core.Reports
open EggReplay.Library.Xml

/-! ### The document -/

def replaceChar (c : Char) (text input : String) : String :=
  String.ofList (input.toList.flatMap fun d => if d = c then text.toList else [d])

def escapeXml (input : String) : String :=
  replaceChar '\'' "&apos;" (replaceChar '"' "&quot;" (replaceChar '>' "&gt;"
    (replaceChar '<' "&lt;" (replaceChar '&' "&amp;" input))))

def findingText (finding : DiffFinding) : String :=
  escapeXml finding.kind.debug ++ " " ++ escapeXml finding.field ++ " baseline=" ++
    escapeXml finding.baseline ++ " candidate=" ++ escapeXml finding.candidate

def failureDetails (report : RegressionReport) : String :=
  "; ".intercalate (report.findings.map findingText)

/-- The report of a flow, where there is one and it fails. -/
def failing (report : Option RegressionReport) : Option RegressionReport :=
  report.filter fun report => !report.isSuccess

def testcase (command flowId : String) (report : Option RegressionReport) : String :=
  "<testcase name=\"" ++ escapeXml flowId ++ "\" classname=\"" ++ escapeXml command ++ "\">" ++
    (match failing report with
      | some report => "<failure message=\"mismatch\">" ++ failureDetails report ++ "</failure>"
      | none => "") ++
    "</testcase>"

def junitForReports (command : String) (flowIds : List String) (reports : List RegressionReport) :
    String :=
  flowIds.zipIdx.foldl (fun out flow => out ++ testcase command flow.1 reports[flow.2]?)
      ("<testsuite name=\"" ++ escapeXml command ++ "\" tests=\"" ++ Nat.repr flowIds.length ++
        "\" failures=\"" ++ Nat.repr (reports.countP fun report => !report.isSuccess) ++
        "\" errors=\"0\">") ++
    "</testsuite>"

/-! ### What a reader finds -/

def isNamed (name : String) : Item → Bool
  | .element other _ _ => decide (other = name.toList)
  | .char _ => false

/-- A test case that contains a failure. -/
def isFailedCase : Item → Bool
  | .element name _ content =>
      decide (name = "testcase".toList) && content.any (isNamed "failure")
  | .char _ => false

/-- The document is well-formed, its count of failures is the number of failed test cases, and
there is one exactly where the command fails. -/
def Projects (document : String) (failed : Prop) : Prop :=
  ∃ attributes content,
    readDocument document = some (.element "testsuite".toList attributes content) ∧
      attributes.lookup "failures".toList =
        some (Nat.repr (content.countP isFailedCase)).toList ∧
      (1 ≤ content.countP isFailedCase ↔ failed)

/-! ### Escaping -/

theorem toList_escapeXml (input : String) : (escapeXml input).toList = escape input.toList := by
  simp only [escapeXml, replaceChar, String.toList_ofList, List.flatMap_assoc]
  rw [escape]
  congr 1
  funext c
  rw [escapeChar]
  split_ifs with hamp hlt hgt hquot hapos
  · rfl
  · rw [hlt]
    rfl
  · rw [hgt]
    rfl
  · rw [hquot]
    rfl
  · rw [hapos]
    rfl
  · simp [hlt, hgt, hquot, hapos]

theorem escape_append (left right : Word) : escape (left ++ right) = escape left ++ escape right :=
  List.flatMap_append

/-- A finding before it is escaped. -/
def plainFinding (finding : DiffFinding) : Word :=
  finding.kind.debug.toList ++ " ".toList ++ finding.field.toList ++ " baseline=".toList ++
    finding.baseline.toList ++ " candidate=".toList ++ finding.candidate.toList

def plainDetails (report : RegressionReport) : Word :=
  "; ".toList.intercalate (report.findings.map plainFinding)

theorem escape_intercalate (separator : Word) (parts : List Word) :
    escape (separator.intercalate parts) =
      (escape separator).intercalate (parts.map escape) := by
  induction parts with
  | nil => rfl
  | cons part rest ih =>
      cases rest with
      | nil => simp [List.intercalate]
      | cons next more =>
          simp only [List.map_cons] at ih ⊢
          rw [List.intercalate_cons_cons, List.intercalate_cons_cons, escape_append,
            escape_append, ih]

theorem toList_findingText (finding : DiffFinding) :
    (findingText finding).toList = escape (plainFinding finding) := by
  have hspace : escape " ".toList = " ".toList := rfl
  have hbaseline : escape " baseline=".toList = " baseline=".toList := rfl
  have hcandidate : escape " candidate=".toList = " candidate=".toList := rfl
  rw [findingText, plainFinding]
  simp only [String.toList_append, toList_escapeXml, escape_append, hspace, hbaseline, hcandidate]

theorem toList_failureDetails (report : RegressionReport) :
    (failureDetails report).toList = escape (plainDetails report) := by
  have hseparator : escape "; ".toList = "; ".toList := rfl
  rw [failureDetails, plainDetails, escape_intercalate, hseparator, String.toList_intercalate,
    List.map_map, List.map_map]
  exact congrArg _ (List.map_congr_left fun finding _ => toList_findingText finding)

/-! ### The tree of the document -/

def failureTree (report : RegressionReport) : Item :=
  .element "failure".toList [("message".toList, "mismatch".toList)]
    ((plainDetails report).map Item.char)

def caseTree (command flowId : String) (report : Option RegressionReport) : Item :=
  .element "testcase".toList
    [("name".toList, flowId.toList), ("classname".toList, command.toList)]
    ((failing report).toList.map failureTree)

def caseTrees (command : String) (flowIds : List String) (reports : List RegressionReport) :
    List Item :=
  flowIds.zipIdx.map fun flow => caseTree command flow.1 reports[flow.2]?

def suiteAttributes (command : String) (flowIds : List String)
    (reports : List RegressionReport) : List (Word × Word) :=
  [("name".toList, command.toList), ("tests".toList, (Nat.repr flowIds.length).toList),
    ("failures".toList, (Nat.repr (reports.countP fun report => !report.isSuccess)).toList),
    ("errors".toList, "0".toList)]

theorem write_append (left right : List Item) : write (left ++ right) = write left ++ write right := by
  induction left with
  | nil => rw [List.nil_append, write, List.nil_append]
  | cons item rest ih =>
      cases item with
      | char c => rw [List.cons_append, write, write, ih, List.append_assoc]
      | element name attributes content =>
          rw [List.cons_append, write, write, ih]
          simp

theorem write_chars (text : Word) : write (text.map Item.char) = escape text := by
  induction text with
  | nil => rw [List.map_nil, write, escape, List.flatMap_nil]
  | cons c rest ih => rw [List.map_cons, write, ih, escape, escape, List.flatMap_cons]

/-- Digits stand for themselves. -/
theorem escape_repr (n : Nat) : escape (Nat.repr n).toList = (Nat.repr n).toList := by
  rw [escape, Nat.toList_repr]
  have hdigits : ∀ c ∈ Nat.toDigits 10 n, escapeChar c = [c] := by
    intro c hc
    have hdigit := Nat.isDigit_of_mem_toDigits (by decide) (by decide) hc
    have hne : ∀ d : Char, d.isDigit = false → c ≠ d := by
      rintro d hd rfl
      rw [hd] at hdigit
      cases hdigit
    rw [escapeChar, if_neg (hne '&' rfl), if_neg (hne '<' rfl), if_neg (hne '>' rfl),
      if_neg (hne '"' rfl), if_neg (hne '\'' rfl)]
  rw [List.flatMap_congr hdigits]
  exact List.flatMap_singleton' _

theorem toList_testcase (command flowId : String) (report : Option RegressionReport) :
    (testcase command flowId report).toList = write [caseTree command flowId report] := by
  have hopen : "<testcase name=\"".toList =
      '<' :: ("testcase".toList ++ ' ' :: ("name".toList ++ ['=', '"'])) := rfl
  have hclass : "\" classname=\"".toList = '"' :: ' ' :: ("classname".toList ++ ['=', '"']) := rfl
  have hstart : "\">".toList = ['"', '>'] := rfl
  have hend : "</testcase>".toList = '<' :: '/' :: ("testcase".toList ++ ['>']) := rfl
  have hfailure : "<failure message=\"mismatch\">".toList =
      '<' :: ("failure".toList ++ ' ' :: ("message".toList ++ '=' :: '"' ::
        (escape "mismatch".toList ++ ['"', '>']))) := rfl
  have hfailed : "</failure>".toList = '<' :: '/' :: ("failure".toList ++ ['>']) := rfl
  have hempty : "".toList = [] := rfl
  unfold testcase caseTree
  cases failing report with
  | none =>
      simp only [String.toList_append, toList_escapeXml, hopen, hclass, hstart, hend, hempty,
        List.append_assoc, List.cons_append, List.nil_append, List.append_nil]
      simp only [write, writeAttribute, List.flatMap_cons, List.flatMap_nil, Option.toList_none,
        List.map_nil, List.append_assoc, List.cons_append, List.nil_append, List.append_nil]
  | some failed =>
      simp only [String.toList_append, toList_escapeXml, hopen, hclass, hstart, hend, hfailure,
        hfailed, toList_failureDetails, List.append_assoc, List.cons_append, List.nil_append]
      simp only [write, writeAttribute, failureTree, write_chars, List.flatMap_cons,
        List.flatMap_nil, Option.toList_some, List.map_cons, List.map_nil, List.append_assoc,
        List.cons_append, List.nil_append, List.append_nil]

theorem toList_junitForReports (command : String) (flowIds : List String)
    (reports : List RegressionReport) :
    (junitForReports command flowIds reports).toList =
      write [.element "testsuite".toList (suiteAttributes command flowIds reports)
        (caseTrees command flowIds reports)] := by
  have hcases : ∀ (flows : List (String × Nat)) (start : String),
      (flows.foldl (fun out flow => out ++ testcase command flow.1 reports[flow.2]?) start).toList =
        start.toList ++ write (flows.map fun flow => caseTree command flow.1 reports[flow.2]?) := by
    intro flows
    induction flows with
    | nil =>
        intro start
        rw [List.map_nil, write, List.append_nil]
        rfl
    | cons flow rest ih =>
        intro start
        rw [List.foldl_cons, ih, String.toList_append, toList_testcase, List.map_cons,
          List.append_assoc, ← write_append]
        rfl
  have hopen : "<testsuite name=\"".toList =
      '<' :: ("testsuite".toList ++ ' ' :: ("name".toList ++ ['=', '"'])) := rfl
  have htests : "\" tests=\"".toList = '"' :: ' ' :: ("tests".toList ++ ['=', '"']) := rfl
  have hfailures : "\" failures=\"".toList =
      '"' :: ' ' :: ("failures".toList ++ ['=', '"']) := rfl
  have herrors : "\" errors=\"0\">".toList = '"' :: ' ' :: ("errors".toList ++ '=' :: '"' ::
      (escape "0".toList ++ ['"', '>'])) := rfl
  have hend : "</testsuite>".toList = '<' :: '/' :: ("testsuite".toList ++ ['>']) := rfl
  rw [junitForReports, String.toList_append, hcases, caseTrees]
  simp only [String.toList_append, toList_escapeXml, hopen, htests, hfailures, herrors, hend, write,
    writeAttribute, suiteAttributes, escape_repr, List.flatMap_cons, List.flatMap_nil,
    List.append_assoc, List.cons_append, List.nil_append, List.append_nil]

/-! ### When the projection is right -/

def Printable (text : Word) : Prop := text.all isChar = true

theorem proper_chars (text : Word) : Proper (text.map Item.char) := by
  induction text with
  | nil => rw [List.map_nil, Proper]; exact True.intro
  | cons c rest ih => rw [List.map_cons, Proper]; exact ih

theorem isName_of_all {c : Char} {rest : Word} (hstart : isNameStart c = true)
    (hrest : rest.all isNameChar = true) : IsName (c :: rest) :=
  ⟨c, rest, rfl, hstart, List.all_eq_true.mp hrest⟩

theorem proper_caseTree (command flowId : String) (report : Option RegressionReport) {rest : List Item}
    (h : Proper rest) : Proper (caseTree command flowId report :: rest) := by
  rw [caseTree, Proper]
  refine ⟨isName_of_all rfl rfl, ?_, ?_, ?_, h⟩
  · intro entry hentry
    rcases List.mem_cons.mp hentry with rfl | hentry
    · exact isName_of_all rfl rfl
    · obtain rfl := List.mem_singleton.mp hentry
      exact isName_of_all rfl rfl
  · show ["name".toList, "classname".toList].Nodup
    decide
  · cases failing report with
    | none =>
        rw [Option.toList_none, List.map_nil, Proper]
        exact True.intro
    | some failed =>
        rw [Option.toList_some, List.map_cons, List.map_nil, failureTree, Proper, Proper]
        refine ⟨isName_of_all rfl rfl, ?_, List.nodup_singleton _, proper_chars _, True.intro⟩
        intro entry hentry
        obtain rfl := List.mem_singleton.mp hentry
        exact isName_of_all rfl rfl

theorem proper_caseTrees (command : String) (flows : List (String × Nat))
    (reports : List RegressionReport) :
    Proper (flows.map fun flow => caseTree command flow.1 reports[flow.2]?) := by
  induction flows with
  | nil =>
      rw [List.map_nil, Proper]
      exact True.intro
  | cons flow rest ih => exact proper_caseTree command flow.1 _ ih

theorem proper_junit (command : String) (flowIds : List String)
    (reports : List RegressionReport) :
    Proper [.element "testsuite".toList (suiteAttributes command flowIds reports)
      (caseTrees command flowIds reports)] := by
  rw [Proper, Proper]
  refine ⟨isName_of_all rfl rfl, ?_, ?_, proper_caseTrees _ _ _, True.intro⟩
  · intro entry hentry
    have hnames : ∀ name ∈ (suiteAttributes command flowIds reports).map Prod.fst,
        IsName name := by
      show ∀ name ∈ ["name".toList, "tests".toList, "failures".toList, "errors".toList], IsName name
      intro name hname
      rcases List.mem_cons.mp hname with rfl | hname
      · exact isName_of_all rfl rfl
      rcases List.mem_cons.mp hname with rfl | hname
      · exact isName_of_all rfl rfl
      rcases List.mem_cons.mp hname with rfl | hname
      · exact isName_of_all rfl rfl
      · obtain rfl := List.mem_singleton.mp hname
        exact isName_of_all rfl rfl
    exact hnames _ (List.mem_map_of_mem hentry)
  · show ["name".toList, "tests".toList, "failures".toList, "errors".toList].Nodup
    decide

/-! ### The characters of the document -/

theorem all_repr (n : Nat) : (Nat.repr n).toList.all isChar = true := by
  rw [List.all_eq_true]
  intro c hc
  rw [Nat.toList_repr] at hc
  have hdigit := Nat.isDigit_of_mem_toDigits (by decide) (by decide) hc
  simp only [Char.isDigit, Bool.and_eq_true, decide_eq_true_eq, ge_iff_le,
    UInt32.le_iff_toNat_le] at hdigit
  have hlow : 0x20 ≤ c.toNat := le_trans (by decide) hdigit.1
  have hhigh : c.toNat ≤ 0xD7FF := le_trans hdigit.2 (by decide)
  simp [isChar, hlow, hhigh]

/-- What the markup itself is written with. -/
theorem all_markup :
    isChar '<' = true ∧ isChar '>' = true ∧ isChar '/' = true ∧ isChar '=' = true ∧
      isChar '"' = true ∧ isChar ' ' = true := by
  decide

theorem all_names :
    "testsuite".toList.all isChar = true ∧ "testcase".toList.all isChar = true ∧
      "failure".toList.all isChar = true ∧ "name".toList.all isChar = true ∧
      "tests".toList.all isChar = true ∧ "failures".toList.all isChar = true ∧
      "errors".toList.all isChar = true ∧ "0".toList.all isChar = true ∧
      "classname".toList.all isChar = true ∧ "message".toList.all isChar = true ∧
      "mismatch".toList.all isChar = true := by
  decide

theorem all_caseTree (command flowId : String) (report : Option RegressionReport) :
    (write [caseTree command flowId report]).all isChar =
      (flowId.toList.all isChar && (command.toList.all isChar &&
        (failing report).all fun failed => (plainDetails failed).all isChar)) := by
  obtain ⟨hlt, hgt, hslash, heq, hquote, hspace⟩ := all_markup
  obtain ⟨-, hcase, hfailure, hname, -, -, -, -, hclass, hmessage, hmismatch⟩ := all_names
  unfold caseTree
  cases failing report with
  | none =>
      simp only [write, writeAttribute, Option.toList_none, List.map_nil, List.flatMap_cons,
        List.flatMap_nil, List.all_append, List.all_cons, List.all_nil, all_escape, hlt, hgt,
        hslash, heq, hquote, hspace, hcase, hname, hclass, Bool.true_and, Bool.and_true,
        Option.all_none]
  | some failed =>
      simp only [write, writeAttribute, failureTree, write_chars, Option.toList_some,
        List.map_cons, List.map_nil, List.flatMap_cons, List.flatMap_nil, List.all_append,
        List.all_cons, List.all_nil, all_escape, hlt, hgt, hslash, heq, hquote, hspace, hcase,
        hfailure, hname, hclass, hmessage, hmismatch, Bool.true_and, Bool.and_true,
        Option.all_some, Bool.and_assoc]

theorem all_write (items : List Item) :
    (write items).all isChar = items.all fun item => (write [item]).all isChar := by
  induction items with
  | nil => rw [write, List.all_nil, List.all_nil]
  | cons item rest ih =>
      have hsplit : write (item :: rest) = write [item] ++ write rest := write_append [item] rest
      rw [hsplit, List.all_append, ih, List.all_cons]

theorem all_junit (command : String) (flowIds : List String) (reports : List RegressionReport) :
    (junitForReports command flowIds reports).toList.all isChar =
      (command.toList.all isChar &&
        flowIds.zipIdx.all fun flow => (flow.1.toList.all isChar && (command.toList.all isChar &&
          (failing reports[flow.2]?).all fun failed => (plainDetails failed).all isChar))) := by
  obtain ⟨hlt, hgt, hslash, heq, hquote, hspace⟩ := all_markup
  obtain ⟨hsuite, -, -, hname, htests, hfailures, herrors, hzero, -⟩ := all_names
  have hcases : (write (caseTrees command flowIds reports)).all isChar =
      flowIds.zipIdx.all fun flow => (flow.1.toList.all isChar && (command.toList.all isChar &&
        (failing reports[flow.2]?).all fun failed => (plainDetails failed).all isChar)) := by
    rw [all_write, caseTrees, List.all_map]
    congr 1
    funext flow
    exact all_caseTree command flow.1 _
  rw [toList_junitForReports, ← hcases]
  simp only [write, writeAttribute, suiteAttributes, List.flatMap_cons, List.flatMap_nil,
    List.all_append, List.all_cons, List.all_nil, all_escape, all_repr, hlt, hgt, hslash, heq,
    hquote, hspace, hsuite, hname, htests, hfailures, herrors, hzero, Bool.true_and,
    Bool.and_true]

/-! ### The failed test cases -/

theorem isFailedCase_caseTree (command flowId : String) (report : Option RegressionReport) :
    isFailedCase (caseTree command flowId report) = (failing report).isSome := by
  unfold caseTree
  cases failing report with
  | none => rfl
  | some failed => rfl

theorem countP_zipIdx (reports : List RegressionReport) (flowIds : List String) (start : Nat)
    (h : reports.length ≤ start + flowIds.length) :
    (flowIds.zipIdx start).countP (fun flow => (failing reports[flow.2]?).isSome) =
      (reports.drop start).countP fun report => !report.isSuccess := by
  induction flowIds generalizing start with
  | nil =>
      rw [List.length_nil, Nat.add_zero] at h
      rw [List.drop_eq_nil_of_le h]
      rfl
  | cons id rest ih =>
      rw [List.length_cons] at h
      have hrest := ih (start + 1) (by omega)
      rw [List.zipIdx_cons, List.countP_cons, hrest]
      rcases Nat.lt_or_ge start reports.length with hlt | hge
      · rw [List.drop_eq_getElem_cons hlt, List.countP_cons, List.getElem?_eq_getElem hlt]
        congr 1
        cases hsuccess : reports[start].isSuccess with
        | true => simp [failing, Option.filter, hsuccess]
        | false => simp [failing, Option.filter, hsuccess]
      · rw [List.drop_eq_nil_of_le hge, List.drop_eq_nil_of_le (Nat.le_succ_of_le hge),
          List.getElem?_eq_none hge]
        rfl

/-- Where no report lies beyond the flows, the count of failures is that of the failed cases. -/
theorem countP_caseTrees {command : String} {flowIds : List String}
    {reports : List RegressionReport} (h : reports.length ≤ flowIds.length) :
    (caseTrees command flowIds reports).countP isFailedCase =
      reports.countP fun report => !report.isSuccess := by
  have hzip := countP_zipIdx reports flowIds 0 (by omega)
  rw [List.drop_zero] at hzip
  rw [caseTrees, List.countP_map, ← hzip]
  congr 1
  funext flow
  exact isFailedCase_caseTree command flow.1 _

/-- The texts that the document takes over: the ids, and what its failures say. -/
structure PrintableTexts (flowIds : List String) (reports : List RegressionReport) : Prop where
  ids : ∀ id ∈ flowIds, Printable id.toList
  details : ∀ report ∈ reports, report.isSuccess = false → Printable (plainDetails report)

theorem all_junit_iff {command : String} {flowIds : List String}
    {reports : List RegressionReport} (hcommand : Printable command.toList)
    (h : reports.length ≤ flowIds.length) :
    (junitForReports command flowIds reports).toList.all isChar = true ↔
      PrintableTexts flowIds reports := by
  rw [all_junit, hcommand, Bool.true_and, List.all_eq_true]
  constructor
  · intro hall
    constructor
    · intro id hid
      obtain ⟨index, hindex, rfl⟩ := List.getElem_of_mem hid
      have hflow := hall (flowIds[index], index)
        (List.mem_zipIdx_iff_getElem?.mpr (List.getElem?_eq_getElem hindex))
      simp only [Bool.and_eq_true] at hflow
      exact hflow.1
    · intro report hreport hfailed
      obtain ⟨index, hindex, rfl⟩ := List.getElem_of_mem hreport
      have hwithin : index < flowIds.length := lt_of_lt_of_le hindex h
      have hflow := hall (flowIds[index], index)
        (List.mem_zipIdx_iff_getElem?.mpr (List.getElem?_eq_getElem hwithin))
      have hfailing : failing reports[index]? = some reports[index] := by
        rw [List.getElem?_eq_getElem hindex]
        simp [failing, Option.filter, hfailed]
      simp only [Bool.and_eq_true, hfailing, Option.all_some] at hflow
      exact hflow.2.2
  · rintro hprintable ⟨id, index⟩ hflow
    have hid : flowIds[index]? = some id := List.mem_zipIdx_iff_getElem?.mp hflow
    have hdetails : ((failing reports[index]?).all fun failed =>
        (plainDetails failed).all isChar) = true := by
      rw [Option.all_eq_true]
      intro failed hfailed
      obtain ⟨hreport, hsuccess⟩ := Option.filter_eq_some_iff.mp hfailed
      rw [Bool.not_eq_true'] at hsuccess
      exact hprintable.details failed (List.mem_of_getElem? hreport) hsuccess
    have hprinted : id.toList.all isChar = true := hprintable.ids id (List.mem_of_getElem? hid)
    rw [hprinted, hdetails]
    rfl

/-- The document is right exactly where its texts consist of characters of XML and some report
fails exactly where the command does. -/
theorem projects_iff {command : String} {flowIds : List String}
    {reports : List RegressionReport} {failed : Prop} (hcommand : Printable command.toList)
    (h : reports.length ≤ flowIds.length) :
    Projects (junitForReports command flowIds reports) failed ↔
      PrintableTexts flowIds reports ∧
        ((∃ report ∈ reports, report.isSuccess = false) ↔ failed) := by
  have hcount : 1 ≤ (caseTrees command flowIds reports).countP isFailedCase ↔
      ∃ report ∈ reports, report.isSuccess = false := by
    rw [countP_caseTrees h, Nat.one_le_iff_ne_zero, ← Nat.pos_iff_ne_zero, List.countP_pos_iff]
    apply exists_congr
    intro report
    rw [Bool.not_eq_true']
  constructor
  · rintro ⟨attributes, content, hread, -, hfailed⟩
    have hchars := readDocument_chars hread
    have hprintable := (all_junit_iff hcommand h).mp hchars
    have htree := readDocument_write (toList_junitForReports command flowIds reports)
      (proper_junit command flowIds reports) hchars
    rw [htree] at hread
    cases hread
    exact ⟨hprintable, hcount.symm.trans hfailed⟩
  · rintro ⟨hprintable, hfailed⟩
    have htree := readDocument_write (toList_junitForReports command flowIds reports)
      (proper_junit command flowIds reports) ((all_junit_iff hcommand h).mpr hprintable)
    refine ⟨_, _, htree, ?_, hcount.trans hfailed⟩
    rw [countP_caseTrees h]
    rfl

end EggReplay.Cli.JunitReports
