import RelationalAlgebra.Program
import RelationalAlgebra.Proofs.Margins

/-!
# One expression, asked twice

An expression can be given to the program as an option or typed as a line of the shell. The shell
answers what is left of a line without the blanks at its ends, and the program answers the option as
it stands. So both agree on a trimmed text, and on other texts up to the positions in errors and up
to the blanks that the reader of expressions does not skip
(`Program.option_agrees_with_line`).
-/
namespace RelationalAlgebra

/-! ### Lines -/

namespace Text

theorem lines_append_break {line : String} (h : '\n' ∉ line.toList) (rest : String) :
    lines (line ++ "\n" ++ rest) = line :: lines rest := by
  have hnone : ∀ c ∈ line.toList, decide (c = '\n') = false := by
    intro c hc
    rw [decide_eq_false_iff_not]
    intro heq
    exact h (heq ▸ hc)
  have htext : (line ++ "\n" ++ rest).toList = line.toList ++ '\n' :: rest.toList := by simp
  rw [lines, htext, List.splitOnP_append_cons_of_forall_mem hnone _ (decide_eq_true rfl),
    List.map_cons, String.ofList_toList, lines]

theorem inputLines_append_break {line : String} (h : '\n' ∉ line.toList) (rest : String) :
    inputLines (line ++ "\n" ++ rest) = line :: inputLines rest := by
  have hne : lines rest ≠ [] := by simp [lines, List.splitOnP_ne_nil]
  unfold inputLines
  rw [lines_append_break h]
  simp only [List.getLast?_cons_of_ne_nil hne, List.dropLast_cons_of_ne_nil hne]
  split <;> rfl

theorem inputLines_of_line {line : String} (h : '\n' ∉ line.toList) :
    inputLines (line ++ "\n") = [line] := by
  have hlines := inputLines_append_break h ""
  rwa [String.append_empty] at hlines

theorem foldl_type {clusters : List (List Char)} (h : ['\x08'] ∉ clusters) (t : Typed) :
    (clusters.foldl Typed.type t).text = clusters.flatten.reverse ++ t.text := by
  induction clusters generalizing t with
  | nil => rfl
  | cons cluster clusters ih =>
    obtain ⟨hcluster, hclusters⟩ := not_or.1 (mt List.mem_cons.2 h)
    rw [List.foldl_cons, ih hclusters, Typed.type, if_neg (Ne.symm hcluster)]
    simp

theorem erase_eq_self {line : String} (h : '\x08' ∉ line.toList) : erase line = line := by
  have hclusters : ['\x08'] ∉ clusters line.toList := by
    intro hmem
    apply h
    rw [← flatten_clusters line.toList]
    exact List.mem_flatten_of_mem hmem List.mem_cons_self
  rw [erase, foldl_type hclusters, flatten_clusters]
  simp

end Text

/-! ### Answers -/

theorem respond_congr {d : DataSet} {text text' : String}
    (h : Expression.parse text = Expression.parse text') (showPlan : Bool) :
    (respond d showPlan text).1 = (respond d showPlan text').1 := by
  have hanswer : (answer d text).1 = (answer d text').1 := by rw [answer_eq, answer_eq, h]
  simp only [respond, hanswer]

theorem respond_of_parse_eq_error {d : DataSet} {text : String} {e : Error}
    (h : Expression.parse text = .error e) (showPlan : Bool) :
    (respond d showPlan text).1 = .error e := by
  have hanswer : (answer d text).1 = .error e := by
    rw [answer_eq, h]
    rfl
  simp only [respond, hanswer]
  rfl

/-! ### The log -/

namespace LogFilter

theorem write_append (f : LogFilter) (events more : List Event) :
    f.write (events ++ more) = f.write events ++ f.write more := by
  simp [write, List.filter_append, String.join_append]

/-- The filter lets no event pass. -/
def Quiet (f : LogFilter) : Prop := ∀ e, f.passes e = false

theorem Quiet.write_eq {f : LogFilter} (h : f.Quiet) (events : List Event) :
    f.write events = "" := by
  have hnone : events.filter f.passes = [] := List.filter_eq_nil_iff.2 fun e _ => by simp [h e]
  rw [write, hnone]
  rfl

/-- All events of a run are for debugging, which is not asked for. -/
theorem quiet_standard : (standard false).Quiet := by
  intro e
  have hrank : 4 ≤ e.severity.rank := by
    cases e <;> simp [Event.severity, Severity.rank]
  have hlevel : ((standard false).deciding? e).bind Directive.level = none ∨
      ((standard false).deciding? e).bind Directive.level = some .warn := by
    simp only [deciding?, standard, List.foldl_cons, List.foldl_nil, Bool.false_eq_true, if_false]
    split
    · exact .inr rfl
    · exact .inl rfl
  unfold passes
  rcases hlevel with hnone | hwarn
  · rw [hnone]
  · rw [hwarn]
    have hwarns : Severity.warn.rank = 2 := rfl
    simp only [decide_eq_false_iff_not]
    omega

end LogFilter

/-! ### Runs -/

namespace Program
variable {o : Options} {database : Option Database} {d : DataSet} {filter : LogFilter}

/-- What is logged until the data set is there. -/
def started (database : Option Database) (d : DataSet) : List Event :=
  (dataSet database).2 ++ [.ready d.size]

/-- What a run leaves that was given one expression, from what it responds. -/
def replied (filter : LogFilter) (started : List Event) :
    Except Error String × List Event → Outcome
  | (.ok table, events) => ⟨filter.write (started ++ events) ++ table ++ "\n", "", 0⟩
  | (.error e, events) => ⟨filter.write (started ++ events), Shell.errorLine e, 1⟩

/-- What a shell leaves that was given one expression, from what it responds. -/
def conversed (filter : LogFilter) (started : List Event) :
    Except Error String × List Event → Outcome
  | (.ok table, events) =>
    ⟨filter.write (started ++ [.noTerminal] ++ events) ++ table ++ "\n" ++
      filter.write [.noTerminal], "", 0⟩
  | (.error e, events) =>
    ⟨filter.write (started ++ [.noTerminal] ++ events) ++ Shell.errorLine e ++
      filter.write [.noTerminal], "", 0⟩

/-- Without a log a failing run only tells the error. -/
theorem replied_of_quiet (hfilter : filter.Quiet) (started : List Event)
    {response : Except Error String × List Event} {e : Error} (h : response.1 = .error e) :
    replied filter started response = fail e := by
  obtain ⟨result, events⟩ := response
  cases h
  rw [replied, hfilter.write_eq, fail]

theorem conversed_of_quiet (hfilter : filter.Quiet) (started : List Event)
    {response : Except Error String × List Event} {e : Error} (h : response.1 = .error e) :
    conversed filter started response = ⟨Shell.errorLine e, "", 0⟩ := by
  obtain ⟨result, events⟩ := response
  cases h
  rw [conversed, hfilter.write_eq, hfilter.write_eq, String.empty_append, String.append_empty]

theorem runWith_option (hd : (dataSet database).1 = .ok d) (filter : LogFilter)
    (text input : String) : runWith { o with command := some text } database filter input =
      replied filter (started database d) (respond d o.showPlan text) := by
  unfold runWith start started
  cases hdata : dataSet database with
  | mk loaded events =>
    have hloaded : loaded = .ok d := by rwa [hdata] at hd
    cases hresponse : respond d o.showPlan text with
    | mk result more =>
      cases result <;>
        simp only [hloaded, hresponse, replied, fail, LogFilter.write_append, String.append_assoc,
          String.append_empty]

theorem runWith_line (hd : (dataSet database).1 = .ok d) (filter : LogFilter)
    {line text : String} (hline : '\n' ∉ line.toList)
    (htext : Shell.Command.ofLine line = .expression text) :
    runWith { o with command := none } database filter (line ++ "\n") =
      conversed filter (started database d) (respond d o.showPlan text) := by
  unfold runWith start started
  cases hdata : dataSet database with
  | mk loaded events =>
    have hloaded : loaded = .ok d := by rwa [hdata] at hd
    cases hresponse : respond d o.showPlan text with
    | mk result more =>
      cases result <;>
        simp only [hloaded, hresponse, Text.inputLines_of_line hline, Shell.Session.run,
          Shell.Session.announcement, Shell.Session.step, htext, Shell.Session.output,
          Shell.Session.next, conversed, LogFilter.write_append, String.append_assoc]

theorem ofLine_eq_expression {line : String}
    (h : Text.trim (Text.erase line) ∉ ["", ".quit", ".help", ".tables", ".tree"]) :
    Shell.Command.ofLine line = .expression (Text.trim (Text.erase line)) := by
  unfold Shell.Command.ofLine
  split <;> simp_all

/-- What a text is answered with when what is left of it without the blanks at its ends is answered
with `trimmed`. -/
inductive Trimmed (text : String) (trimmed : Except Error String) : Except Error String → Prop
  /-- The same. -/
  | same (h : ∀ x, Expression.parse (Text.trim text) ≠ .error (.lex x)) :
    Trimmed text trimmed trimmed
  /-- The same error of reading, further on by the blanks in front. -/
  | moved {x} (h : trimmed = .error (.lex x)) :
    Trimmed text trimmed (.error (.lex (x.moved (Text.leading text).length)))
  /-- One of the blanks at the ends, which the reader of expressions does not skip. -/
  | stray {i c} (h : Text.Stray text i c) :
    Trimmed text trimmed (.error (.lex (.invalidCharacter c i)))

theorem trimmed_respond (d : DataSet) (showPlan : Bool) (text : String) :
    Trimmed text (respond d showPlan (Text.trim text)).1 (respond d showPlan text).1 := by
  rcases Expression.parse_trim text with
    ⟨i, c, hparse, hstray⟩ | ⟨x, htrim, hparse⟩ | ⟨htrim, hparse⟩
  · rw [respond_of_parse_eq_error hparse]
    exact .stray hstray
  · rw [respond_of_parse_eq_error hparse]
    exact .moved (respond_of_parse_eq_error htrim showPlan)
  · rw [respond_congr hparse]
    exact .same htrim

/-- A line that is no command of the shell is answered as an option with what the shell makes of it:
with the same table or the same error. Against the option with the line's own text, unless
backspaces erase some of it, the answer is the same for a trimmed line. For other lines positions in
the text are smaller by the blanks in front, and blanks that stop the reader of expressions are
gone. -/
theorem option_agrees_with_line (o : Options) (hd : (dataSet database).1 = .ok d)
    (filter : LogFilter) {line : String} (hline : '\n' ∉ line.toList)
    (hquery : Text.trim (Text.erase line) ∉ ["", ".quit", ".help", ".tables", ".tree"])
    (input : String) :
    ∃ shell,
      runWith { o with command := none } database filter (line ++ "\n") =
        conversed filter (started database d) shell ∧
      runWith { o with command := some (Text.trim (Text.erase line)) } database filter input =
        replied filter (started database d) shell ∧
      ('\x08' ∉ line.toList → ∃ single,
        runWith { o with command := some line } database filter input =
          replied filter (started database d) single ∧
        Trimmed line shell.1 single.1 ∧ (Text.trim line = line → single = shell)) := by
  refine ⟨_, runWith_line hd filter hline (ofLine_eq_expression hquery),
    runWith_option hd filter _ input, ?_⟩
  intro hbackspace
  rw [Text.erase_eq_self hbackspace]
  refine ⟨_, runWith_option hd filter line input, trimmed_respond d o.showPlan line, ?_⟩
  intro htrim
  rw [htrim]

theorem exists_sample : ∃ d, (dataSet none).1 = .ok d := by
  have hok : DataSet.sample.isOk := by decide +kernel
  cases h : DataSet.sample with
  | ok d => exact ⟨d, h⟩
  | error e =>
    rw [h] at hok
    cases hok

/-- A trimmed query of the sample data set is answered alike. -/
theorem option_agrees_with_line_join :
    '\n' ∉ "lakes ⨝ area".toList ∧
    Text.trim (Text.erase "lakes ⨝ area") ∉ ["", ".quit", ".help", ".tables", ".tree"] ∧
    ∃ d response, (dataSet none).1 = .ok d ∧
      runWith ⟨none, some "lakes ⨝ area", none, true, false⟩ none (.standard false) "" =
        replied (.standard false) (started none d) response ∧
      runWith ⟨none, none, none, true, false⟩ none (.standard false) "lakes ⨝ area\n" =
        conversed (.standard false) (started none d) response := by
  have hline : '\n' ∉ "lakes ⨝ area".toList := by decide
  have herase : Text.erase "lakes ⨝ area" = "lakes ⨝ area" := Text.erase_eq_self (by decide)
  have htrim : Text.trim "lakes ⨝ area" = "lakes ⨝ area" := by decide
  have hquery : Text.trim (Text.erase "lakes ⨝ area") ∉
      ["", ".quit", ".help", ".tables", ".tree"] := by
    rw [herase, htrim]
    decide
  obtain ⟨d, hd⟩ := exists_sample
  obtain ⟨response, shell, _, hsingle⟩ := option_agrees_with_line
    ⟨none, none, none, true, false⟩ hd (.standard false) hline hquery ""
  obtain ⟨single, hoption, _, hsame⟩ := hsingle (by decide)
  rw [hsame htrim] at hoption
  exact ⟨hline, hquery, d, response, hd, hoption, shell⟩

theorem parse_lakes_dollar :
    Expression.parse "lakes $" = .error (.lex (.invalidCharacter '$' 6)) := by
  have lexed : TokenStream.ofText "lakes $" =
    ⟨[.lit .word "lakes"], some (.invalidCharacter '$' 6)⟩ := by decide +kernel
  rw [Expression.parse_eq, lexed]
  cbv

/-- Blanks in front of a line are gone before the shell counts its characters, but those in front of
an option count. -/
theorem option_disagrees_with_line :
    '\n' ∉ "  lakes $".toList ∧
    Text.trim "  lakes $" ∉ ["", ".quit", ".help", ".tables", ".tree"] ∧
    run ["-c", "  lakes $"] none none "" =
      ⟨"", "Error: Invalid character: $ at position 8\n", 1⟩ ∧
    run [] none none "  lakes $\n" =
      ⟨"Error: Invalid character: $ at position 6\n", "", 0⟩ := by
  obtain ⟨d, hd⟩ := exists_sample
  have hline : '\n' ∉ "  lakes $".toList := by decide
  have hcommand : Shell.Command.ofLine "  lakes $" = .expression "lakes $" := by decide +kernel
  have hparse : Expression.parse "  lakes $" = .error (.lex (.invalidCharacter '$' 8)) := by
    have lexed : TokenStream.ofText "  lakes $" =
      ⟨[.lit .word "lakes"], some (.invalidCharacter '$' 8)⟩ := by decide +kernel
    rw [Expression.parse_eq, lexed]
    cbv
  refine ⟨hline, by decide, ?_, ?_⟩
  · have hargs : Options.ofArgs ["-c", "  lakes $"] =
      .ok ⟨none, some "  lakes $", none, false, false⟩ := by decide +kernel
    have hrun := runWith_option (o := ⟨none, none, none, false, false⟩) hd (.standard false)
      "  lakes $" ""
    rw [replied_of_quiet LogFilter.quiet_standard _ (respond_of_parse_eq_error hparse _)] at hrun
    rw [run, hargs]
    exact hrun
  · have hargs : Options.ofArgs [] = .ok ⟨none, none, none, false, false⟩ := by decide +kernel
    have hrun := runWith_line (o := ⟨none, none, none, false, false⟩) hd (.standard false) hline
      hcommand
    rw [conversed_of_quiet LogFilter.quiet_standard _ (respond_of_parse_eq_error parse_lakes_dollar _)] at hrun
    rw [run, hargs]
    exact hrun

end Program
end RelationalAlgebra
