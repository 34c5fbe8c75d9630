import Mathlib.Logic.Function.Iterate
import RelationalAlgebra.Proofs.Program

/-!
# Conversations with the shell

A shell answers its lines one by one, up to the first that quits. An answer depends on the text of
its line, on the data set and on whether plans are shown, and only the lines that switch plans on
and off change anything for the lines behind them (`Program.shell_keeps_only_switch`). In particular
a line that fails leaves no trace in later answers.
-/
namespace RelationalAlgebra

theorem Text.inputLines_join {lines : List String} (h : ∀ line ∈ lines, '\n' ∉ line.toList) :
    inputLines (String.join (lines.map (· ++ "\n"))) = lines := by
  induction lines with
  | nil => rfl
  | cons line lines ih =>
    obtain ⟨hline, hlines⟩ := List.forall_mem_cons.1 h
    rw [List.map_cons, String.join_cons, inputLines_append_break hline, ih hlines]

namespace Shell
variable {d : DataSet} {showPlan : Bool} {filter : LogFilter} {line line' : String}

/-- What the shell makes of a line: its backspaces are applied, and blanks around it dropped. -/
def entered (line : String) : String := Text.trim (Text.erase line)

theorem entered_eq_trim (h : '\x08' ∉ line.toList) : entered line = Text.trim line := by
  rw [entered, Text.erase_eq_self h]

def reply (d : DataSet) (showPlan : Bool) : String → String
  | "" | ".quit" => ""
  | ".help" => helpText ++ "\n"
  | ".tables" => listing d
  | ".tree" => if showPlan then "tree off\n" else "tree on\n"
  | text =>
    match (respond d showPlan text).1 with
    | .ok table => table ++ "\n"
    | .error e => errorLine e

/-- Whether plans are shown after these lines: each `.tree` among them has switched that. -/
def switched (showPlan : Bool) (lines : List String) : Bool :=
  not^[lines.countP (entered · = ".tree")] showPlan

/-- The answers to lines up to the first that quits. -/
def replies (d : DataSet) (showPlan : Bool) (lines : List String) : List String :=
  (lines.takeWhile (entered · ≠ ".quit")).mapIdx fun i line =>
    reply d (switched showPlan (lines.take i)) (entered line)

/-! ### One line -/

theorem reply_of_parse_eq_error {text : String} {e : Error}
    (htext : text ∉ ["", ".quit", ".help", ".tables", ".tree"])
    (h : Expression.parse text = .error e) : reply d showPlan text = errorLine e := by
  unfold reply
  split <;> simp_all [respond_of_parse_eq_error]

theorem switched_cons (showPlan : Bool) (line : String) (lines : List String) :
    switched showPlan (line :: lines) =
      switched (if entered line = ".tree" then !showPlan else showPlan) lines := by
  unfold switched
  rw [List.countP_cons]
  split <;> simp_all

theorem replies_cons_of_quit (h : entered line = ".quit") (lines : List String) :
    replies d showPlan (line :: lines) = [] := by
  simp [replies, h]

theorem replies_cons (h : entered line ≠ ".quit") (lines : List String) :
    replies d showPlan (line :: lines) = reply d showPlan (entered line) ::
      replies d (if entered line = ".tree" then !showPlan else showPlan) lines := by
  have hnone : switched showPlan [] = showPlan := rfl
  simp [replies, h, List.mapIdx_cons, switched_cons, hnone]

theorem output_ofLine (hfilter : filter.Quiet) (line : String) :
    (Session.mk d filter showPlan).output (.ofLine line) = reply d showPlan (entered line) := by
  unfold Command.ofLine entered reply
  -- if the line is an expression it is answered by a table or an error
  cases h : (respond d showPlan (Text.trim (Text.erase line))).1 <;>
    split <;> simp_all [Session.output, hfilter.write_eq]

theorem next_ofLine (line : String) :
    (Session.mk d filter showPlan).next (.ofLine line) = if entered line = ".quit" then none
      else some ⟨d, filter, if entered line = ".tree" then !showPlan else showPlan⟩ := by
  unfold Command.ofLine entered
  split <;> simp_all [Session.next]

/-! ### Whole conversations -/

theorem run_eq_join_replies (hfilter : filter.Quiet) (lines : List String) :
    (Session.mk d filter showPlan).run lines = String.join (replies d showPlan lines) := by
  have hannounced : (Session.mk d filter showPlan).announcement = "" := hfilter.write_eq _
  induction lines generalizing showPlan with
  | nil => exact hannounced
  | cons line lines ih =>
    rw [Session.run, Session.step, hannounced, output_ofLine hfilter, next_ofLine]
    by_cases hquit : entered line = ".quit"
    · simp [hquit, replies_cons_of_quit, reply]
    · rw [replies_cons hquit, String.join_cons, if_neg hquit, ← ih (hfilter.write_eq _)]
      simp

/-- Another line in the place of one changes the answer to it, and no other. -/
theorem replies_replace (hquit : entered line ≠ ".quit") (htree : entered line ≠ ".tree")
    (hquit' : entered line' ≠ ".quit") (htree' : entered line' ≠ ".tree")
    (before after : List String) :
    replies d showPlan (before ++ line' :: after) =
      (replies d showPlan (before ++ line :: after)).set before.length
        (reply d (switched showPlan before) (entered line')) := by
  induction before generalizing showPlan with
  | nil =>
    rw [List.nil_append, List.nil_append, replies_cons hquit, replies_cons hquit', if_neg htree,
      if_neg htree']
    rfl
  | cons first before ih =>
    rw [List.cons_append, List.cons_append]
    by_cases hfirst : entered first = ".quit"
    · rw [replies_cons_of_quit hfirst, replies_cons_of_quit hfirst]
      rfl
    · rw [replies_cons hfirst, replies_cons hfirst, ih, List.length_cons, List.set_cons_succ,
        switched_cons]

end Shell

namespace Program
open Shell
variable {args : List String} {o : Options} {database : Option Database} {d : DataSet}

/-- A run without an expression and without a log prints the answers to the lines of its input. -/
theorem run_eq_join_replies (hargs : Options.ofArgs args = .ok o) (hcommand : o.command = none)
    (hverbose : o.verbose = false) (hd : (dataSet database).1 = .ok d) (input : String) :
    run args database none input =
      ⟨String.join (replies d o.showPlan (Text.inputLines input)), "", 0⟩ := by
  have hfilter : LogFilter.ofEnvironment none o.verbose = .standard false := by
    rw [hverbose]
    rfl
  rw [run, hargs]
  show runWith o database (.ofEnvironment none o.verbose) input = _
  rw [hfilter]
  unfold runWith start
  cases hdata : dataSet database with
  | mk loaded events =>
    have hloaded : loaded = .ok d := by rwa [hdata] at hd
    simp only [hloaded, hcommand, LogFilter.quiet_standard.write_eq,
      Shell.run_eq_join_replies LogFilter.quiet_standard, String.empty_append]

/-- The shell keeps nothing from line to line but whether plans are shown. What it prints are the
answers to its lines, up to the first that quits. An answer is made of the text of the line, the
data set and the switch, which is the option of the call flipped by each `.tree` before. So a line
that neither quits nor switches can be replaced by another such line, and no other answer
changes. -/
theorem shell_keeps_only_switch :
    (∀ d showPlan lines, (Session.mk d (.standard false) showPlan).run lines =
      String.join (replies d showPlan lines)) ∧
    (∀ args o database d, Options.ofArgs args = .ok o → o.command = none → o.verbose = false →
      (dataSet database).1 = .ok d →
      (∀ input, run args database none input =
        ⟨String.join (replies d o.showPlan (Text.inputLines input)), "", 0⟩) ∧
      ∀ lines : List String, (∀ line ∈ lines, '\n' ∉ line.toList) →
        run args database none (String.join (lines.map (· ++ "\n"))) =
          ⟨String.join (replies d o.showPlan lines), "", 0⟩) ∧
    (∀ line, '\x08' ∉ line.toList → entered line = Text.trim line) ∧
    ∀ d showPlan before line line' after, entered line ∉ [".quit", ".tree"] →
      entered line' ∉ [".quit", ".tree"] → replies d showPlan (before ++ line' :: after) =
        (replies d showPlan (before ++ line :: after)).set before.length
          (reply d (switched showPlan before) (entered line')) := by
  refine ⟨?_, ?_, fun _ => entered_eq_trim, ?_⟩
  · exact fun d showPlan => Shell.run_eq_join_replies LogFilter.quiet_standard
  · intro args o database d hargs hcommand hverbose hd
    have hrun := run_eq_join_replies hargs hcommand hverbose hd
    refine ⟨hrun, ?_⟩
    intro lines hlines
    rw [hrun, Text.inputLines_join hlines]
  · intro d showPlan before line line' after h h'
    simp only [List.mem_cons, List.not_mem_nil, or_false, not_or] at h h'
    exact replies_replace h.1 h.2 h'.1 h'.2 before after

/-- A failing line between two that switch plans; a line behind `.quit` is not read. If help is
asked for instead, that is all that changes. -/
theorem shell_keeps_only_switch_failing_line :
    run ["-t"] none none ".tree\nlakes $\n\n  .tree \n.quit\n.help\n" =
      ⟨"tree off\nError: Invalid character: $ at position 6\ntree on\n", "", 0⟩ ∧
    replies .empty true [".tree", ".help", ".tree"] =
      (replies .empty true [".tree", "lakes $", ".tree"]).set 1 (helpText ++ "\n") := by
  obtain ⟨d, hd⟩ := exists_sample
  have hargs : Options.ofArgs ["-t"] = .ok ⟨none, none, none, true, false⟩ := by decide +kernel
  have hlines : Text.inputLines ".tree\nlakes $\n\n  .tree \n.quit\n.help\n" =
      [".tree", "lakes $", "", "  .tree ", ".quit", ".help"] := by decide +kernel
  have hfailing : reply d false "lakes $" = "Error: Invalid character: $ at position 6\n" := by
    rw [reply_of_parse_eq_error (by decide) parse_lakes_dollar]
    rfl
  have hswitch : entered ".tree" = ".tree" := by decide +kernel
  have hquery : entered "lakes $" = "lakes $" := by decide +kernel
  have hblank : entered "" = "" := by decide +kernel
  have hswitch' : entered "  .tree " = ".tree" := by decide +kernel
  have hquit : entered ".quit" = ".quit" := by decide +kernel
  have hhelp : entered ".help" = ".help" := by decide +kernel
  obtain ⟨_, hruns, _, hreplace⟩ := shell_keeps_only_switch
  constructor
  · have hreplies : replies d true [".tree", "lakes $", "", "  .tree ", ".quit", ".help"] =
        [reply d true ".tree", reply d false "lakes $", reply d false "",
          reply d false ".tree"] := by
      simp [replies_cons, replies_cons_of_quit, hswitch, hquery, hblank, hswitch', hquit]
    rw [(hruns _ _ none d hargs rfl rfl hd).1, hlines, hreplies, hfailing]
    rfl
  · have hreplaced := hreplace .empty true [".tree"] "lakes $" ".help" [".tree"]
      (by rw [hquery]; decide) (by rw [hhelp]; decide)
    rwa [hhelp] at hreplaced

end Program

end RelationalAlgebra
