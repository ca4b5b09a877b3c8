import ScriptFacts.Command.Run
import ScriptFacts.Proofs.Arena.Unfold
import ScriptFacts.Proofs.Command.Arguments
import ScriptFacts.Proofs.Fact.Recursion
import ScriptFacts.Proofs.Fact.Writing
import ScriptFacts.Proofs.Program.ExactGrammar

/-!
# How a run ends

A run can end in five ways: its input cannot be read, or holds no script, or the facts are printed,
or they find no place, or they are written. `Options.Ends` says what is left behind in each of them,
and everything else follows by cases. A file is touched in the last one only, and then just one.

* `Options.ends_run`: every run ends in one of the five ways.
* `run_export`: when the exit code is 0, and what has become of the files and of standard output.
-/
namespace ScriptFacts.Command

variable {base : List String}

/-! ## Files -/

namespace Files

theorem lookup_filter_ne {path other : List String} (h : other ≠ path)
    (entries : List (List String × ByteArray)) :
    (entries.filter fun entry => entry.1 ≠ path).lookup other = entries.lookup other := by
  induction entries with
  | nil => rfl
  | cons entry entries ih =>
    obtain ⟨name, content⟩ := entry
    by_cases hname : name = path
    · have hother : (other == name) = false := by
        rw [beq_eq_false_iff_ne, hname]
        exact h
      rw [List.filter_cons_of_neg (by simpa using hname), ih, List.lookup_cons, hother]
    · rw [List.filter_cons_of_pos (by simpa using hname), List.lookup_cons, List.lookup_cons, ih]

/-- The contents at other paths stay. -/
theorem get?_put_of_ne {path other : List String} (h : other ≠ path) (files : Files base)
    (content : ByteArray) : (files.put path content).get? other = files.get? other := by
  have hother : (other == path) = false := beq_eq_false_iff_ne.mpr h
  show List.lookup other ((path, content) :: _) = _
  rw [List.lookup_cons, hother]
  exact lookup_filter_ne h files.entries

/-- A text can be written where a path names a file, and only there. -/
theorem writeText_eq (files : Files base) (path text : String) :
    files.writeText path text
      = (files.target path).map fun target => files.put target text.toUTF8 := by
  unfold writeText
  cases files.target path <;> rfl

end Files

/-! ## The five ends of a run -/

namespace Options

/-- The path of the file to which the facts go, unless they are printed: the one that is given, or
else the one that is derived from the input. -/
def outputPath (options : Options) : String :=
  options.output.getD (defaultOutput options.input)

/-- The input holds a program with these facts. -/
def Exports (options : Options) (files : Files base) (facts : FactSet) : Prop :=
  ∃ text ast, files.readText options.input = .ok text
    ∧ (Stmt.ofText options.maxDepth text.toList).map Stmt.toAst = .ok ast
    ∧ ast.facts? = some facts

/-- What a run of an export may leave behind, events apart. -/
inductive Ends (options : Options) (files : Files base) : Outcome base → Prop
  | unreadable {error : FileError} {events : List Event}
    (hread : files.readText options.input = .error error) :
    Ends options files ⟨1, "", events, files⟩
  | noScript {text : String} {error : SyntaxError} {events : List Event}
    (hread : files.readText options.input = .ok text)
    (hscript : Stmt.ofText options.maxDepth text.toList = .error error) :
    Ends options files ⟨1, "", events, files⟩
  | printed {facts : FactSet} {events : List Event} (hfacts : options.Exports files facts)
    (hprint : options.stdout = true) :
    Ends options files ⟨0, facts.render options.style, events, files⟩
  | unwritable {facts : FactSet} {error : FileError} {events : List Event}
    (hfacts : options.Exports files facts) (hprint : options.stdout = false)
    (htarget : files.target options.outputPath = .error error) :
    Ends options files ⟨1, "", events, files⟩
  | written {facts : FactSet} {target : List String} {events : List Event}
    (hfacts : options.Exports files facts) (hprint : options.stdout = false)
    (htarget : files.target options.outputPath = .ok target) :
    Ends options files
      ⟨0, "", events, files.put target (facts.render options.style).toUTF8⟩

/-- The export in the plan for a script is that of its program. -/
theorem planScript_action (options : Options) (stmt : Stmt) :
    ∃ facts, stmt.toAst.facts? = some facts
      ∧ (options.planScript stmt).action = options.deliver facts := by
  obtain ⟨final, hfinal⟩ := Ast.exists_export stmt.closed_toAst stmt.acyclic_toAst
  refine ⟨final.facts, by rw [Ast.facts?, hfinal]; rfl, ?_⟩
  simp [planScript, hfinal]

theorem ends_deliver {options : Options} {files : Files base} {facts : FactSet}
    (hfacts : options.Exports files facts) {plan : Plan}
    (hplan : plan.action = options.deliver facts) : options.Ends files (plan.run files) := by
  rw [Plan.run, hplan, deliver]
  cases hprint : options.stdout with
  | true => exact .printed hfacts hprint
  | false =>
    simp only [Bool.false_eq_true, if_false, Files.writeText_eq]
    rw [← outputPath]
    cases htarget : files.target options.outputPath with
    | error error => exact .unwritable hfacts hprint htarget
    | ok target => exact .written hfacts hprint htarget

theorem ends_planStream {options : Options} {files : Files base} {text : String}
    {stream : TokenStream}
    (hread : files.readText options.input = .ok text)
    (hstream : TokenStream.ofText text.toList = .ok stream) {plan : Plan}
    (hplan : plan.action = (options.planStream stream).action) :
    options.Ends files (plan.run files) := by
  have hscript : Stmt.ofText options.maxDepth text.toList = Stmt.ofStream options.maxDepth stream :=
    Stmt.ofText_of_stream hstream
  unfold planStream at hplan
  cases hstmt : Stmt.ofStream options.maxDepth stream with
  | error error =>
    rw [hstmt] at hplan hscript
    rw [Plan.run, hplan]
    exact .noScript hread hscript
  | ok stmt =>
    rw [hstmt] at hplan hscript
    obtain ⟨facts, hfacts, haction⟩ := options.planScript_action stmt
    refine ends_deliver ⟨text, stmt.toAst, hread, ?_, hfacts⟩ (hplan.trans haction)
    rw [hscript]
    rfl

/-- Every run ends in one of the five ways. -/
theorem ends_run (options : Options) (files : Files base) :
    options.Ends files (options.run files) := by
  unfold run
  cases hread : files.readText options.input with
  | error error => exact .unreadable hread
  | ok text =>
    show options.Ends files ((options.planText text).run files)
    unfold planText
    cases hstream : TokenStream.ofText text.toList with
    | error error =>
      have hscript : Stmt.ofText options.maxDepth text.toList = .error error := by
        rw [Stmt.ofText, hstream]
        rfl
      exact .noScript hread hscript
    | ok stream => exact ends_planStream hread hstream rfl

end Options

/-! ## Exit codes -/

namespace Options

variable {options : Options} {files : Files base} {outcome : Outcome base}

/-- The input holds a program, and its facts have a place to go. -/
def Succeeds (options : Options) (files : Files base) : Prop :=
  ∃ text ast, files.readText options.input = .ok text
    ∧ (Stmt.ofText options.maxDepth text.toList).map Stmt.toAst = .ok ast
    ∧ (options.stdout = false → ∃ target, files.target options.outputPath = .ok target)

/-- An input has no other facts than its own. -/
theorem Exports.unique {facts other : FactSet} (h : options.Exports files facts)
    (hother : options.Exports files other) : facts = other := by
  obtain ⟨text, ast, hread, hast, hfacts⟩ := h
  obtain ⟨text', ast', hread', hast', hfacts'⟩ := hother
  obtain rfl := Except.ok.inj (hread.symm.trans hread')
  obtain rfl := Except.ok.inj (hast.symm.trans hast')
  exact Option.some.inj (hfacts.symm.trans hfacts')

theorem Exports.succeeds {facts : FactSet} (h : options.Exports files facts)
    (hplace : options.stdout = false → ∃ target, files.target options.outputPath = .ok target) :
    options.Succeeds files := by
  obtain ⟨text, ast, hread, hast, -⟩ := h
  exact ⟨text, ast, hread, hast, hplace⟩

theorem Ends.exitCode_eq_zero_iff (h : options.Ends files outcome) :
    outcome.exitCode = 0 ↔ options.Succeeds files := by
  cases h with
  | unreadable hread =>
    refine iff_of_false Nat.one_ne_zero ?_
    rintro ⟨text, ast, htext, -⟩
    rw [hread] at htext
    cases htext
  | noScript hread hscript =>
    refine iff_of_false Nat.one_ne_zero ?_
    rintro ⟨text, ast, htext, hast, -⟩
    obtain rfl := Except.ok.inj (hread.symm.trans htext)
    rw [hscript] at hast
    cases hast
  | printed hfacts hprint =>
    refine iff_of_true rfl (hfacts.succeeds fun hno => ?_)
    rw [hprint] at hno
    cases hno
  | unwritable hfacts hprint htarget =>
    refine iff_of_false Nat.one_ne_zero ?_
    rintro ⟨text, ast, -, -, hplace⟩
    obtain ⟨target, hok⟩ := hplace hprint
    rw [htarget] at hok
    cases hok
  | written hfacts hprint htarget =>
    exact iff_of_true rfl (hfacts.succeeds fun _ => ⟨_, htarget⟩)

/-- A run that fails leaves nothing behind. -/
theorem Ends.of_exitCode_ne_zero (h : options.Ends files outcome) (hcode : outcome.exitCode ≠ 0) :
    outcome.exitCode = 1 ∧ outcome.output = "" ∧ outcome.files = files := by
  cases h with
  | unreadable _ | noScript _ _ | unwritable _ _ _ => exact ⟨rfl, rfl, rfl⟩
  | printed _ _ | written _ _ _ => exact absurd rfl hcode

/-- A run that succeeds prints the facts or writes them into one file. -/
theorem Ends.of_exitCode_eq_zero (h : options.Ends files outcome) (hcode : outcome.exitCode = 0) :
    ∃ facts, options.Exports files facts
      ∧ (options.stdout = true →
        outcome.files = files ∧ outcome.output = facts.render options.style)
      ∧ (options.stdout = false → outcome.output = ""
        ∧ ∃ target, files.target options.outputPath = .ok target
          ∧ outcome.files = files.put target (facts.render options.style).toUTF8) := by
  cases h with
  | unreadable _ | noScript _ _ | unwritable _ _ _ => exact absurd hcode Nat.one_ne_zero
  | @printed facts events hfacts hprint =>
    refine ⟨facts, hfacts, fun _ => ⟨rfl, rfl⟩, fun hno => ?_⟩
    rw [hprint] at hno
    cases hno
  | @written facts target events hfacts hprint htarget =>
    refine ⟨facts, hfacts, fun hyes => ?_, fun _ => ⟨rfl, target, htarget, rfl⟩⟩
    rw [hprint] at hyes
    cases hyes

end Options

/-- The command lines that ask for an export are those of the grammar. Such a run has the exit code
0 exactly when its input can be read as a text, the text is a script within the limit that was asked
for, and the facts can be written, unless they are to be printed. Then the facts of the program,
with quotes around relation names unless these are to be bare, are either all of standard output,
where writing them piece by piece comes to the same, and no file is touched; or they are all of the
one file at the path that is given or else derived, and standard output is empty. Otherwise the exit
code is 1, standard output is empty and no file is touched. -/
theorem run_export (arguments : List String) (files : Files base) (options : Options) :
    (Request.ofArguments arguments = .ok (.export options) ↔ Asks arguments options)
      ∧ (Asks arguments options →
        let outcome := run arguments files
        let style : NameStyle := if options.bareRelations = true then .bare else .quoted
        (outcome.exitCode = 0 ↔ options.Succeeds files)
          ∧ (outcome.exitCode = 0 → ∃ facts, options.Exports files facts
            ∧ (options.stdout = true → outcome.files = files ∧ outcome.output = facts.render style
              ∧ ∀ sink : Sink, outcome.output.utf8ByteSize ≤ sink.room →
                (facts.write style sink).map Sink.stored
                  = .ok (sink.stored ++ outcome.output.toUTF8.data.toList))
            ∧ (options.stdout = false → outcome.output = ""
              ∧ ∃ target, files.target options.outputPath = .ok target
                ∧ outcome.files.get? target = some (facts.render style).toUTF8
                ∧ ∀ other ≠ target, outcome.files.get? other = files.get? other))
          ∧ (outcome.exitCode ≠ 0 →
            outcome.exitCode = 1 ∧ outcome.output = "" ∧ outcome.files = files)) := by
  refine ⟨Request.ofArguments_eq_ok_iff, fun hasks => ?_⟩
  have hrun : run arguments files = options.run files := by
    rw [run, Request.ofArguments_eq_ok_iff.mpr hasks]
  dsimp only
  rw [hrun]
  have hends := options.ends_run files
  refine ⟨hends.exitCode_eq_zero_iff, fun hcode => ?_, hends.of_exitCode_ne_zero⟩
  obtain ⟨facts, hfacts, hprinted, hwritten⟩ := hends.of_exitCode_eq_zero hcode
  refine ⟨facts, hfacts, fun hprint => ?_, fun hprint => ?_⟩
  · obtain ⟨hfiles, houtput⟩ := hprinted hprint
    refine ⟨hfiles, houtput, fun sink hroom => ?_⟩
    rw [FactSet.write_eq]
    rw [houtput] at hroom ⊢
    exact congrArg (Except.map Sink.stored) (Sink.putText_of_le hroom)
  · obtain ⟨houtput, target, htarget, hfiles⟩ := hwritten hprint
    rw [hfiles]
    exact ⟨houtput, target, htarget, files.get?_put_self _ _,
      fun other hother => Files.get?_put_of_ne hother files _⟩

/-- A script that lies above the working directory. With a limit that just suffices, its facts go
into a file at the root; with a smaller one there are none. Bare facts are printed. -/
theorem run_export_options :
    ∃ files : Files ["home", "w"], files.entries = [(["..", "in.ms"], "print 1;".toUTF8)]
      ∧ Asks ["--max-depth=2", "-o/out", "../in.ms"] ⟨"../in.ms", some "/out", false, false, 2⟩
      ∧ (run ["--max-depth=2", "-o/out", "../in.ms"] files).exitCode = 0
      ∧ (run ["--max-depth=2", "-o/out", "../in.ms"] files).output = ""
      ∧ (run ["--max-depth=2", "-o/out", "../in.ms"] files).files.get? ["..", "..", "out"]
        = some "'Print'('1','2').\n'Int'('2','1').\n".toUTF8
      ∧ (run ["../in.ms", "--max-depth", "1"] files).exitCode = 1
      ∧ (run ["--stdout", "../in.ms", "--bare-relations"] files).exitCode = 0
      ∧ (run ["--stdout", "../in.ms", "--bare-relations"] files).output
        = "Print('1','2').\nInt('2','1').\n"
      ∧ (run ["--stdout", "../in.ms", "--bare-relations"] files).files = files := by
  let files : Files ["home", "w"] := ⟨[(["..", "in.ms"], "print 1;".toUTF8)]⟩
  let toFile : Options := ⟨"../in.ms", some "/out", false, false, 2⟩
  let shallow : Options := ⟨"../in.ms", none, false, false, 1⟩
  let printed : Options := ⟨"../in.ms", none, true, true, 1024⟩
  let program : Ast := (Stmt.print (.int 1)).toAst
  let known : FactSet := ⟨#[⟨.node .print, ["1", "2"], rfl⟩, ⟨.node .int, ["2", "1"], rfl⟩]⟩
  have hread : files.readText "../in.ms" = .ok "print 1;" := by decide +kernel
  have hstream : TokenStream.ofText "print 1;".toList = .ok
      ⟨[⟨.keyword .print, ⟨1, 1⟩⟩, ⟨.int 1, ⟨1, 7⟩⟩, ⟨.symbol .semicolon, ⟨1, 8⟩⟩], ⟨1, 9⟩⟩ :=
    TokenStream.ofText_of_toOption (by decide +kernel)
  have hknown : program.facts? = some known := by
    rw [Ast.facts?, Ast.export?, Progress.run_node]
    decide +kernel
  have htarget : files.target "/out" = .ok ["..", "..", "out"] := by decide +kernel
  have hfile : toFile.Exports files known :=
    ⟨_, program, hread, by rw [Stmt.ofText_of_stream hstream]; rfl, hknown⟩
  have hbare : printed.Exports files known :=
    ⟨_, program, hread, by rw [Stmt.ofText_of_stream hstream]; rfl, hknown⟩
  have hshallow : ¬ shallow.Succeeds files := by
    rintro ⟨text, ast, htext, hast, -⟩
    obtain rfl := Except.ok.inj (hread.symm.trans htext)
    rw [Stmt.ofText_of_stream hstream] at hast
    cases hast
  obtain ⟨hasksFile, hrunFile⟩ := run_export ["--max-depth=2", "-o/out", "../in.ms"] files toFile
  obtain ⟨hasksShallow, hrunShallow⟩ := run_export ["../in.ms", "--max-depth", "1"] files shallow
  obtain ⟨hasksPrinted, hrunPrinted⟩ :=
    run_export ["--stdout", "../in.ms", "--bare-relations"] files printed
  have hasks := hasksFile.mp (by decide +kernel)
  obtain ⟨hfileCode, hwritten, -⟩ := hrunFile hasks
  obtain ⟨hshallowCode, -, hfails⟩ := hrunShallow (hasksShallow.mp (by decide +kernel))
  obtain ⟨hprintedCode, hprinted, -⟩ := hrunPrinted (hasksPrinted.mp (by decide +kernel))
  have hshallowOne := (hfails (mt hshallowCode.mp hshallow)).1
  -- The facts in the file
  have hfileZero := hfileCode.mpr (hfile.succeeds fun _ => ⟨_, htarget⟩)
  obtain ⟨facts, hfacts, -, hkept⟩ := hwritten hfileZero
  obtain ⟨hsilent, target, hfound, hcontent, -⟩ := hkept rfl
  obtain rfl := hfacts.unique hfile
  obtain rfl := Except.ok.inj (htarget.symm.trans hfound)
  -- The facts on standard output
  have hprintedZero := hprintedCode.mpr (hbare.succeeds fun hno => by cases hno)
  obtain ⟨other, hother, hshown, -⟩ := hprinted hprintedZero
  obtain ⟨hfiles, houtput, -⟩ := hshown rfl
  obtain rfl := hother.unique hbare
  exact ⟨files, rfl, hasks, hfileZero, hsilent, hcontent.trans (by decide +kernel), hshallowOne,
    hprintedZero, houtput.trans (by decide +kernel), hfiles⟩

end ScriptFacts.Command
