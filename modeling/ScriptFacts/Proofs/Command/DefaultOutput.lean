import ScriptFacts.Proofs.Command.Arguments
import ScriptFacts.Proofs.Command.Files

/-!
# Where the facts go when nothing is said about it

The file that is written then lies beside the input under another name: the name of the input takes
on the extension of files of facts, which has a dot in it and so is never the old extension. The
input itself is not touched, whatever dots its name contains.

A name of two dots and an extension, such as `..x`, is the exception. What is left of it are the two
dots, so that the facts would have to be written into the directory above. That cannot be done, and
the run fails; still nothing is touched.

* `Files.exists_beside`: what is written under another name in the same directory.
* `Options.Ends.read_eq`: a run that writes no other file than that leaves the input as it was.
* `defaultOutput_beside`: the path that is derived, and the runs that derive it.
* `defaultOutput_two_dots`: the exception.
-/
namespace ScriptFacts.Command

open ScriptFacts.Command.Path

variable {base : List String}

/-- A path at which a file is read ends with the name of that file, and what is written under
another name with the same directory part lies beside it. -/
theorem Files.exists_beside {files : Files base} {input : String} {content : ByteArray}
    (hread : files.read input = .ok content) :
    ∃ directory name parent, Names input.toList directory name ∧ isFileName name = true
      ∧ files.walk (begin base input).1 (begin base input).2
        = .ok (.file (below base parent (String.ofList name)))
      ∧ ∀ next target, '/' ∉ next → next ≠ [] →
        files.target (String.ofList (directory ++ next)) = .ok target →
          target = below base parent (String.ofList next) ∧ files.isDirectory target = false := by
  obtain ⟨directory, name, hnames⟩ := exists_names input.toList
  obtain ⟨spot, ancestors, hbegin⟩ := exists_begin base hnames.directory
  have hinput : input = String.ofList (directory ++ name) := by
    rw [← hnames.path_eq, String.ofList_toList]
  have hne : directory ++ name ≠ [] := by
    intro hnil
    rw [hinput, hnil] at hread
    cases hread
  have hat := hbegin name hnames.slash_notMem hne
  rw [← hinput] at hat
  obtain ⟨parent, hparent, hwalk, hfile⟩ := read_eq_ok hat hread
  refine ⟨directory, name, parent, hnames, by simpa using hfile, by rw [hat]; exact hwalk, ?_⟩
  intro next target hslash hnext htarget
  have hnonempty : String.ofList next ≠ "" := fun h =>
    hnext (by simpa using congrArg String.toList h)
  obtain ⟨other, hother, rfl, hdirectory⟩ := target_eq_ok
    (hbegin next hslash (List.append_ne_nil_of_right_ne_nil _ hnext)) hnonempty htarget
  obtain rfl := Spot.directory.inj (Except.ok.inj (hparent.symm.trans hother))
  exact ⟨rfl, hdirectory⟩

/-- A run that writes no more than one other file leaves what is read at a path as it was. -/
theorem Options.Ends.read_eq {options : Options} {files : Files base} {outcome : Outcome base}
    (h : options.Ends files outcome) {path : String} {file : List String}
    (hwalk : files.walk (Files.begin base path).1 (Files.begin base path).2 = .ok (.file file))
    (htarget : ∀ target, files.target options.outputPath = .ok target →
      file ≠ target ∧ files.isDirectory target = false) :
    outcome.files.read path = files.read path := by
  cases h with
  | unreadable _ | noScript _ _ | printed _ _ | unwritable _ _ _ => rfl
  | @written facts target events _ _ hfound =>
    obtain ⟨hne, hdirectory⟩ := htarget target hfound
    exact Files.read_put hdirectory _ hwalk hne

/-- The path that is derived from that of a file has the same directory part and another last
component. That is the name of a file, unless the name of the input is lost. -/
theorem exists_defaultOutput {input : String} {directory name : List Char}
    (h : Names input.toList directory name) (hname : isFileName name = true) :
    ∃ next, Names (defaultOutput input).toList directory next ∧ next ≠ name ∧ next ≠ []
      ∧ (¬ LosesName name ∧ isFileName next = true ∧ Takes factsExtension.toList name next
        ∨ LosesName name ∧ next = ['.', '.']) := by
  have hnonempty : name ≠ [] := by
    rintro rfl
    cases hname
  obtain ⟨next, hnext, hcase⟩ := h.withExtension_eq hname factsExtension.toList
  have heq : (defaultOutput input).toList = directory ++ next := by
    rw [defaultOutput, String.toList_ofList, hnext]
  obtain ⟨hkeeps, htakes⟩ | ⟨hloses, rfl⟩ := hcase
  · have hfile : isFileName next = true := htakes.isFileName (by decide) hnonempty
    refine ⟨next, ⟨heq, h.directory, htakes.slash_notMem (by decide) h.slash_notMem⟩,
      htakes.ne (by decide), ?_, .inl ⟨hkeeps, hfile, htakes⟩⟩
    rintro rfl
    cases hfile
  · refine ⟨['.', '.'], ⟨heq, h.directory, by decide⟩, ?_, List.cons_ne_nil _ _,
      .inr ⟨hloses, rfl⟩⟩
    rintro rfl
    cases hname

/-- The path that is derived from that of a file has the same directory part and another last
component: the name of the file with the new extension in the place of the old one, or after the
name if it had none. Only a name of two dots and an extension does not take it on, and two dots are
left. Every path at which a file is read is the path of a file, and whatever its name is, a command
line that names no place for the facts leaves what is read there as it was. -/
theorem defaultOutput_beside (input : String) :
    (∀ directory name, Names input.toList directory name → isFileName name = true →
      ∃ next, Names (defaultOutput input).toList directory next ∧ next ≠ name
        ∧ (¬ LosesName name ∧ isFileName next = true ∧ Takes factsExtension.toList name next
          ∨ LosesName name ∧ next = ['.', '.']))
      ∧ ∀ (base : List String) (files : Files base) (content : ByteArray),
        files.read input = .ok content →
        (∃ directory name, Names input.toList directory name ∧ isFileName name = true)
          ∧ ∀ arguments options, Request.ofArguments arguments = .ok (.export options) →
            options.input = input → NamesNoPlace arguments →
              (run arguments files).files.read input = .ok content := by
  refine ⟨fun directory name hnames hname => ?_, fun base files content hread => ?_⟩
  · obtain ⟨next, hnext, hne, -, hcase⟩ := exists_defaultOutput hnames hname
    exact ⟨next, hnext, hne, hcase⟩
  obtain ⟨directory, name, parent, hnames, hname, hwalk, hbeside⟩ := Files.exists_beside hread
  obtain ⟨next, hnext, hne, hnonempty, -⟩ := exists_defaultOutput hnames hname
  refine ⟨⟨directory, name, hnames, hname⟩, ?_⟩
  rintro arguments options hrequest rfl hplace
  have hrun : run arguments files = options.run files := by
    rw [run, hrequest]
  obtain ⟨hunnamed, -⟩ := (Request.ofArguments_eq_ok_iff.mp hrequest).unplaced hplace
  have houtput : options.outputPath = String.ofList (directory ++ next) := by
    rw [Options.outputPath, hunnamed, Option.getD_none, ← hnext.path_eq, String.ofList_toList]
  rw [hrun, ← hread]
  refine (options.ends_run files).read_eq hwalk fun target htarget => ?_
  rw [houtput] at htarget
  obtain ⟨rfl, hdirectory⟩ := hbeside next target hnext.slash_notMem hnonempty htarget
  refine ⟨fun heq => hne ?_, hdirectory⟩
  exact (String.ofList_injective (Files.below_injective base parent heq)).symm

/-- The facts of a script above the working directory that is called `x.facts.P` go into
`x.facts.facts.P`, and the script stays as it was. -/
theorem defaultOutput_beside_facts :
    ∃ files : Files ["home", "w"], files.read "/home/x.facts.P" = .ok "print 1;".toUTF8
      ∧ Request.ofArguments ["--bare-relations", "--", "/home/x.facts.P"]
        = .ok (.export ⟨"/home/x.facts.P", none, false, true, 1024⟩)
      ∧ NamesNoPlace ["--bare-relations", "--", "/home/x.facts.P"]
      ∧ Names (defaultOutput "/home/x.facts.P").toList "/home/".toList "x.facts.facts.P".toList
      ∧ Takes factsExtension.toList "x.facts.P".toList "x.facts.facts.P".toList
      ∧ (run ["--bare-relations", "--", "/home/x.facts.P"] files).files.read "/home/x.facts.P"
        = .ok "print 1;".toUTF8 := by
  let files : Files ["home", "w"] := ⟨[(["..", "x.facts.P"], "print 1;".toUTF8)]⟩
  have hread : files.read "/home/x.facts.P" = .ok "print 1;".toUTF8 := by decide +kernel
  have hrequest : Request.ofArguments ["--bare-relations", "--", "/home/x.facts.P"]
      = .ok (.export ⟨"/home/x.facts.P", none, false, true, 1024⟩) := by
    decide +kernel
  have hplace : NamesNoPlace ["--bare-relations", "--", "/home/x.facts.P"] := by
    unfold NamesNoPlace
    decide +kernel
  have hdirectory : IsDirectoryPart "/home/".toList := .inr ⟨"/home".toList, by decide⟩
  have hinput : Names "/home/x.facts.P".toList "/home/".toList "x.facts.P".toList :=
    ⟨by decide, hdirectory, by decide⟩
  have hdefault : defaultOutput "/home/x.facts.P" = "/home/x.facts.facts.P" := by decide +kernel
  have houtput : Names (defaultOutput "/home/x.facts.P").toList "/home/".toList
      "x.facts.facts.P".toList := by
    rw [hdefault]
    exact ⟨by decide, hdirectory, by decide⟩
  obtain ⟨hderived, hkept⟩ := defaultOutput_beside "/home/x.facts.P"
  obtain ⟨next, hnext, -, hcase⟩ := hderived _ _ hinput (by decide)
  obtain ⟨-, rfl⟩ := hnext.unique houtput
  obtain ⟨-, hkeeps⟩ := hkept _ files _ hread
  obtain ⟨-, -, htakes⟩ | ⟨-, hdots⟩ := hcase
  · exact ⟨files, hread, hrequest, hplace, houtput, htakes, hkeeps _ _ hrequest rfl hplace⟩
  · exact absurd hdots (by decide)

/-- The facts of a script that is called `..x` have no place to go: its name would become
`..facts.P`, but the path that is derived is that of the directory above, and the run fails. -/
theorem defaultOutput_two_dots :
    ∃ files : Files, files.read "..x" = .ok "print 1;".toUTF8
      ∧ Takes factsExtension.toList "..x".toList "..facts.P".toList
      ∧ defaultOutput "..x" = ".."
      ∧ (¬ ∃ directory name next, Names "..x".toList directory name
        ∧ Names (defaultOutput "..x").toList directory next
        ∧ Takes factsExtension.toList name next)
      ∧ (run ["..x"] files).exitCode = 1 := by
  let files : Files := ⟨[(["..x"], "print 1;".toUTF8)]⟩
  let options : Options := ⟨"..x", none, false, false, 1024⟩
  have hread : files.read "..x" = .ok "print 1;".toUTF8 := by decide +kernel
  have hdefault : defaultOutput "..x" = ".." := by decide +kernel
  have hinput : Names "..x".toList [] "..x".toList := ⟨by decide, .inl rfl, by decide⟩
  have houtput : Names "..".toList [] "..".toList := ⟨by decide, .inl rfl, by decide⟩
  have hextension : HasExtension "..x".toList ['.'] ['x'] :=
    ⟨by decide, List.cons_ne_nil _ _, by decide⟩
  have hrequest : Request.ofArguments ["..x"] = .ok (.export options) := by decide +kernel
  have hpath : options.outputPath = ".." := hdefault
  have htarget : files.target ".." = .error .isDirectory := by decide +kernel
  refine ⟨files, hread, .replaced hextension, hdefault, ?_, ?_⟩
  · rintro ⟨directory, name, next, hnames, hnext, htakes⟩
    rw [hdefault] at hnext
    obtain ⟨rfl, rfl⟩ := hnames.unique hinput
    obtain ⟨-, rfl⟩ := hnext.unique houtput
    cases htakes.isFileName (by decide) (by decide)
  · have hrun : run ["..x"] files = options.run files := by
      rw [run, hrequest]
    have hends := options.ends_run files
    rw [hrun]
    refine (hends.of_exitCode_ne_zero fun hzero => ?_).1
    obtain ⟨_, _, _, _, hplaces⟩ := hends.exitCode_eq_zero_iff.mp hzero
    obtain ⟨target, hfound⟩ := hplaces rfl
    rw [hpath, htarget] at hfound
    cases hfound

end ScriptFacts.Command
