import ScriptFacts.Proofs.Command.Outcome
import ScriptFacts.Proofs.Command.Path

/-!
# Finding files, and finding them again

Two paths with the same directory part have the same components but for the last one. So what is
read at the one and what is written at the other lies in the same directory, and if their last
components differ, what is written is not what was read. Writing a file also leaves the way to every
other file as it was, because a directory is never written over.

* `Files.read_eq_ok`, `Files.target_eq_ok`: what is read and written at a path lies in the directory
  to which the components before the last one lead.
* `Files.read_put`: what was read at a path is read there again after another file was written.
-/
namespace ScriptFacts.Command

/-! ## Components -/

namespace Path

theorem components_go_append (text rest begun : List Char) :
    components.go (text ++ '/' :: rest) begun
      = components.go text begun ++ components.go rest [] := by
  induction text generalizing begun with
  | nil => simp [components.go]
  | cons c text ih =>
    rw [List.cons_append]
    by_cases hslash : c = '/'
    · simp [components.go, hslash, ih]
    · simp [components.go, hslash, ih]

theorem components_go_of_notMem {name : List Char} (h : '/' ∉ name) (begun : List Char) :
    components.go name begun = [String.ofList (begun.reverse ++ name)] := by
  induction name generalizing begun with
  | nil => simp [components.go]
  | cons c name ih =>
    obtain ⟨hc, hname⟩ := not_or.mp (mt List.mem_cons.mpr h)
    rw [components.go, if_neg (Ne.symm hc), ih hname]
    simp

theorem components_go_ne_nil (text begun : List Char) : components.go text begun ≠ [] := by
  induction text generalizing begun with
  | nil => simp [components.go]
  | cons c text ih =>
    rw [components.go]
    by_cases hslash : c = '/'
    · simp [hslash]
    · simp [hslash, ih]

theorem components_of_notMem {name : List Char} (h : '/' ∉ name) :
    components (String.ofList name) = [String.ofList name] := by
  rw [components, String.toList_ofList, components_go_of_notMem h]
  rfl

theorem components_append {parent name : List Char} (h : '/' ∉ name) :
    components (String.ofList (parent ++ '/' :: name))
      = components.go parent [] ++ [String.ofList name] := by
  rw [components, String.toList_ofList, components_go_append, components_go_of_notMem h]
  rfl

theorem isFileName_toList {name : String} :
    isFileName name.toList = true ↔ (name ≠ "" ∧ name ≠ ".") ∧ name ≠ ".." := by
  have htext (other : String) : name.toList ≠ other.toList ↔ name ≠ other :=
    not_congr String.toList_inj
  rw [← htext, ← htext, ← htext]
  simp [isFileName]

end Path

/-! ## Finding files -/

namespace Files

variable {base : List String} {files : Files base} {path name : String} {spot : Spot}
  {ancestors : List String}

/-- What lies in one directory under two names lies at two paths. Where one of the names leads back
down to the working directory, its path is the shorter one. -/
theorem below_injective (base path : List String) : Function.Injective (below base path) := by
  have hshorter (name : String) : path.dropLast ≠ path ++ [name] := by
    intro h
    have hlength := congrArg List.length h
    rw [List.length_dropLast, List.length_append, List.length_singleton] at hlength
    omega
  intro name other h
  unfold below at h
  split at h
  · next hname =>
    split at h
    · next hother => exact Option.some.inj (hname.2.symm.trans hother.2)
    · exact absurd h (hshorter other)
  · split at h
    · exact absurd h.symm (hshorter name)
    · exact List.head_eq_of_cons_eq (List.append_cancel_left h)

theorem walk_snoc (files : Files base) (spot : Spot) (names : List String) (name : String) :
    files.walk spot (names ++ [name]) = files.walk spot names >>= files.enter name := by
  induction names generalizing spot with
  | nil =>
    show (files.enter name spot >>= fun spot => .ok spot) = files.enter name spot
    cases files.enter name spot <;> rfl
  | cons first names ih =>
    rw [List.cons_append, walk, walk, bind_assoc]
    exact bind_congr fun spot => ih spot

/-- Paths with the same directory part begin at the same spot, and have the same components from
there but for the last. -/
theorem exists_begin (base : List String) {directory : List Char}
    (h : Path.IsDirectoryPart directory) :
    ∃ spot ancestors, ∀ name, '/' ∉ name → directory ++ name ≠ [] →
      begin base (String.ofList (directory ++ name))
        = (spot, ancestors ++ [String.ofList name]) := by
  obtain rfl | ⟨parent, rfl⟩ := h
  · refine ⟨.directory [], [], fun name hname hne => ?_⟩
    have hnonempty : String.ofList name ≠ "" := fun h =>
      hne (by simpa using congrArg String.toList h)
    rw [begin, List.nil_append, Path.components_of_notMem hname]
    split
    · simp_all
    · rfl
  · obtain ⟨first, rest, hparent⟩ :=
      List.exists_cons_of_ne_nil (Path.components_go_ne_nil parent [])
    by_cases hfirst : first = ""
    · refine ⟨.directory (List.replicate base.length ".."), rest, fun name hname _ => ?_⟩
      rw [begin, List.append_assoc, List.singleton_append, Path.components_append hname, hparent,
        hfirst]
      rfl
    · refine ⟨.directory [], first :: rest, fun name hname _ => ?_⟩
      rw [begin, List.append_assoc, List.singleton_append, Path.components_append hname, hparent]
      split
      · simp_all
      · rfl

/-- A name that does not stand for a directory leads to what bears it. -/
theorem enter_of_name (files : Files base) (parent : List String)
    (hname : ¬ (name = "" ∨ name = ".")) (hup : name ≠ "..") :
    files.enter name (.directory parent)
      = if (files.get? (below base parent name)).isSome then .ok (.file (below base parent name))
        else if files.isDirectory (below base parent name) then
          .ok (.directory (below base parent name))
        else .error .missing := by
  simp only [enter, if_neg hname, if_neg hup]

/-- A file is entered from the directory in which it lies, and by the name of a file. -/
theorem enter_eq_file {file : List String} (h : files.enter name spot = .ok (.file file)) :
    ∃ parent, spot = .directory parent ∧ file = below base parent name
      ∧ Path.isFileName name.toList = true := by
  cases spot with
  | file _ => cases h
  | directory parent =>
    by_cases hname : name = "" ∨ name = "."
    · simp [enter, hname] at h
    by_cases hup : name = ".."
    · simp only [enter, if_neg hname, if_pos hup] at h
      cases h
    rw [enter_of_name files parent hname hup] at h
    refine ⟨parent, rfl, ?_, Path.isFileName_toList.mpr ⟨not_or.mp hname, hup⟩⟩
    split at h
    · cases h
      rfl
    · split at h <;> cases h

theorem read_of_walk {file : List String}
    (h : files.walk (begin base path).1 (begin base path).2 = .ok (.file file)) :
    files.read path = (files.get? file).elim (.error .missing) .ok := by
  unfold read
  simp only [h, bind, Except.bind]
  cases files.get? file <;> rfl

/-- What is read at a path lies in the directory to which the components before the last lead. -/
theorem read_eq_ok {content : ByteArray} (hbegin : begin base path = (spot, ancestors ++ [name]))
    (h : files.read path = .ok content) :
    ∃ parent, files.walk spot ancestors = .ok (.directory parent)
      ∧ files.walk spot (ancestors ++ [name]) = .ok (.file (below base parent name))
      ∧ Path.isFileName name.toList = true := by
  unfold read at h
  rw [hbegin] at h
  obtain ⟨found, hwalk, hfound⟩ := exists_of_bind h
  cases found with
  | directory _ => cases hfound
  | file file =>
    have hsteps := hwalk
    rw [walk_snoc] at hsteps
    obtain ⟨before, hancestors, henter⟩ := exists_of_bind hsteps
    obtain ⟨parent, rfl, rfl, hname⟩ := enter_eq_file henter
    exact ⟨parent, hancestors, hwalk, hname⟩

/-- What is written at a path lies in the directory to which the components before the last lead,
and is no directory. -/
theorem target_eq_ok {target : List String} (hbegin : begin base path = (spot, ancestors ++ [name]))
    (hname : name ≠ "") (h : files.target path = .ok target) :
    ∃ parent, files.walk spot ancestors = .ok (.directory parent)
      ∧ target = below base parent name ∧ files.isDirectory target = false := by
  have hreverse : (ancestors ++ [name]).reverse.dropWhile (· = "") = name :: ancestors.reverse := by
    simp [hname]
  unfold Files.target at h
  rw [hbegin] at h
  simp only [hreverse, List.reverse_reverse] at h
  obtain ⟨before, hwalk, hbefore⟩ := exists_of_bind h
  cases before with
  | file _ => cases hbefore
  | directory parent =>
    refine ⟨parent, hwalk, ?_⟩
    simp only at hbefore
    split at hbefore
    · cases hbefore
    · rename_i hplain
      cases hbefore
      exact ⟨rfl, by simpa using (not_or.mp hplain).2⟩

/-! ## After a file was written -/

section Put

variable {target file : List String}

theorem isDirectory_put {directory : List String} (h : files.isDirectory directory = true)
    (target : List String) (content : ByteArray) :
    (files.put target content).isDirectory directory = true := by
  unfold isDirectory at h ⊢
  rw [Bool.or_eq_true, List.any_eq_true] at h ⊢
  refine h.imp_right fun ⟨entry, hmem, hentry⟩ => ?_
  by_cases hsame : entry.1 = target
  · refine ⟨(target, content), List.mem_cons_self, ?_⟩
    rw [← hsame]
    exact hentry
  · refine ⟨entry, List.mem_cons_of_mem _ (List.mem_filter.mpr ⟨hmem, ?_⟩), hentry⟩
    exact decide_eq_true hsame

/-- Every step that does not lead to the file that was written leads where it led. -/
theorem enter_put {found : Spot} (hdirectory : files.isDirectory target = false)
    (content : ByteArray) (h : files.enter name spot = .ok found) (hfound : found ≠ .file target) :
    (files.put target content).enter name spot = .ok found := by
  cases spot with
  | file _ => cases h
  | directory parent =>
    by_cases hname : name = "" ∨ name = "."
    · simpa only [enter, if_pos hname] using h
    by_cases hup : name = ".."
    · simpa only [enter, if_neg hname, if_pos hup] using h
    rw [enter_of_name _ parent hname hup] at h ⊢
    by_cases hfile : (files.get? (below base parent name)).isSome
    · rw [if_pos hfile] at h
      obtain rfl := Except.ok.inj h
      rw [get?_put_of_ne fun heq => hfound (congrArg Spot.file heq), if_pos hfile]
    rw [if_neg hfile] at h
    by_cases hdir : files.isDirectory (below base parent name)
    · have hne : below base parent name ≠ target := by
        rintro rfl
        rw [hdirectory] at hdir
        cases hdir
      rw [get?_put_of_ne hne, if_neg hfile, if_pos (isDirectory_put hdir target content)]
      rwa [if_pos hdir] at h
    · rw [if_neg hdir] at h
      cases h

/-- The way to a file is the same after another file was written. No step of it leads to the file
that was written: that would be the last step. -/
theorem walk_put {names : List String} (hdirectory : files.isDirectory target = false)
    (content : ByteArray) (h : files.walk spot names = .ok (.file file)) (hfile : file ≠ target) :
    (files.put target content).walk spot names = .ok (.file file) := by
  induction names generalizing spot with
  | nil => exact h
  | cons first names ih =>
    obtain ⟨found, henter, hwalk⟩ := exists_of_bind h
    have hfound : found ≠ .file target := by
      rintro rfl
      cases names with
      | nil =>
        cases hwalk
        exact hfile rfl
      | cons second names => cases hwalk
    rw [walk, enter_put hdirectory content henter hfound]
    exact ih hwalk

/-- What was read is read again after another file was written. -/
theorem read_put (hdirectory : files.isDirectory target = false) (content : ByteArray)
    (h : files.walk (begin base path).1 (begin base path).2 = .ok (.file file))
    (hfile : file ≠ target) :
    (files.put target content).read path = files.read path := by
  rw [read_of_walk h, read_of_walk (walk_put hdirectory content h hfile), get?_put_of_ne hfile]

end Put

end Files

end ScriptFacts.Command
