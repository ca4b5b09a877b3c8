import ScriptFacts.Command.Path

/-!
# File names and their extensions

A path falls apart into a directory part and a last component, and a file name with an extension
into the stem and the extension, each in one way only. `Names` and `HasExtension` say what the parts
are, with no regard to how they are found, and `Takes` says what a name becomes when it takes on an
extension: the old one gives way, and where there is none the new one is added.

Replacing an extension keeps the directory part, and the file name takes on the new extension. There
is one exception. Of a name such as `..x` only the two dots are left when its extension is cut off,
and two dots are not the name of a file, so they do not take on another one.

* `Names.splitName_eq`, `HasExtension.splitExtension_eq`: the parts are found.
* `Names.withExtension_eq`: what becomes of a path.
* `Takes.ne`: no name takes on an extension with a dot in it and stays as it is.
-/
namespace ScriptFacts.Command.Path

/-! ## The last place -/

section SplitLast

variable {mark : Char} {before after text : List Char}

theorem splitLast_of_notMem (h : mark ∉ text) : splitLast (· == mark) text = (text, none) := by
  induction text with
  | nil => rfl
  | cons c text ih =>
    obtain ⟨hc, htext⟩ := not_or.mp (mt List.mem_cons.mpr h)
    rw [splitLast, ih htext]
    simp only [beq_eq_false_iff_ne.mpr (Ne.symm hc), Bool.false_eq_true, if_false]

theorem splitLast_append (h : mark ∉ after) :
    splitLast (· == mark) (before ++ mark :: after) = (before, some after) := by
  induction before with
  | nil =>
    rw [List.nil_append, splitLast, splitLast_of_notMem h]
    simp only [BEq.rfl, if_true]
  | cons c before ih => rw [List.cons_append, splitLast, ih]

/-- A text with a mark in it has a last one. -/
theorem exists_last (h : mark ∈ text) :
    ∃ before after, text = before ++ mark :: after ∧ mark ∉ after := by
  induction text with
  | nil => cases h
  | cons c text ih =>
    by_cases hmem : mark ∈ text
    · obtain ⟨before, after, rfl, hafter⟩ := ih hmem
      exact ⟨c :: before, after, rfl, hafter⟩
    · obtain rfl := (List.mem_cons.mp h).resolve_right hmem
      exact ⟨[], text, rfl, hmem⟩

end SplitLast

/-! ## Directory and name -/

/-- The part of a path before its last component: nothing, or something that ends with a slash. -/
def IsDirectoryPart (directory : List Char) : Prop :=
  directory = [] ∨ ∃ parent, directory = parent ++ ['/']

/-- A path with its directory part and its last component. -/
structure Names (path directory name : List Char) : Prop where
  path_eq : path = directory ++ name
  directory : IsDirectoryPart directory
  slash_notMem : '/' ∉ name

theorem Names.splitName_eq {path directory name : List Char} (h : Names path directory name) :
    splitName path = (directory, name) := by
  obtain ⟨rfl, hdirectory, hname⟩ := h
  obtain rfl | ⟨parent, rfl⟩ := hdirectory
  · rw [List.nil_append, splitName, splitLast_of_notMem hname]
  · rw [List.append_assoc, List.singleton_append, splitName, splitLast_append hname]

theorem Names.unique {path directory name directory' name' : List Char}
    (h : Names path directory name) (h' : Names path directory' name') :
    directory = directory' ∧ name = name' :=
  Prod.mk.inj (h.splitName_eq.symm.trans h'.splitName_eq)

theorem exists_names (path : List Char) : ∃ directory name, Names path directory name := by
  by_cases hslash : '/' ∈ path
  · obtain ⟨parent, name, hpath, hname⟩ := exists_last hslash
    refine ⟨parent ++ ['/'], name, ?_, .inr ⟨parent, rfl⟩, hname⟩
    rw [hpath, List.append_assoc, List.singleton_append]
  · exact ⟨[], path, rfl, .inl rfl, hslash⟩

/-! ## Extensions -/

/-- A name has an extension: what follows its last dot, if something stands before that dot. -/
structure HasExtension (name stem extension : List Char) : Prop where
  name_eq : name = stem ++ '.' :: extension
  stem_ne_nil : stem ≠ []
  dot_notMem : '.' ∉ extension

/-- What a name becomes with a new extension. -/
inductive Takes (extension : List Char) : (name next : List Char) → Prop
  /-- The new extension stands in the place of the old one. -/
  | replaced {name stem old : List Char} (h : HasExtension name stem old) :
    Takes extension name (stem ++ '.' :: extension)
  /-- There is none to be replaced. -/
  | added {name : List Char} (h : ∀ stem old, ¬ HasExtension name stem old) :
    Takes extension name (name ++ '.' :: extension)

section Extension

variable {name stem extension next : List Char}

theorem HasExtension.splitExtension_eq (h : HasExtension name stem extension) :
    splitExtension name = (stem, some extension) := by
  obtain ⟨rfl, hstem, hdot⟩ := h
  rw [splitExtension, splitLast_append hdot]
  simp only [if_neg hstem]

/-- A name has no more than one extension. -/
theorem HasExtension.unique {stem' extension' : List Char} (h : HasExtension name stem extension)
    (h' : HasExtension name stem' extension') : stem = stem' ∧ extension = extension' := by
  have hsplit := h.splitExtension_eq.symm.trans h'.splitExtension_eq
  exact ⟨congrArg Prod.fst hsplit, Option.some.inj (congrArg Prod.snd hsplit)⟩

theorem splitExtension_of_forall (h : ∀ stem old, ¬ HasExtension name stem old) :
    splitExtension name = (name, none) := by
  by_cases hdot : '.' ∈ name
  · obtain ⟨stem, old, rfl, hold⟩ := exists_last hdot
    rw [splitExtension, splitLast_append hold]
    by_cases hstem : stem = []
    · simp only [if_pos hstem]
    · exact absurd ⟨rfl, hstem, hold⟩ (h stem old)
  · rw [splitExtension, splitLast_of_notMem hdot]

theorem ne_of_isFileName (h : isFileName name = true) : name ≠ [] ∧ name ≠ ['.'] := by
  simp only [isFileName, Bool.and_eq_true, decide_eq_true_eq] at h
  exact h.1

theorem isFileName_of_length (h : 2 < name.length) : isFileName name = true := by
  have hne {other : List Char} (hother : other.length ≤ 2) : name ≠ other := by
    rintro rfl
    omega
  simp [isFileName, hne]

/-- A new extension with a dot in it is not the old one. -/
theorem Takes.ne (h : Takes extension name next) (hdot : '.' ∈ extension) : next ≠ name := by
  intro heq
  cases h with
  | replaced hold =>
    obtain rfl := List.tail_eq_of_cons_eq (List.append_cancel_left (heq.trans hold.name_eq))
    exact hold.dot_notMem hdot
  | added _ =>
    have hlength := congrArg List.length heq
    rw [List.length_append, List.length_cons] at hlength
    omega

/-- A name with an extension is the name of a file. -/
theorem Takes.isFileName (h : Takes extension name next) (hextension : extension ≠ [])
    (hname : name ≠ []) : isFileName next = true := by
  have hpos := List.length_pos_iff.mpr hextension
  apply isFileName_of_length
  cases h with
  | replaced hold =>
    have hstem := List.length_pos_iff.mpr hold.stem_ne_nil
    rw [List.length_append, List.length_cons]
    omega
  | added _ =>
    have := List.length_pos_iff.mpr hname
    rw [List.length_append, List.length_cons]
    omega

theorem Takes.slash_notMem (h : Takes extension name next) (hextension : '/' ∉ extension)
    (hname : '/' ∉ name) : '/' ∉ next := by
  cases h with
  | replaced hold =>
    rw [hold.name_eq, List.mem_append, not_or] at hname
    simp [hname.1, hextension]
  | added _ => simp [hname, hextension]

end Extension

/-! ## Replacing the extension -/

section WithExtension

variable {path directory name : List Char}

theorem trim_eq {text : List Char} (hslash : text.head? ≠ some '/')
    (hdot : ∀ rest, text ≠ '.' :: '/' :: rest) : trimEnd.trim text = text := by
  unfold trimEnd.trim
  split
  · exact absurd rfl hslash
  · exact absurd rfl (hdot _)
  · rfl

/-- At the end of a path that ends with a name there is nothing to be passed over. -/
theorem Names.trimEnd_eq (h : Names path directory name) (hempty : name ≠ [])
    (hdot : name ≠ ['.']) : trimEnd path = path := by
  obtain ⟨last, more, hname⟩ : ∃ last more, name.reverse = last :: more :=
    List.exists_cons_of_ne_nil (mt List.reverse_eq_nil_iff.mp hempty)
  have hslash (c : Char) (hc : c ∈ last :: more) : c ≠ '/' := by
    rintro rfl
    rw [← hname, List.mem_reverse] at hc
    exact h.slash_notMem hc
  have hpath : path.reverse = last :: more ++ directory.reverse := by
    rw [h.path_eq, List.reverse_append, hname]
  have htrim : trimEnd.trim path.reverse = path.reverse := by
    rw [hpath]
    refine trim_eq ?_ fun rest hrest => ?_
    · simpa using hslash last List.mem_cons_self
    · obtain ⟨rfl, hmore⟩ := List.cons.inj hrest
      cases more with
      | nil => exact hdot (List.reverse_inj.mp hname)
      | cons second more =>
        exact hslash second (.tail _ List.mem_cons_self) (List.head_eq_of_cons_eq hmore)
  rw [trimEnd, htrim, List.reverse_reverse]

theorem Names.setExtension_eq (h : Names path directory name) (hname : isFileName name = true)
    (extension : List Char) :
    setExtension extension path = directory ++ (splitExtension name).1 ++ '.' :: extension := by
  obtain ⟨hempty, hdot⟩ := ne_of_isFileName hname
  rw [setExtension, h.trimEnd_eq hempty hdot, h.splitName_eq]
  simp only [hname, if_true]

/-- A name of two dots and an extension. When the extension is cut off, only the dots are left. -/
def LosesName (name : List Char) : Prop :=
  ∃ old, HasExtension name ['.'] old

/-- What becomes of a path whose last component is the name of a file. -/
theorem Names.withExtension_eq (h : Names path directory name) (hname : isFileName name = true)
    (extension : List Char) :
    ∃ next, withExtension extension path = directory ++ next
      ∧ (¬ LosesName name ∧ Takes extension name next ∨ LosesName name ∧ next = ['.', '.']) := by
  obtain ⟨hempty, hdot⟩ := ne_of_isFileName hname
  have hsplit : splitName (trimEnd path) = (directory, name) := by
    rw [h.trimEnd_eq hempty hdot, h.splitName_eq]
  by_cases hold : ∃ stem old, HasExtension name stem old
  · obtain ⟨stem, old, hold⟩ := hold
    have hpath : path = directory ++ (stem ++ ['.']) ++ old := by
      rw [h.path_eq, hold.name_eq]
      simp
    have hdrop : dropExtension path = directory ++ (stem ++ ['.']) := by
      rw [dropExtension, hsplit]
      simp only [hold.splitExtension_eq]
      rw [hpath, List.length_append, Nat.add_sub_cancel, List.take_left]
    have hnames : Names (dropExtension path) directory (stem ++ ['.']) := by
      refine ⟨hdrop, h.directory, fun hslash => h.slash_notMem ?_⟩
      rw [hold.name_eq, List.mem_append]
      exact .inl (by simpa using hslash)
    by_cases hstem : stem = ['.']
    · subst hstem
      refine ⟨['.', '.'], ?_, .inr ⟨⟨old, hold⟩, rfl⟩⟩
      have hkeeps : trimEnd (dropExtension path) = dropExtension path :=
        hnames.trimEnd_eq (List.cons_ne_nil _ _) (by decide)
      rw [withExtension, setExtension, hkeeps, hnames.splitName_eq, hdrop]
      rfl
    · have hnodot : HasExtension (stem ++ ['.']) stem [] :=
        ⟨rfl, hold.stem_ne_nil, List.not_mem_nil⟩
      have hfile : isFileName (stem ++ ['.']) = true := by
        have hone : stem ++ ['.'] ≠ ['.'] := fun h =>
          hold.stem_ne_nil (List.append_cancel_right h)
        have htwo : stem ++ ['.'] ≠ ['.', '.'] := fun h => hstem (List.append_cancel_right h)
        simp [isFileName, hone, htwo]
      have hkeeps : ¬ LosesName name := fun ⟨other, hother⟩ => hstem (hold.unique hother).1
      refine ⟨stem ++ '.' :: extension, ?_, .inl ⟨hkeeps, .replaced hold⟩⟩
      rw [withExtension, hnames.setExtension_eq hfile, hnodot.splitExtension_eq, List.append_assoc]
  · have hnone (stem old : List Char) : ¬ HasExtension name stem old := fun h => hold ⟨stem, old, h⟩
    have hdrop : dropExtension path = path := by
      rw [dropExtension, hsplit]
      simp only [splitExtension_of_forall hnone]
    refine ⟨name ++ '.' :: extension, ?_, .inl ⟨fun ⟨old, h⟩ => hnone _ old h, .added hnone⟩⟩
    rw [withExtension, hdrop, h.setExtension_eq hname, splitExtension_of_forall hnone,
      List.append_assoc]

/-- Where a slash follows the name, something of the extension is left, and the name is not lost. -/
example : withExtension "P".toList "d/..x/".toList = "d/..P".toList := by
  decide +kernel

end WithExtension

end ScriptFacts.Command.Path
