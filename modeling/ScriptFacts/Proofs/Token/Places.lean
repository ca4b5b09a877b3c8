import ScriptFacts.Token.Stream

/-!
# Where lexemes are placed

The stream of a text is placed from its beginning, but what the places say does not depend on that:
lexemes that begin further on are placed further on, each behind all the text before it.

* `TokenStream.ofCut`: the stream of lexemes that begin anywhere.
* `TokenStream.ofCut_append`: the lexemes after some others begin where those end.
* `TokenStream.ofCut_lower`: so many lines further down, everything is that far further down.
* `TokenStream.getElem?_place`: each lexeme is placed behind the text before it.
* `TokenStream.pairwise_places`: places increase.
-/
namespace ScriptFacts

open Text

theorem Lexeme.flatten_append (first second : List Lexeme) :
    flatten (first ++ second) = flatten first ++ flatten second :=
  List.flatMap_append

/-! ## Moving down -/

/-- The same token so many lines further down. -/
def Placed.lower (lines : Nat) (placed : Placed) : Placed :=
  { placed with location := placed.location.lower lines }

/-- The same error so many lines further down. -/
def SyntaxError.lower (lines : Nat) (error : SyntaxError) : SyntaxError :=
  { error with location := error.location.lower lines }

namespace TokenStream

/-- The same tokens so many lines further down. -/
def lower (lines : Nat) (stream : TokenStream) : TokenStream :=
  ⟨stream.placed.map (Placed.lower lines), stream.finish.lower lines⟩

/-- A stream with more tokens before it. -/
def prepend (placed : List Placed) (stream : TokenStream) : TokenStream :=
  { stream with placed := placed ++ stream.placed }

/-! ## Lexemes that begin anywhere -/

/-- The stream of lexemes up to an ending, the text before them ending `here`, or the error where
they end. -/
def ofCut (here : Location) (lexemes : List Lexeme) (ending : Ending) :
    Except SyntaxError TokenStream :=
  match ending with
  | .finished gap => .ok ⟨place here lexemes, (here.after (Lexeme.flatten lexemes)).after gap⟩
  | .stuck gap fault _ => .error (faultAt ((here.after (Lexeme.flatten lexemes)).after gap) fault)

theorem ofText_eq_ofCut (text : List Char) :
    ofText text = ofCut .start (cut text).1 (cut text).2 := rfl

theorem place_append (here : Location) (first second : List Lexeme) :
    place here (first ++ second)
      = place here first ++ place (here.after (Lexeme.flatten first)) second := by
  induction first generalizing here with
  | nil => rfl
  | cons lexeme first ih => simp [place, Lexeme.flatten, ih]

/-- The lexemes after some others begin where those end. -/
theorem ofCut_append (here : Location) (first second : List Lexeme) (ending : Ending) :
    ofCut here (first ++ second) ending
      = (ofCut (here.after (Lexeme.flatten first)) second ending).map
        (prepend (place here first)) := by
  unfold ofCut
  rw [Lexeme.flatten_append, place_append, Location.after_append]
  cases ending <;> rfl

theorem place_lower (lines : Nat) (here : Location) (lexemes : List Lexeme) :
    place (here.lower lines) lexemes = (place here lexemes).map (Placed.lower lines) := by
  induction lexemes generalizing here with
  | nil => rfl
  | cons lexeme lexemes ih => simp [place, Location.after_lower, ih, Placed.lower]

/-- So many lines further down, every token is that far further down, and so is the end or the
error. -/
theorem ofCut_lower (lines : Nat) (here : Location) (lexemes : List Lexeme) (ending : Ending) :
    ofCut (here.lower lines) lexemes ending
      = ((ofCut here lexemes ending).map (lower lines)).mapError (SyntaxError.lower lines) := by
  cases ending with
  | finished gap =>
    simp only [ofCut, place_lower, Location.after_lower]
    rfl
  | stuck gap fault rest =>
    simp only [ofCut, Location.after_lower]
    cases fault <;> rfl

/-! ## Places in a text -/

/-- Each lexeme is placed behind the text before it. -/
theorem getElem?_place {lexemes : List Lexeme} {index : Nat} {lexeme : Lexeme}
    (h : lexemes[index]? = some lexeme) (before : List Char) :
    (place (.behind before) lexemes)[index]? = some ⟨lexeme.token,
      .behind (before ++ (Lexeme.flatten (lexemes.take index) ++ lexeme.gap))⟩ := by
  induction lexemes generalizing index before with
  | nil => simp at h
  | cons first lexemes ih =>
    cases index with
    | zero =>
      obtain rfl : first = lexeme := Option.some.inj h
      simp [place, Lexeme.flatten, Location.behind_append]
    | succ index =>
      rw [place, ← Location.behind_append, ← Location.behind_append]
      simpa [Lexeme.flatten] using ih h (before ++ first.gap ++ first.text)

/-- The places of lexemes that begin `here`, and the place behind them and a gap. -/
def places (here : Location) (lexemes : List Lexeme) (gap : List Char) : List Location :=
  (place here lexemes).map Placed.location ++ [(here.after (Lexeme.flatten lexemes)).after gap]

theorem places_cons (here : Location) (lexeme : Lexeme) (lexemes : List Lexeme)
    (gap : List Char) :
    places here (lexeme :: lexemes) gap
      = here.after lexeme.gap
        :: places ((here.after lexeme.gap).after lexeme.text) lexemes gap := by
  simp [places, place, Lexeme.flatten]

theorem exists_passed {here location : Location} {lexemes : List Lexeme} {gap : List Char}
    (h : location ∈ places here lexemes gap) : ∃ passed, location = here.after passed := by
  induction lexemes generalizing here with
  | nil => exact ⟨gap, List.mem_singleton.mp h⟩
  | cons lexeme lexemes ih =>
    rw [places_cons] at h
    rcases List.mem_cons.mp h with rfl | h
    · exact ⟨lexeme.gap, rfl⟩
    · obtain ⟨passed, rfl⟩ := ih h
      exact ⟨lexeme.gap ++ (lexeme.text ++ passed), by simp⟩

/-- Lexemes that are not empty are placed one behind the other, and before what comes after them. -/
theorem pairwise_places {lexemes : List Lexeme} (h : ∀ lexeme ∈ lexemes, lexeme.text ≠ [])
    (here : Location) (gap : List Char) : (places here lexemes gap).Pairwise Location.Before := by
  induction lexemes generalizing here with
  | nil => exact List.pairwise_singleton _ _
  | cons lexeme lexemes ih =>
    obtain ⟨hlexeme, hlexemes⟩ := List.forall_mem_cons.mp h
    rw [places_cons]
    refine .cons ?_ (ih hlexemes _)
    intro location hlocation
    obtain ⟨passed, rfl⟩ := exists_passed hlocation
    rw [← Location.after_append]
    exact Location.before_after _ (by simp [hlexeme])

end TokenStream

end ScriptFacts
