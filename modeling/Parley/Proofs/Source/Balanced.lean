import Parley.Proofs.Failing
import Parley.Source.Layout

/-! Balance, one character at a time. Only the innermost region decides what may come next, so balance can
be said of the text alone, without the openers that a report points at. -/

namespace Parley

/-- What a character can be to the readers of a source. -/
theorem isDelimiter_cases (c : Char) :
    c = '"' ∨ c = ';' ∨ c = '[' ∨ c = ']' ∨ c = '{' ∨ c = '}' ∨ c = '(' ∨ c = ')' ∨
      isDelimiter c = false := by
  by_cases named : c ∈ ['"', ';', '[', ']', '{', '}', '(', ')']
  · simp only [List.mem_cons, List.not_mem_nil, or_false] at named
    grind
  · simp only [List.mem_cons, List.not_mem_nil, or_false, not_or] at named
    simp [isDelimiter, Region.ofOpener?, Region.ofCloser?, named]

theorem isDelimiter_of_isBlank {c : Char} (blank : Text.isBlank c) : isDelimiter c = false := by
  rcases isDelimiter_cases c with rfl | rfl | rfl | rfl | rfl | rfl | rfl | rfl | free
  case inr.inr.inr.inr.inr.inr.inr.inr => exact free
  all_goals exact absurd blank (by decide)

theorem ne_quote_of_free {c : Char} (free : isDelimiter c = false) : c ≠ '"' := by
  rintro rfl
  exact absurd free (by decide)

namespace Region

/-- The ways in which a character may stand outside strings, and the innermost region before and after
it. -/
inductive Turn : Option Region → Char → Option Region → Prop
  | openTitle : Turn none '[' (some title)
  | closeTitle : Turn (some title) ']' none
  | openBranch : Turn none '{' (some branch)
  | closeBranch : Turn (some branch) '}' none
  | openList : Turn (some branch) '(' (some commands)
  | closeList : Turn (some commands) ')' (some branch)
  | endCommand : Turn (some commands) ';' (some commands)
  | plain (free : isDelimiter c = false) : Turn scope c scope

theorem Turn.ne_quote (turn : Turn scope c after) : c ≠ '"' := by
  cases turn with
  | plain free => exact ne_quote_of_free free
  | _ => decide

theorem turn_plain_iff {c : Char} (free : isDelimiter c = false) :
    Turn scope c after ↔ after = scope := by
  constructor
  · intro turn
    cases turn with
    | plain _ => rfl
    | _ => exact absurd free (by decide)
  · rintro rfl
    exact .plain free

end Region

namespace Nesting

def inner : Nesting → Option Region
  | outside => none
  | title _ => some .title
  | branch _ => some .branch
  | commands _ => some .commands

theorem read_plain (nesting : Nesting) {mark : Mark} (free : isDelimiter mark.char = false) :
    nesting.read mark = .ok nesting := by
  have noOpener : Region.ofOpener? mark.char = none := by simp_all [isDelimiter]
  have noCloser : Region.ofCloser? mark.char = none := by simp_all [isDelimiter]
  have noSeparator : mark.char ≠ ';' := by simp_all [isDelimiter]
  simp [read, noOpener, noCloser, noSeparator]

theorem turn_of_read {nesting after : Nesting} {mark : Mark} (unquoted : mark.char ≠ '"')
    (taken : nesting.read mark = .ok after) : Region.Turn nesting.inner mark.char after.inner := by
  rcases isDelimiter_cases mark.char with
    quote | char | char | char | char | char | char | char | free
  · exact absurd quote unquoted
  case inr.inr.inr.inr.inr.inr.inr.inr =>
    rw [nesting.read_plain free] at taken
    cases taken
    exact .plain free
  all_goals
    rw [char]
    cases nesting <;>
      simp [read, char, Region.ofOpener?, Region.ofCloser?, enter?, leave?, isOpen] at taken
  all_goals
    subst taken
    constructor

theorem read_of_turn {nesting : Nesting} {mark : Mark} {region : Option Region}
    (turn : Region.Turn nesting.inner mark.char region) :
    ∃ after, nesting.read mark = .ok after ∧ after.inner = region := by
  generalize char : mark.char = c at turn
  generalize around : nesting.inner = scope at turn
  cases turn with
  | plain free =>
    subst char
    exact ⟨nesting, nesting.read_plain free, around⟩
  | _ =>
    cases nesting <;> simp_all [read, Region.ofOpener?, Region.ofCloser?, enter?, leave?, isOpen,
      inner]

end Nesting

namespace Source

/-- A text that starts in a region, and perhaps in a string, and closes both. -/
inductive Balanced : Option Region → Bool → List Char → Prop
  | done : Balanced none false []
  | quote (later : Balanced scope (!quoted) rest) : Balanced scope quoted ('"' :: rest)
  | inside (unquoted : c ≠ '"') (later : Balanced scope true rest) : Balanced scope true (c :: rest)
  | outside (turn : Region.Turn scope c after) (later : Balanced after false rest) :
      Balanced scope false (c :: rest)

theorem balanced_quote : Balanced scope quoted ('"' :: rest) ↔ Balanced scope (!quoted) rest := by
  constructor
  · intro closes
    cases closes with
    | quote later => exact later
    | inside unquoted _ => exact absurd rfl unquoted
    | outside turn _ => exact absurd rfl turn.ne_quote
  · exact .quote

theorem balanced_inside {c : Char} (unquoted : c ≠ '"') :
    Balanced scope true (c :: rest) ↔ Balanced scope true rest := by
  constructor
  · intro closes
    cases closes with
    | quote _ => exact absurd rfl unquoted
    | inside _ later => exact later
  · exact .inside unquoted

theorem balanced_outside {c : Char} (unquoted : c ≠ '"') :
    Balanced scope false (c :: rest) ↔
      ∃ after, Region.Turn scope c after ∧ Balanced after false rest := by
  constructor
  · intro closes
    cases closes with
    | quote _ => exact absurd rfl unquoted
    | outside turn later => exact ⟨_, turn, later⟩
  · rintro ⟨after, turn, later⟩
    exact .outside turn later

theorem balanced_plain {c : Char} (free : isDelimiter c = false) :
    Balanced scope quoted (c :: rest) ↔ Balanced scope quoted rest := by
  have unquoted := ne_quote_of_free free
  cases quoted with
  | true => exact balanced_inside unquoted
  | false =>
    rw [balanced_outside unquoted]
    simp only [Region.turn_plain_iff free, exists_eq_left]

/-- A whole string changes nothing. -/
theorem balanced_string {content : List Char} (closed : '"' ∉ content) :
    Balanced scope false ('"' :: (content ++ ['"']) ++ rest) ↔ Balanced scope false rest := by
  rw [List.cons_append, balanced_quote, List.append_assoc]
  induction content with
  | nil => exact balanced_quote
  | cons c content ih =>
    obtain ⟨unquoted, closed⟩ := List.ne_and_not_mem_of_not_mem_cons closed
    exact (balanced_inside (Ne.symm unquoted)).trans (ih closed)

end Source

theorem Balance.finish_ok_iff (balance : Balance) :
    balance.finish = .ok () ↔ balance.nesting.inner = none ∧ balance.quote = none := by
  rcases balance with ⟨nesting, quote⟩
  cases quote <;> cases nesting <;> simp [finish, Nesting.outermost?, Nesting.inner]

theorem Balance.foldlM_read_iff (marks : List Mark) (balance : Balance) :
    (marks.foldlM read balance >>= finish) = .ok () ↔
      Source.Balanced balance.nesting.inner balance.quote.isSome (Source.text marks) := by
  induction marks generalizing balance with
  | nil =>
    change balance.finish = .ok () ↔ Source.Balanced _ _ []
    rw [balance.finish_ok_iff]
    rcases balance with ⟨nesting, _ | quote⟩ <;> rcases around : nesting.inner with _ | region
    · simp [Source.Balanced.done]
    all_goals simpa [around] using nofun
  | cons mark rest ih =>
    rw [List.foldlM_cons, bind_assoc]
    change _ ↔ Source.Balanced _ _ (mark.char :: Source.text rest)
    by_cases quote : mark.char = '"'
    · have taken : balance.read mark =
          .ok { balance with quote := if balance.quote.isSome then none else some mark } := by
        simp [read, quote]
      rw [taken, quote, Source.balanced_quote]
      refine (ih _).trans ?_
      cases balance.quote <;> simp
    · cases opened : balance.quote with
      | some opener =>
        have taken : balance.read mark = .ok balance := by simp [read, quote, opened]
        rw [taken, Option.isSome_some, Source.balanced_inside quote]
        refine (ih _).trans ?_
        rw [opened, Option.isSome_some]
      | none =>
        rw [Option.isSome_none, Source.balanced_outside quote]
        cases step : balance.nesting.read mark with
        | error fault =>
          have refused : balance.read mark = .error ⟨.syntactic fault, some mark⟩ := by
            simp [read, quote, opened, step]
          rw [refused]
          constructor
          · intro impossible
            cases impossible
          · rintro ⟨after, turn, _⟩
            obtain ⟨nesting, taken, _⟩ := Nesting.read_of_turn turn
            rw [step] at taken
            cases taken
        | ok nesting =>
          have taken : balance.read mark = .ok { balance with nesting } := by
            simp [read, quote, opened, step]
          have turn := Nesting.turn_of_read quote step
          rw [taken]
          refine (ih _).trans ?_
          simp only [opened, Option.isSome_none]
          constructor
          · intro later
            exact ⟨_, turn, later⟩
          · rintro ⟨after, other, later⟩
            obtain ⟨_, same, around⟩ := Nesting.read_of_turn other
            rw [step] at same
            cases same
            rwa [around]

theorem Source.checkBalance_ok_iff (marks : List Mark) :
    checkBalance marks = .ok () ↔ Balanced none false (text marks) :=
  Balance.foldlM_read_iff marks Balance.start

namespace Layout

/-- What stripping leaves of a text, without the places. -/
def keep (layout : Layout) : List Char → List Char
  | [] => []
  | c :: rest =>
    if layout.keeps c then c :: keep (layout.after c) rest else keep (layout.after c) rest

theorem text_stripFrom (layout : Layout) (marks : List Mark) :
    Source.text (layout.stripFrom marks) = layout.keep (Source.text marks) := by
  induction marks generalizing layout with
  | nil => rfl
  | cons mark rest ih =>
    have later := ih (layout.after mark.char)
    simp only [Source.text] at later
    simp only [stripFrom, Source.text, List.map_cons, keep]
    split <;> simp [later]

theorem isBlank_of_dropped {layout : Layout} {c : Char} (dropped : layout.keeps c = false) :
    Text.isBlank c = true := by
  simp only [keeps, Bool.or_eq_false_iff, Bool.not_eq_false'] at dropped
  exact dropped.2

/-- Stripping drops nothing but blanks, so it never changes what is open. -/
theorem balanced_keep (layout : Layout) (scope : Option Region) (inString : Bool)
    (text : List Char) :
    Source.Balanced scope inString (layout.keep text) ↔ Source.Balanced scope inString text := by
  induction text generalizing layout scope inString with
  | nil => rfl
  | cons c rest ih =>
    unfold keep
    split
    · by_cases quote : c = '"'
      · simp only [quote, Source.balanced_quote, ih]
      · cases inString <;>
          simp only [Source.balanced_inside quote, Source.balanced_outside quote, ih]
    · rename_i dropped
      have blank := isBlank_of_dropped (Bool.not_eq_true _ ▸ dropped)
      rw [Source.balanced_plain (isDelimiter_of_isBlank blank), ih]

end Layout

namespace Source

theorem text_strip (source : List Char) : text (strip source) = Layout.start.keep source := by
  rw [strip, Layout.text_stripFrom, text_locate]

/-- A source is normalized exactly when what stripping leaves of it is balanced. -/
theorem normalize_ok_iff (source : List Char) (marks : List Mark) :
    normalize source = .ok marks ↔
      Balanced none false (text (strip source)) ∧ marks = strip source := by
  have check := checkBalance_ok_iff (locate source)
  rw [text_locate, ← Layout.start.balanced_keep none false, ← text_strip] at check
  rw [← check]
  cases result : checkBalance (locate source) with
  | error failure => simp [normalize, result]
  | ok _ => simp [normalize, result, eq_comm]

end Source

end Parley
