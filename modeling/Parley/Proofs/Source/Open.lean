import Mathlib.Data.List.Basic
import Parley.Proofs.Source.Balanced
import Parley.Proofs.Source.Places
import Parley.Source.Sections

/-! What is open at the end of a text, said of its characters alone: a string if the quotes are odd in number,
and every region that opened outside strings and has not been closed since. The balance keeps exactly this. -/

namespace Parley

namespace Region

theorem opener_inj {first second : Region} : first.opener = second.opener ↔ first = second := by
  cases first <;> cases second <;> decide

theorem closer_inj {first second : Region} : first.closer = second.closer ↔ first = second := by
  cases first <;> cases second <;> decide

theorem opener_ne_closer (first second : Region) : first.opener ≠ second.closer := by
  cases first <;> cases second <;> decide

theorem opener_ne_quote (region : Region) : region.opener ≠ '"' := by cases region <;> decide

theorem closer_ne_quote (region : Region) : region.closer ≠ '"' := by cases region <;> decide

theorem eq_opener_of_ofOpener? {c : Char} (found : ofOpener? c = some region) : c = region.opener := by
  unfold ofOpener? at found
  split at found <;> cases found <;> rfl

theorem eq_closer_of_ofCloser? {c : Char} (found : ofCloser? c = some region) : c = region.closer := by
  unfold ofCloser? at found
  split at found <;> cases found <;> rfl

end Region

namespace Source

/-- A text with an odd number of quotes ends inside a string. -/
def EndsQuoted (front : List Char) : Prop := front.count '"' % 2 = 1

theorem endsQuoted_append (front back : List Char) :
    EndsQuoted (front ++ back) ↔ (EndsQuoted front ↔ ¬EndsQuoted back) := by
  unfold EndsQuoted
  rw [List.count_append]
  omega

theorem endsQuoted_cons (c : Char) (front : List Char) :
    EndsQuoted (c :: front) ↔ (c = '"' ↔ ¬EndsQuoted front) := by
  unfold EndsQuoted
  rw [List.count_cons]
  by_cases quote : c = '"'
  · simp [quote]
    omega
  · simp [quote]

theorem endsQuoted_snoc (front : List Char) (c : Char) :
    EndsQuoted (front ++ [c]) ↔ (EndsQuoted front ↔ c ≠ '"') := by
  rw [endsQuoted_append, endsQuoted_cons]
  simp [EndsQuoted]

theorem mem_outsideStrings_snoc (quoted : Bool) (front : List Char) (c item : Char) :
    item ∈ outsideStrings quoted (front ++ [c]) ↔
      item ∈ outsideStrings quoted front ∨
        item = c ∧ c ≠ '"' ∧ (quoted = true ↔ EndsQuoted front) := by
  induction front generalizing quoted with
  | nil => by_cases quote : c = '"' <;> cases quoted <;> simp [outsideStrings, EndsQuoted, quote]
  | cons first rest ih =>
    by_cases quote : first = '"'
    · cases quoted <;> simp [outsideStrings, quote, ih, endsQuoted_cons]
    · cases quoted with
      | true => simp [outsideStrings, quote, ih, endsQuoted_cons]
      | false => simp [outsideStrings, quote, ih, endsQuoted_cons, or_assoc]

/-- The last quote of a text stands behind so many characters. -/
def LastQuoteAt (front : List Char) (index : Nat) : Prop :=
  ∃ before inside, front = before ++ '"' :: inside ∧ before.length = index ∧ '"' ∉ inside

/-- A region opened behind so many characters, outside strings, and is still open at the end of a text. -/
def OpenAt (front : List Char) (region : Region) (index : Nat) : Prop :=
  ∃ before inside, front = before ++ region.opener :: inside ∧ before.length = index ∧
    ¬EndsQuoted before ∧ region.closer ∉ outsideStrings false inside

theorem OpenAt.lt_length (opened : OpenAt front region index) : index < front.length := by
  obtain ⟨before, inside, rfl, rfl, _⟩ := opened
  simp

/-- An opener opens its region outside strings, and a closer closes it there. -/
theorem openAt_snoc (front : List Char) (c : Char) (region : Region) (index : Nat) :
    OpenAt (front ++ [c]) region index ↔
      OpenAt front region index ∧ (c = region.closer → EndsQuoted front) ∨
        c = region.opener ∧ index = front.length ∧ ¬EndsQuoted front := by
  constructor
  · rintro ⟨before, inside, same, rfl, outside, unclosed⟩
    rcases List.eq_nil_or_concat' inside with rfl | ⟨more, last, rfl⟩
    · obtain ⟨rfl, ends⟩ := List.append_inj' same rfl
      exact .inr ⟨List.singleton_inj.mp ends, rfl, outside⟩
    · have grouped : front ++ [c] = (before ++ region.opener :: more) ++ [last] := by simpa using same
      obtain ⟨rfl, ends⟩ := List.append_inj' grouped rfl
      obtain rfl := List.singleton_inj.mp ends
      rw [mem_outsideStrings_snoc, not_or] at unclosed
      refine .inl ⟨⟨before, more, rfl, rfl, outside, unclosed.1⟩, ?_⟩
      rintro rfl
      have inside : EndsQuoted more := by
        simpa [region.closer_ne_quote] using unclosed.2
      simpa [endsQuoted_append, endsQuoted_cons, region.opener_ne_quote, outside] using inside
  · rintro (⟨⟨before, inside, rfl, rfl, outside, unclosed⟩, quoted⟩ | ⟨rfl, rfl, outside⟩)
    · refine ⟨before, inside ++ [c], by simp, rfl, outside, ?_⟩
      rw [mem_outsideStrings_snoc, not_or]
      refine ⟨unclosed, ?_⟩
      rintro ⟨closes, _, unquoted⟩
      have within := quoted closes.symm
      simp [endsQuoted_append, endsQuoted_cons, region.opener_ne_quote, outside] at within
      simp [within] at unquoted
    · exact ⟨front, [], rfl, rfl, outside, List.not_mem_nil⟩

theorem openAt_snoc_quoted (quoted : EndsQuoted front) (c : Char) (region : Region) (index : Nat) :
    OpenAt (front ++ [c]) region index ↔ OpenAt front region index := by
  simp [openAt_snoc, quoted]

/-- A character that delimits no region opens and closes none. -/
theorem openAt_snoc_inert {c : Char} (opens : ∀ region : Region, c ≠ region.opener)
    (closes : ∀ region : Region, c ≠ region.closer) (front : List Char) (region : Region) (index : Nat) :
    OpenAt (front ++ [c]) region index ↔ OpenAt front region index := by
  simp [openAt_snoc, opens, closes]

theorem openAt_snoc_opener (outside : ¬EndsQuoted front) (entered region : Region) (index : Nat) :
    OpenAt (front ++ [entered.opener]) region index ↔
      OpenAt front region index ∨ region = entered ∧ index = front.length := by
  rw [openAt_snoc, Region.opener_inj]
  simp [Region.opener_ne_closer, outside, @eq_comm _ region]

theorem openAt_snoc_closer (outside : ¬EndsQuoted front) (ended region : Region) (index : Nat) :
    OpenAt (front ++ [ended.closer]) region index ↔ OpenAt front region index ∧ region ≠ ended := by
  simp [openAt_snoc, Ne.symm (Region.opener_ne_closer _ _), Region.closer_inj, outside, eq_comm]

theorem LastQuoteAt.snoc {c : Char} (last : LastQuoteAt front index) (unquoted : c ≠ '"') :
    LastQuoteAt (front ++ [c]) index := by
  obtain ⟨before, inside, rfl, rfl, closed⟩ := last
  exact ⟨before, inside ++ [c], by simp, rfl, by simp [closed, Ne.symm unquoted]⟩

end Source

namespace Nesting

/-- What a character outside strings can do to what is open. -/
theorem read_cases {nesting next : Nesting} {mark : Mark} (taken : nesting.read mark = .ok next) :
    (∃ region, mark.char = region.opener ∧ nesting.enter? mark region = some next) ∨
    (∃ region, mark.char = region.closer ∧ nesting.leave? region = some next) ∨
    next = nesting ∧ ∀ region : Region, mark.char ≠ region.opener ∧ mark.char ≠ region.closer := by
  unfold read at taken
  split at taken
  · rename_i region opener
    left
    refine ⟨region, Region.eq_opener_of_ofOpener? opener, ?_⟩
    split at taken
    · rename_i inner entered
      cases taken
      exact entered
    · cases taken
  · rename_i region _ closer
    right; left
    refine ⟨region, Region.eq_closer_of_ofCloser? closer, ?_⟩
    split at taken
    · rename_i outer exited
      cases taken
      exact exited
    · cases taken
  · rename_i noOpener noCloser
    right; right
    split at taken
    · cases taken
    · cases taken
      refine ⟨rfl, fun region => ⟨?_, ?_⟩⟩
      · intro opener
        simp [opener] at noOpener
      · intro closer
        simp [closer] at noCloser

/-- The regions that are open, the outermost first, each with where it opened. Nothing is said of a command
list but that it lies in its branch. -/
inductive Spans : Nesting → List (Region × Nat) → Prop
  | outside : Spans outside []
  | title : Spans (title opener) [(.title, opener.place.index)]
  | branch : Spans (branch opener) [(.branch, opener.place.index)]
  | commands (within : outer.place.index < index) :
      Spans (commands outer) [(.branch, outer.place.index), (.commands, index)]

theorem Spans.enter {nesting inner : Nesting} {mark : Mark} (spans : nesting.Spans regions)
    (entered : nesting.enter? mark region = some inner)
    (behind : ∀ span ∈ regions, span.2 < mark.place.index) :
    inner.Spans (regions ++ [(region, mark.place.index)]) := by
  cases spans <;> cases region <;> cases entered
  · exact .title
  · exact .branch
  · exact .commands (behind _ List.mem_cons_self)

theorem Spans.leave {nesting outer : Nesting} (spans : nesting.Spans regions)
    (exited : nesting.leave? region = some outer) :
    ∃ rest index, regions = rest ++ [(region, index)] ∧ outer.Spans rest ∧
      ∀ span ∈ rest, span.1 ≠ region := by
  cases spans <;> cases region <;> cases exited
  · exact ⟨[], _, rfl, .outside, nofun⟩
  · exact ⟨[], _, rfl, .outside, nofun⟩
  · exact ⟨[_], _, rfl, .branch, by simp⟩

theorem Spans.isOpen_iff {nesting : Nesting} (spans : nesting.Spans regions) (region : Region) :
    nesting.isOpen region = true ↔ ∃ index, (region, index) ∈ regions := by
  cases spans <;> cases region <;> simp [isOpen]

/-- The opener that is kept is that of the region that opened first. -/
theorem Spans.outermost? {nesting : Nesting} (spans : nesting.Spans regions) {opener : Mark}
    (first : nesting.outermost? = some opener) :
    ∃ region, (region, opener.place.index) ∈ regions ∧ ∀ span ∈ regions, opener.place.index ≤ span.2 := by
  cases spans with
  | outside => cases first
  | title =>
    cases first
    exact ⟨.title, by simp⟩
  | branch =>
    cases first
    exact ⟨.branch, by simp⟩
  | commands within =>
    cases first
    exact ⟨.branch, by simp [Nat.le_of_lt within]⟩

end Nesting

/-- A balance that keeps what is open at the end of a text. -/
structure Balance.Describes (balance : Balance) (front : List Char) : Prop where
  quoted : balance.quote.isSome = true ↔ Source.EndsQuoted front
  last : ∀ quote, balance.quote = some quote → Source.LastQuoteAt front quote.place.index
  regions : ∃ regions, balance.nesting.Spans regions ∧
    ∀ region index, Source.OpenAt front region index ↔ (region, index) ∈ regions

namespace Balance

theorem describes_start : start.Describes [] where
  quoted := by simp [start, Source.EndsQuoted]
  last := nofun
  regions := by
    refine ⟨[], .outside, ?_⟩
    intro region index
    simp [Source.OpenAt]

variable {balance next : Balance} {front : List Char} {mark : Mark}

theorem Describes.read_quote (describes : balance.Describes front) (quote : mark.char = '"')
    (here : mark.place.index = front.length) :
    Describes { balance with quote := if balance.quote.isSome then none else some mark }
      (front ++ [mark.char]) where
  quoted := by
    rw [Source.endsQuoted_snoc, ← describes.quoted]
    cases balance.quote <;> simp [quote]
  last := by
    intro kept same
    dsimp only at same
    split at same
    · cases same
    · cases same
      exact ⟨front, [], by rw [quote], here.symm, List.not_mem_nil⟩
  regions := by
    obtain ⟨regions, spans, opened⟩ := describes.regions
    refine ⟨regions, spans, ?_⟩
    intro region index
    rw [quote, Source.openAt_snoc_inert (fun region => Ne.symm region.opener_ne_quote)
      (fun region => Ne.symm region.closer_ne_quote), opened]

theorem Describes.read_inside (describes : balance.Describes front) (unquoted : mark.char ≠ '"')
    (within : balance.quote.isSome = true) : balance.Describes (front ++ [mark.char]) where
  quoted := by
    rw [Source.endsQuoted_snoc, ← describes.quoted]
    simp [unquoted]
  last := fun quote kept => (describes.last quote kept).snoc unquoted
  regions := by
    obtain ⟨regions, spans, opened⟩ := describes.regions
    refine ⟨regions, spans, ?_⟩
    intro region index
    rw [Source.openAt_snoc_quoted (describes.quoted.mp within), opened]

theorem Describes.read_outside {nesting : Nesting} (describes : balance.Describes front)
    (unquoted : mark.char ≠ '"') (here : mark.place.index = front.length)
    (without : balance.quote = none) (taken : balance.nesting.read mark = .ok nesting) :
    Describes { balance with nesting } (front ++ [mark.char]) where
  quoted := by
    rw [Source.endsQuoted_snoc, ← describes.quoted]
    simp [unquoted]
  last := by simp [without]
  regions := by
    obtain ⟨regions, spans, opened⟩ := describes.regions
    have outside : ¬Source.EndsQuoted front := by simp [← describes.quoted, without]
    rcases Nesting.read_cases taken with ⟨entered, opener, enter⟩ | ⟨ended, closer, leave⟩ | ⟨rfl, inert⟩
    · refine ⟨_, spans.enter enter ?_, ?_⟩
      · intro span member
        rw [here]
        exact ((opened span.1 span.2).mpr member).lt_length
      · intro region index
        rw [opener, Source.openAt_snoc_opener outside, opened, here]
        simp
    · obtain ⟨rest, place, rfl, spanned, others⟩ := spans.leave leave
      refine ⟨rest, spanned, ?_⟩
      intro region index
      rw [closer, Source.openAt_snoc_closer outside, opened]
      constructor
      · rintro ⟨member, other⟩
        simpa [other] using member
      · intro member
        exact ⟨List.mem_append_left _ member, others _ member⟩
    · refine ⟨regions, spans, ?_⟩
      intro region index
      rw [Source.openAt_snoc_inert (fun region => (inert region).1) (fun region => (inert region).2), opened]

theorem Describes.read (describes : balance.Describes front) (here : mark.place.index = front.length)
    (taken : balance.read mark = .ok next) : next.Describes (front ++ [mark.char]) := by
  unfold Balance.read at taken
  split at taken
  · rename_i quote
    cases taken
    exact describes.read_quote quote here
  · rename_i unquoted
    split at taken
    · rename_i within
      cases taken
      exact describes.read_inside unquoted within
    · rename_i without
      split at taken
      · rename_i nesting read
        cases taken
        exact describes.read_outside unquoted here (by simpa using without) read
      · cases taken

/-- What the balance keeps of a text that it has read is what is open there. -/
theorem Describes.foldlM {place : Place} {rest : List Char} (describes : balance.Describes front)
    (here : place.index = front.length)
    (reached : (Source.locateFrom place rest).foldlM Balance.read balance = .ok next) :
    next.Describes (front ++ rest) := by
  induction rest generalizing balance front place with
  | nil =>
    cases reached
    simpa using describes
  | cons c rest ih =>
    rw [Source.locateFrom, List.foldlM_cons] at reached
    obtain ⟨read, taken, reached⟩ := bind_ok reached
    have later := ih (describes.read here taken) (by simp [here]) reached
    simpa using later

end Balance

end Parley
