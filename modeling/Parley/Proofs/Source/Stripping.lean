import Parley.Proofs.Source.Layout
import Parley.Proofs.Source.Places

/-! What stripping leaves of a source. Layout and balance are read apart from each other, but while a source is
balanced the layout is what the balance has open, so what is dropped is what the balance itself takes for layout.
A text that has been stripped holds nothing more to drop. -/

namespace Parley

namespace Layout

theorem mem_stripFrom_or_isBlank {layout : Layout} {marks : List Mark} {mark : Mark} (member : mark ∈ marks) :
    mark ∈ layout.stripFrom marks ∨ Text.isBlank mark.char = true := by
  induction marks generalizing layout with
  | nil => cases member
  | cons first rest ih =>
    rw [stripFrom]
    rcases List.mem_cons.mp member with rfl | later
    · cases kept : layout.keeps mark.char with
      | true => exact .inl List.mem_cons_self
      | false => exact .inr (isBlank_of_dropped kept)
    · rcases ih later with within | blank
      · split
        · exact .inl (List.mem_cons_of_mem first within)
        · exact .inl within
      · exact .inr blank

end Layout

namespace Balance

/-- The layout that belongs to what is open: a branch keeps no blanks. -/
def layout (balance : Balance) : Layout :=
  ⟨balance.quote.isSome, balance.nesting.inner.filter (· ≠ .branch)⟩

/-- A blank outside strings, with no title and no command list open, only arranges the page. -/
def arranges (balance : Balance) (c : Char) : Bool :=
  Text.isBlank c && balance.quote.isNone && !balance.nesting.isOpen .title &&
    !balance.nesting.isOpen .commands

theorem keeps_layout (balance : Balance) (c : Char) : balance.layout.keeps c = !balance.arranges c := by
  obtain ⟨nesting, quote⟩ := balance
  cases quote <;> cases nesting <;>
    simp [layout, Layout.keeps, arranges, Nesting.inner, Nesting.isOpen]

/-- Outside strings, the region that counts for layout turns as the innermost region does. -/
theorem after_of_turn {scope after : Option Region} {c : Char} (turn : Region.Turn scope c after) :
    Layout.after ⟨false, scope.filter (· ≠ .branch)⟩ c = ⟨false, after.filter (· ≠ .branch)⟩ := by
  cases turn with
  | plain free => exact Layout.after_free free _
  | _ => rfl

/-- Whatever the balance lets through, the layout goes along with. -/
theorem layout_read {balance next : Balance} {mark : Mark} (taken : balance.read mark = .ok next) :
    next.layout = balance.layout.after mark.char := by
  unfold read at taken
  split at taken
  · rename_i quote
    cases taken
    rw [quote]
    obtain ⟨nesting, _ | opener⟩ := balance <;> rfl
  · rename_i unquoted
    split at taken
    · rename_i inside
      cases taken
      rw [layout, inside, Layout.after_inside unquoted]
    · rename_i outside
      split at taken
      · rename_i nesting read
        cases taken
        rw [Bool.not_eq_true] at outside
        rw [layout, layout, outside, after_of_turn (Nesting.turn_of_read unquoted read)]
      · cases taken

end Balance

namespace Source

/-- The balance as it stands when a text has been read. -/
def balanceAfter (front : List Char) : Except Failure Balance :=
  (locate front).foldlM Balance.read Balance.start

/-- What the balance, read up to a character, takes for layout. -/
def isLayout (source : List Char) (mark : Mark) : Bool :=
  (balanceAfter (source.take mark.place.index)).toOption.any fun balance => balance.arranges mark.char

theorem index_foldl_after (front : List Char) : (front.foldl Place.after Place.first).index = front.length := by
  rw [foldl_after_first]

theorem balanceAfter_snoc {front : List Char} {c : Char} {balance next : Balance}
    (reached : balanceAfter front = .ok balance)
    (taken : balance.read ⟨c, front.foldl Place.after Place.first⟩ = .ok next) :
    balanceAfter (front ++ [c]) = .ok next := by
  rw [balanceAfter, locate] at reached
  rw [balanceAfter, locate, locateFrom_append, List.foldlM_append, reached]
  change balance.read _ >>= pure = _
  rw [taken]
  rfl

theorem isLayout_at {front : List Char} {balance : Balance} (reached : balanceAfter front = .ok balance)
    (c : Char) (rest : List Char) :
    isLayout (front ++ c :: rest) ⟨c, front.foldl Place.after Place.first⟩ = balance.arranges c := by
  rw [isLayout, index_foldl_after, List.take_left, reached]
  rfl

/-- From a place that the balance has reached and goes on from to the end, stripping drops what the balance takes
for layout. -/
theorem stripFrom_eq_filter {front rest : List Char} {balance last : Balance}
    (reached : balanceAfter front = .ok balance)
    (read : (locateFrom (front.foldl Place.after Place.first) rest).foldlM Balance.read balance = .ok last) :
    balance.layout.stripFrom (locateFrom (front.foldl Place.after Place.first) rest) =
      (locateFrom (front.foldl Place.after Place.first) rest).filter
        fun mark => !isLayout (front ++ rest) mark := by
  -- The whole text stays the same: what is read moves from the rest to the front, and the balance with it.
  induction rest generalizing front balance with
  | nil => rfl
  | cons c rest ih =>
    rw [locateFrom, List.foldlM_cons] at read
    obtain ⟨next, taken, read⟩ := bind_ok read
    have later := ih (balanceAfter_snoc reached taken) (by simpa using read)
    rw [List.foldl_append, List.append_assoc] at later
    rw [locateFrom, Layout.stripFrom, List.filter_cons, isLayout_at reached, balance.keeps_layout,
      ← Balance.layout_read taken]
    split
    · exact congrArg _ later
    · exact later

theorem exists_balanceAfter {source : List Char} (accepted : checkBalance (locate source) = .ok ())
    (index : Nat) : ∃ balance, balanceAfter (source.take index) = .ok balance := by
  obtain ⟨last, read, _⟩ := bind_ok accepted
  rw [← List.take_append_drop index source, locate, locateFrom_append, List.foldlM_append] at read
  obtain ⟨balance, reached, _⟩ := bind_ok read
  exact ⟨balance, reached⟩

theorem strip_eq_filter {source : List Char} (accepted : checkBalance (locate source) = .ok ()) :
    strip source = (locate source).filter fun mark => !isLayout source mark := by
  obtain ⟨last, read, _⟩ := bind_ok accepted
  have started : balanceAfter [] = .ok Balance.start := rfl
  exact stripFrom_eq_filter started read

theorem pairwise_index_strip (source : List Char) :
    (strip source).Pairwise fun mark later => mark.place.index < later.place.index := by
  have counted : ((locate source).map fun mark => mark.place.index).Pairwise (· < ·) := by
    rw [map_index_locate]
    exact List.pairwise_lt_range
  exact (List.pairwise_map.mp counted).sublist (Layout.stripFrom_sublist _ _)

/-- Stripping drops exactly the layout. Of a balanced source it leaves the characters that the balance does not
take for layout, each in its order; of any source it leaves places that go up, each with the character, the line
and the column that belong to its index, and it drops nothing but blanks. -/
theorem strip_drops_layout (source : List Char) :
    (checkBalance (locate source) = .ok () →
      normalize source = .ok (strip source) ∧
        (strip source = (locate source).filter fun mark => !isLayout source mark) ∧
        ∀ index, ∃ balance, balanceAfter (source.take index) = .ok balance) ∧
    ((strip source).map Mark.place).length = (text (strip source)).length ∧
    ((strip source).map Mark.place).Pairwise (fun origin later => origin.index < later.index) ∧
    (∀ (position : Nat) c origin, (text (strip source))[position]? = some c →
      ((strip source).map Mark.place)[position]? = some origin → Mark.StandsIn source ⟨c, origin⟩) ∧
    ∀ mark ∈ locate source, mark ∉ strip source → Text.isBlank mark.char = true := by
  refine ⟨?_, ?_, ?_, ?_, ?_⟩
  · intro accepted
    refine ⟨?_, strip_eq_filter accepted, exists_balanceAfter accepted⟩
    rw [normalize, accepted]
    rfl
  · rw [text, List.length_map, List.length_map]
  · exact List.pairwise_map.mpr (pairwise_index_strip source)
  · intro position c origin spelled placed
    rw [text, List.getElem?_map] at spelled
    rw [List.getElem?_map] at placed
    obtain ⟨mark, found, rfl⟩ := Option.map_eq_some_iff.mp spelled
    rw [found] at placed
    cases placed
    have kept := List.mem_of_getElem? found
    exact standsIn_of_mem_locate ((Layout.stripFrom_sublist _ _).subset kept)
  · intro mark located dropped
    exact (Layout.mem_stripFrom_or_isBlank located).resolve_left dropped

/-- A page with delimiters and blanks in a string, a blank title and a list over two lines. -/
def roomyPage : List Char := "[ T ]\n\x7b \"a\" \"( \" \"r\" ( goto\n b; )\n\x7d".toList

/-- The blank of the title stays, and the line feed behind it goes. -/
theorem strip_drops_layout_of_page :
    checkBalance (locate roomyPage) = .ok () ∧ normalize roomyPage = .ok (strip roomyPage) ∧
      (strip roomyPage = (locate roomyPage).filter fun mark => !isLayout roomyPage mark) ∧
      (∀ index, ∃ balance, balanceAfter (roomyPage.take index) = .ok balance) ∧
      (text (strip roomyPage))[5]? = some '\x7b' ∧
      ((strip roomyPage).map Mark.place)[5]? = some ⟨6, 2, 1⟩ ∧
      Mark.StandsIn roomyPage ⟨'\x7b', ⟨6, 2, 1⟩⟩ ∧
      ⟨'\n', ⟨5, 1, 6⟩⟩ ∈ locate roomyPage ∧ ⟨'\n', ⟨5, 1, 6⟩⟩ ∉ strip roomyPage ∧
      Text.isBlank '\n' = true := by
  have accepted : checkBalance (locate roomyPage) = .ok () := by rfl
  obtain ⟨balanced, _, _, stands, blank⟩ := strip_drops_layout roomyPage
  obtain ⟨normal, kept, read⟩ := balanced accepted
  have located : ⟨'\n', ⟨5, 1, 6⟩⟩ ∈ locate roomyPage := by decide
  have dropped : ⟨'\n', ⟨5, 1, 6⟩⟩ ∉ strip roomyPage := by decide
  exact ⟨accepted, normal, kept, read, by rfl, by rfl, stands 5 '\x7b' ⟨6, 2, 1⟩ (by rfl) (by rfl), located,
    dropped, blank _ located dropped⟩

/-- Stripping is done after once: what it leaves is left whole when it is stripped again, every character at its
own index, and is normalized exactly if the source is, and to the same text. -/
theorem normalize_idempotent (source : List Char) :
    text (strip (text (strip source))) = text (strip source) ∧
      (strip (text (strip source))).map (fun mark => mark.place.index) =
        List.range (text (strip source)).length ∧
      ((∃ marks, normalize source = .ok marks) ↔ ∃ marks, normalize (text (strip source)) = .ok marks) ∧
      ∀ marks again, normalize source = .ok marks → normalize (text (strip source)) = .ok again →
        text again = text marks := by
  have fixed := text_strip_text_strip source
  refine ⟨fixed, ?_, ?_, ?_⟩
  · rw [strip_text_strip, map_index_locate]
  · simp only [normalize_ok_iff, fixed, exists_and_left, exists_eq, and_true]
  · intro marks again normal renewed
    obtain ⟨_, rfl⟩ := (normalize_ok_iff _ _).mp normal
    obtain ⟨_, rfl⟩ := (normalize_ok_iff _ _).mp renewed
    exact fixed

theorem normalize_idempotent_on_page :
    ∃ marks again, normalize roomyPage = .ok marks ∧ normalize (text (strip roomyPage)) = .ok again ∧
      text again = text marks :=
  ⟨_, _, rfl, rfl, (normalize_idempotent roomyPage).2.2.2 _ _ rfl rfl⟩

end Source

end Parley
