import Parley.Proofs.Json.Value

namespace Parley.Json

def Lexeme.chars : Lexeme → List Char
  | mark c => [c]
  | literal raw => '"' :: raw ++ ['"']
  | word chars => chars

/-- An entry of an object: its key, a colon and its value. -/
def keyed (key : String) (value : List Lexeme) : List Lexeme :=
  .literal (escaped key.toList) :: .mark ':' :: value

namespace Value

/-- What a value is made of, in the order of its writing. A string without a text is written as the empty
one. -/
def lexemes : Value → List Lexeme
  | null => [.word "null".toList]
  | bool value => [.word (if value then "true" else "false").toList]
  | number written => [.word written]
  | text content => [.literal (escaped (content.getD "").toList)]
  | list items => .mark '[' :: ([Lexeme.mark ','].intercalate (items.map lexemes) ++ [.mark ']'])
  | fields entries =>
    .mark '{' :: ([Lexeme.mark ','].intercalate (entries.map fun entry =>
      keyed (entry.1.getD "") entry.2.lexemes) ++ [.mark '}'])
termination_by value => sizeOf value
decreasing_by
  · rename_i member
    have smaller := List.sizeOf_lt_of_mem member
    simp only [list.sizeOf_spec]
    omega
  · rename_i member
    have smaller := List.sizeOf_lt_of_mem member
    rcases entry with ⟨key, value⟩
    simp only [fields.sizeOf_spec, Prod.mk.sizeOf_spec] at *
    omega

def compact (value : Value) : List Char := value.lexemes.flatMap Lexeme.chars

/-- The values that a writer makes: every string and every key has a text, and there are no numbers. -/
inductive Writable : Value → Prop
  | null : Writable null
  | bool (value : Bool) : Writable (bool value)
  | text (content : String) : Writable (text (some content))
  | list {items : List Value} (each : ∀ item ∈ items, Writable item) : Writable (list items)
  | fields {entries : List (String × Value)} (each : ∀ entry ∈ entries, Writable entry.2) :
    Writable (fields (entries.map fun entry => (some entry.1, entry.2)))

end Value

theorem flatMap_intercalate (f : α → List β) (separator : List α) (parts : List (List α)) :
    (separator.intercalate parts).flatMap f
      = (separator.flatMap f).intercalate (parts.map (List.flatMap f)) := by
  induction parts with
  | nil => rfl
  | cons part later ih =>
    cases later with
    | nil => simp
    | cons second more =>
      rw [List.intercalate_cons_cons, List.map_cons, List.map_cons, List.intercalate_cons_cons,
        List.flatMap_append, List.flatMap_append, ih, List.map_cons]

namespace Value

theorem compact_bool (value : Bool) : (bool value).compact = (if value then "true" else "false").toList := by
  simp [compact, lexemes, Lexeme.chars]

theorem compact_text (content : String) : (text (some content)).compact = quoteChars content.toList := by
  simp [compact, lexemes, Lexeme.chars, quoteChars]

theorem compact_list (items : List Value) :
    (list items).compact = '[' :: ([','].intercalate (items.map compact) ++ [']']) := by
  have inner := flatMap_intercalate Lexeme.chars [.mark ','] (items.map lexemes)
  rw [List.map_map] at inner
  rw [compact, lexemes, List.flatMap_cons, List.flatMap_append, inner]
  rfl

theorem compact_fields (entries : List (String × Value)) :
    (fields (entries.map fun entry => (some entry.1, entry.2))).compact
      = '{' :: ([','].intercalate (entries.map fun entry =>
          quoteChars entry.1.toList ++ ':' :: entry.2.compact) ++ ['}']) := by
  have inner := flatMap_intercalate Lexeme.chars [.mark ','] (entries.map fun entry =>
    keyed entry.1 entry.2.lexemes)
  have one (entry : String × Value) : (keyed entry.1 entry.2.lexemes).flatMap Lexeme.chars
      = quoteChars entry.1.toList ++ ':' :: entry.2.compact := by
    simp [keyed, Lexeme.chars, quoteChars, compact]
  rw [List.map_map, Function.comp_def] at inner
  simp only [one] at inner
  rw [compact, lexemes, List.map_map, List.flatMap_cons, List.flatMap_append]
  exact congrArg (fun inner => '{' :: (inner ++ ['}'])) inner

end Value

/-- What holds of the lexemes of every value, because it holds of single words and strings and is kept where a
mark joins two parts. -/
structure Composed (holds : List Lexeme → Prop) : Prop where
  nil : holds []
  null : holds [.word "null".toList]
  flag : ∀ value : Bool, holds [.word (if value then "true" else "false").toList]
  literal : ∀ text, holds [.literal (escaped text)]
  mark : ∀ {front back c}, isMark c = true → holds front → holds back → holds (front ++ .mark c :: back)

namespace Composed

variable {holds : List Lexeme → Prop}

theorem keyed (composed : Composed holds) (key : String) {value : List Lexeme} (within : holds value) :
    holds (keyed key value) := by
  have entry := composed.mark (c := ':') rfl (composed.literal key.toList) within
  exact entry

theorem intercalate (composed : Composed holds) {parts : List (List Lexeme)}
    (each : ∀ part ∈ parts, holds part) : holds ([Lexeme.mark ','].intercalate parts) := by
  induction parts with
  | nil => exact composed.nil
  | cons part later ih =>
    have first := each part List.mem_cons_self
    have others := ih fun other member => each other (List.mem_cons_of_mem part member)
    cases later with
    | nil => simpa using first
    | cons second more =>
      simpa [List.intercalate_cons_cons] using composed.mark (c := ',') rfl first others

theorem enclosed (composed : Composed holds) {inner : List Lexeme} {opened closed : Char}
    (opens : isMark opened = true) (closes : isMark closed = true) (within : holds inner) :
    holds (.mark opened :: (inner ++ [.mark closed])) := by
  have whole := composed.mark opens composed.nil (composed.mark closes within composed.nil)
  exact whole

theorem lexemes (composed : Composed holds) {value : Value} (writable : value.Writable) :
    holds value.lexemes := by
  induction writable with
  | null => simpa [Value.lexemes] using composed.null
  | bool value => simpa [Value.lexemes] using composed.flag value
  | text content => simpa [Value.lexemes] using composed.literal content.toList
  | list _ ih =>
    rw [Value.lexemes]
    refine composed.enclosed rfl rfl (composed.intercalate fun part member => ?_)
    obtain ⟨item, present, rfl⟩ := List.mem_map.mp member
    exact ih item present
  | fields _ ih =>
    rw [Value.lexemes, List.map_map]
    refine composed.enclosed rfl rfl (composed.intercalate fun part member => ?_)
    obtain ⟨entry, present, rfl⟩ := List.mem_map.mp member
    exact composed.keyed entry.1 (ih entry present)

end Composed

/-- The text goes on as it does behind a value: with a mark, or not at all. -/
def Ended (rest : List Char) : Prop := ∀ c ∈ rest.head?, isMark c = true

/-- A mark or the end of the text ends a word. -/
theorem lexemes?_inWord_ended {rest : List Char} (ended : Ended rest) (read : List Char) :
    lexemes? (.inWord read) rest = (lexemes? .between rest).map (.word read.reverse :: ·) := by
  cases rest with
  | nil => rfl
  | cons c later =>
    have known : isMark c = true := ended c rfl
    obtain ⟨noSpace, noQuote, -⟩ := isMark_apart known
    rw [lexemes?_mark known, lexemes?, if_neg (by simp [noSpace]), if_neg noQuote, if_pos known,
      Option.map_map]
    rfl

/-- The lexemes are cut out again where they were written, whatever comes behind them. -/
def Apart (lexemes : List Lexeme) : Prop :=
  ∀ rest, Ended rest →
    lexemes? .between (lexemes.flatMap Lexeme.chars ++ rest)
      = (lexemes? .between rest).map (lexemes ++ ·)

theorem apart_composed : Composed Apart where
  nil rest _ := by simp
  null rest ended := by
    simp [Lexeme.chars, lexemes?, isSpace, isMark, lexemes?_inWord_ended ended]
  flag value rest ended := by
    cases value <;> simp [Lexeme.chars, lexemes?, isSpace, isMark, lexemes?_inWord_ended ended]
  literal text rest _ := by
    have written : [Lexeme.literal (escaped text)].flatMap Lexeme.chars = quoteChars text := by
      simp [Lexeme.chars, quoteChars]
    rw [written, lexemes?_quote]
    rfl
  mark {front back c} known before behind rest ended := by
    have split : (front ++ Lexeme.mark c :: back).flatMap Lexeme.chars ++ rest
        = front.flatMap Lexeme.chars ++ c :: (back.flatMap Lexeme.chars ++ rest) := by
      simp [Lexeme.chars]
    rw [split, before _ (by simpa [Ended] using known), lexemes?_mark known, behind rest ended]
    cases lexemes? .between rest <;> simp

theorem Value.Writable.lexemes?_compact {value : Value} (writable : value.Writable) :
    lexemes? .between value.compact = some value.lexemes := by
  have cut := apart_composed.lexemes writable [] (by simp [Ended])
  simpa [compact, lexemes?] using cut

def Printable (lexemes : List Lexeme) : Prop := ∀ c ∈ lexemes.flatMap Lexeme.chars, ¬c.toNat < 0x20

theorem printable_composed : Composed Printable where
  nil := by simp [Printable]
  null := by simp [Printable, Lexeme.chars]
  flag value := by cases value <;> simp [Printable, Lexeme.chars]
  literal text c member := by
    have within : c ∈ quoteChars text := by simpa [Lexeme.chars, quoteChars] using member
    exact printable_quoteChars within
  mark {front back d} known before behind c member := by
    rw [List.flatMap_append, List.flatMap_cons, List.mem_append, List.mem_append] at member
    rcases member with early | same | late
    · exact before c early
    · rw [List.mem_singleton.mp same]
      exact (isMark_apart known).2.2
    · exact behind c late

theorem Value.Writable.printable {value : Value} (writable : value.Writable) {c : Char}
    (member : c ∈ value.compact) : ¬c.toNat < 0x20 :=
  printable_composed.lexemes writable c member

/-- From the lexemes a machine that waits for a value gets it, wherever the value stands. -/
def Spells (lexemes : List Lexeme) (value : Value) : Prop :=
  ∀ stack, lexemes.foldlM Machine.read ⟨.value, stack⟩ = some ⟨.nothing value, stack⟩

namespace Spells

/-- No value starts with the mark that closes a list. -/
theorem starts {lexemes : List Lexeme} {value : Value} (spells : Spells lexemes value) :
    ∃ first later, lexemes = first :: later ∧ first ≠ .mark ']' := by
  cases lexemes with
  | nil => cases spells []
  | cons first later =>
    refine ⟨first, later, rfl, ?_⟩
    rintro rfl
    cases spells []

theorem foldlM_append {lexemes : List Lexeme} {value : Value} (spells : Spells lexemes value)
    (later : List Lexeme) (stack : List Frame) :
    (lexemes ++ later).foldlM Machine.read ⟨.value, stack⟩
      = later.foldlM Machine.read ⟨.nothing value, stack⟩ := by
  rw [List.foldlM_append, spells stack]
  rfl

/-- The items of a list that are still to come, read behind those that have been. -/
theorem foldlM_items {lexemes : Value → List Lexeme} {first : Value} {later : List Value}
    (each : ∀ item ∈ first :: later, Spells (lexemes item) item) (before : List Value)
    (stack : List Frame) :
    ([Lexeme.mark ','].intercalate ((first :: later).map lexemes) ++ [Lexeme.mark ']']).foldlM Machine.read
        ⟨.value, .list before :: stack⟩
      = some ⟨.nothing (.list (before.reverse ++ first :: later)), stack⟩ := by
  induction later generalizing first before with
  | nil =>
    rw [List.map_singleton, List.intercalate_singleton, (each first List.mem_cons_self).foldlM_append]
    simp [Machine.read, Machine.resume]
  | cons second more ih =>
    have next := ih (fun item member => each item (List.mem_cons_of_mem first member)) (first :: before)
    rw [List.reverse_cons, List.append_assoc, List.singleton_append] at next
    rw [List.map_cons, List.map_cons, List.intercalate_cons_cons, List.append_assoc, List.append_assoc,
      (each first List.mem_cons_self).foldlM_append]
    exact next

/-- A list's first item is read as every other one, except that the list might have ended before it. -/
theorem list {lexemes : Value → List Lexeme} {items : List Value}
    (each : ∀ item ∈ items, Spells (lexemes item) item) :
    Spells (.mark '[' :: ([Lexeme.mark ','].intercalate (items.map lexemes) ++ [.mark ']'])) (.list items) := by
  intro stack
  cases items with
  | nil => rfl
  | cons first later =>
    have items := foldlM_items each [] stack
    obtain ⟨lexeme, others, begins, other⟩ := (each first List.mem_cons_self).starts
    obtain ⟨behind, front⟩ : ∃ behind,
        [Lexeme.mark ','].intercalate ((first :: later).map lexemes) ++ [Lexeme.mark ']'] = lexeme :: behind := by
      cases later <;> simp [List.intercalate, begins]
    have same : Machine.read ⟨.firstItem, stack⟩ lexeme = Machine.read ⟨.value, .list [] :: stack⟩ lexeme :=
      if_neg other
    rw [front, List.foldlM_cons, ← same] at items
    rw [front]
    exact items

theorem foldlM_keyed {lexemes : List Lexeme} {value : Value} (spells : Spells lexemes value) (key : String)
    (before : List (Option String × Value)) (later : List Lexeme) (stack : List Frame) :
    (keyed key lexemes ++ later).foldlM Machine.read ⟨.key before, stack⟩
      = later.foldlM Machine.read ⟨.nothing value, .fields before (some key) :: stack⟩ := by
  have named : Machine.read ⟨.key before, stack⟩ (.literal (escaped key.toList))
      = some ⟨.colon before (some key), stack⟩ := by
    simp [Machine.read, content?_escaped]
  rw [keyed, List.cons_append, List.foldlM_cons, named]
  exact spells.foldlM_append later (.fields before (some key) :: stack)

/-- The entries of an object that are still to come, read behind those that have been. -/
theorem foldlM_entries {lexemes : Value → List Lexeme} {first : String × Value}
    {later : List (String × Value)} (each : ∀ entry ∈ first :: later, Spells (lexemes entry.2) entry.2)
    (before : List (Option String × Value)) (stack : List Frame) :
    ([Lexeme.mark ','].intercalate ((first :: later).map fun entry => keyed entry.1 (lexemes entry.2)) ++
        [Lexeme.mark '}']).foldlM Machine.read ⟨.key before, stack⟩
      = some ⟨.nothing (.fields (before.reverse ++ (first :: later).map fun entry => (some entry.1, entry.2))),
          stack⟩ := by
  induction later generalizing first before with
  | nil =>
    rw [List.map_singleton, List.intercalate_singleton, (each first List.mem_cons_self).foldlM_keyed]
    simp [Machine.read, Machine.resume]
  | cons second more ih =>
    have next := ih (fun entry member => each entry (List.mem_cons_of_mem first member))
      ((some first.1, first.2) :: before)
    rw [List.reverse_cons, List.append_assoc, List.singleton_append] at next
    rw [List.map_cons, List.map_cons, List.intercalate_cons_cons, List.append_assoc, List.append_assoc,
      (each first List.mem_cons_self).foldlM_keyed]
    exact next

/-- An object's first key is read as every other one, except that the object might have ended before it. -/
theorem fields {lexemes : Value → List Lexeme} {entries : List (String × Value)}
    (each : ∀ entry ∈ entries, Spells (lexemes entry.2) entry.2) :
    Spells (.mark '{' :: ([Lexeme.mark ','].intercalate (entries.map fun entry =>
        keyed entry.1 (lexemes entry.2)) ++ [Lexeme.mark '}']))
      (.fields (entries.map fun entry => (some entry.1, entry.2))) := by
  intro stack
  cases entries with
  | nil => rfl
  | cons first later =>
    have entries := foldlM_entries each [] stack
    cases later <;> exact entries

end Spells

namespace Value

theorem Writable.spells {value : Value} (writable : value.Writable) : Spells value.lexemes value := by
  induction writable with
  | null =>
    intro stack
    simp [lexemes, Machine.read, Machine.enter, ofWord?]
  | bool value =>
    intro stack
    cases value <;> simp [lexemes, Machine.read, Machine.enter, ofWord?]
  | text content =>
    intro stack
    simp [lexemes, Machine.read, Machine.enter, content?_escaped]
  | list _ ih =>
    rw [lexemes]
    exact Spells.list ih
  | fields _ ih =>
    have object := Spells.fields ih
    rw [lexemes, List.map_map]
    exact object

theorem Writable.parse?_compact {value : Value} (writable : value.Writable) :
    parse? value.compact = some value := by
  rw [parse?, writable.lexemes?_compact]
  simp [writable.spells []]

end Value

end Parley.Json
