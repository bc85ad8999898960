import Parley.Proofs.Compile.Simulation
import Parley.Proofs.Page.Basic

namespace Parley

namespace Buffer

/-- A buffer that strings have put nothing aside from. -/
def of (text : List Char) : Buffer := ⟨text.reverse, []⟩

def append (buffer : Buffer) (text : List Char) : Buffer :=
  { buffer with loose := text.reverse ++ buffer.loose }

@[simp]
theorem of_nil : of [] = empty := rfl

@[simp]
theorem isEmpty_empty : empty.isEmpty = true := rfl

@[simp]
theorem isEmpty_of (text : List Char) : (of text).isEmpty = text.isEmpty := by
  cases text <;> simp [of, isEmpty]

@[simp]
theorem chars_of (text : List Char) : (of text).chars = text := by simp [of, chars]

@[simp]
theorem text_of (content : List Char) : (of content).text = String.ofList content := by simp [text]

@[simp]
theorem push_of (text : List Char) (c : Char) : (of text).push c = of (text ++ [c]) := by
  simp [of, push]

@[simp]
theorem append_of (text more : List Char) : (of text).append more = of (text ++ more) := by
  simp [of, append]

theorem append_push (buffer : Buffer) (c : Char) (rest : List Char) :
    (buffer.push c).append rest = buffer.append (c :: rest) := by
  simp [append, push]

theorem eq_empty_of_isEmpty {buffer : Buffer} (none : buffer.isEmpty = true) : buffer = empty := by
  rcases buffer with ⟨_ | _, _ | _⟩ <;> simp_all [isEmpty, empty]

@[simp]
theorem append_empty (text : List Char) : empty.append text = of text := by simp [append, empty, of]

end Buffer

namespace Draft

variable {options : Options} {total : Counts}

/-- What reading a character leaves of a draft that is not refused. -/
def step? (options : Options) (total : Counts) (draft : Draft) (c : Char) : Option Draft :=
  (draft.read options total ⟨c, .first⟩).toOption

def take? (options : Options) (total : Counts) (draft : Draft) (token : Token) : Option Draft :=
  token.written.foldlM (step? options total) draft

@[simp]
theorem toOption_ok (value : α) : (.ok value : Except Failure α).toOption = some value := rfl

@[simp]
theorem toOption_refuse (mark : Mark) (fault : DraftFault) :
    (refuse mark fault : Except Failure α).toOption = none := rfl

@[simp]
theorem toOption_refuseStray_bind (mark : Mark) (buffer : Buffer) (next : Except Failure α) :
    (refuseStray mark buffer >>= fun _ => next).toOption =
      if buffer.isEmpty then next.toOption else none := by
  unfold refuseStray
  split <;> rfl

theorem read_toOption (draft : Draft) (mark : Mark) :
    (draft.read options total mark).toOption = draft.step? options total mark.char :=
  (@read_alike (fun _ _ => True) mark ⟨mark.char, .first⟩ trivial rfl options total draft).toOption_eq

theorem foldlM_read_toOption (marks : List Mark) (draft : Draft) :
    (marks.foldlM (read options total) draft).toOption =
      (Source.text marks).foldlM (step? options total) draft := by
  induction marks generalizing draft with
  | nil => rfl
  | cons mark rest ih =>
    have first := @read_toOption options total draft mark
    rw [Source.text, List.map_cons, List.foldlM_cons, List.foldlM_cons, ← first]
    cases read options total draft mark with
    | error failure => rfl
    | ok next => exact ih next

/-- Inside a string every character is text. -/
theorem foldlM_step?_inside {content : List Char} (closed : '"' ∉ content) (buffer : Buffer)
    (stage : Stage) :
    content.foldlM (step? options total) ⟨true, buffer, stage⟩ =
      some ⟨true, buffer.append content, stage⟩ := by
  induction content generalizing buffer with
  | nil => rfl
  | cons c rest ih =>
    obtain ⟨unquoted, closed⟩ := List.ne_and_not_mem_of_not_mem_cons closed
    have pushed : step? options total ⟨true, buffer, stage⟩ c = some ⟨true, buffer.push c, stage⟩ := by
      simp [step?, read, Ne.symm unquoted, Except.toOption]
    rw [List.foldlM_cons, pushed]
    exact (ih closed _).trans (by rw [Buffer.append_push])

/-- What a whole string makes of a draft. -/
def quote? (draft : Draft) (content : List Char) : Option Draft :=
  let filled := draft.buffer.append content
  match draft.stage with
  | .title _ | .body _ _ _ (.commands _ _) => some { draft with buffer := filled }
  | .body _ _ _ (.argument _ _ _) => some { draft with buffer := filled.hold }
  | .body _ _ _ (.between _) => none
  | .body title branches counts (.header torn) =>
    if draft.buffer.isEmpty ∧ content ≠ [] ∧ String.ofList content ≠ exitHeader then
      some ⟨false, .empty, .body title branches counts (.message torn (String.ofList content))⟩
    else none
  | .body title branches counts (.message _ header) =>
    if draft.buffer.isEmpty then
      let branch := ⟨header, String.ofList content, [], counts.headD []⟩
      some ⟨false, .empty, .body title branches counts (.responses branch)⟩
    else none
  | .body _ _ _ (.responses _) =>
    if draft.buffer.isEmpty then some { draft with buffer := .of content } else none

theorem take?_quoted (content : List Char) (closed : '"' ∉ content) (buffer : Buffer) (stage : Stage) :
    take? options total ⟨false, buffer, stage⟩ (.piece (.quoted content closed)) =
      quote? ⟨false, buffer, stage⟩ content := by
  have inside := @foldlM_step?_inside options total content closed
  have opened : step? options total ⟨false, buffer, stage⟩ '"' =
      (openString ⟨'"', .first⟩ ⟨false, buffer, stage⟩).toOption := rfl
  have shut : ∀ buffer, step? options total ⟨true, buffer, stage⟩ '"' =
      (closeString ⟨'"', .first⟩ ⟨true, buffer, stage⟩).toOption := fun _ => rfl
  rw [take?, Token.written_quoted, List.foldlM_cons, opened]
  simp only [List.foldlM_append, List.foldlM_cons, List.foldlM_nil]
  obtain title | ⟨heading, branches, counts, position⟩ := stage
  · simp [openString, quote?, closeString, inside, shut]
  · cases none : buffer.isEmpty with
    | false => cases position <;> simp [openString, quote?, closeString, inside, shut, none]
    | true =>
      obtain rfl := Buffer.eq_empty_of_isEmpty none
      cases position <;>
        simp [openString, quote?, closeString, inside, shut, apply_ite Except.toOption]
      grind

theorem take?_plain {c : Char} (free : isDelimiter c = false) (buffer : Buffer) (stage : Stage) :
    take? options total ⟨false, buffer, stage⟩ (.piece (.plain c free)) =
      (readPlain options ⟨c, .first⟩ ⟨false, buffer, stage⟩).toOption := by
  have unquoted := ne_quote_of_free free
  change step? options total ⟨false, buffer, stage⟩ c >>= pure = _
  rw [bind_pure, step?, read, if_neg unquoted, if_neg Bool.false_ne_true]
  split
  case h_8 => rfl
  all_goals
    subst_vars
    exact absurd free (by decide)

theorem take?_eq (token : Token) (buffer : Buffer) (stage : Stage) :
    take? options total ⟨false, buffer, stage⟩ token =
      let draft : Draft := ⟨false, buffer, stage⟩
      match token with
      | .piece (.plain c _) => (draft.readPlain options ⟨c, .first⟩).toOption
      | .piece (.quoted content _) => draft.quote? content
      | .opens .title => (draft.openTitle ⟨'[', .first⟩).toOption
      | .closes .title => (draft.closeTitle ⟨']', .first⟩ total).toOption
      | .opens .branch => (draft.openBranch ⟨'{', .first⟩).toOption
      | .closes .branch => (draft.closeBranch ⟨'}', .first⟩).toOption
      | .opens .commands => (draft.openList ⟨'(', .first⟩).toOption
      | .closes .commands => (draft.closeList ⟨')', .first⟩).toOption
      | .ends => (draft.endCommand ⟨';', .first⟩).toOption := by
  match token with
  | .piece (.plain c free) => exact take?_plain free buffer stage
  | .piece (.quoted content closed) => exact take?_quoted content closed buffer stage
  | .opens .title | .closes .title | .opens .branch | .closes .branch | .opens .commands
  | .closes .commands | .ends => exact bind_pure _

theorem foldlM_spell (tokens : List Token) (draft : Draft) :
    (spell tokens).foldlM (step? options total) draft = tokens.foldlM (take? options total) draft := by
  induction tokens generalizing draft with
  | nil => rfl
  | cons token rest ih =>
    rw [spell_cons, List.foldlM_append, List.foldlM_cons]
    exact congrArg _ (funext ih)

end Draft

/-- A text that tokens spell is built by taking them one after the other. -/
theorem build_ok_iff {options : Options} {counts : Counts} {marks : List Mark} {tokens : List Token}
    (spelled : Source.text marks = spell tokens) (dialogue : Dialogue) :
    build options counts marks = .ok dialogue ↔
      ∃ last, tokens.foldlM (Draft.take? options counts) .start = some last ∧
        last.finish = .ok dialogue := by
  have run := @Draft.foldlM_read_toOption options counts marks .start
  rw [spelled, Draft.foldlM_spell] at run
  rw [← run, build_eq_draft, Draft.build]
  cases marks.foldlM (Draft.read options counts) .start with
  | error failure =>
    constructor
    · intro impossible
      cases impossible
    · rintro ⟨last, impossible, _⟩
      cases impossible
  | ok last => simp

end Parley
