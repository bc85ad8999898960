import Parley.Proofs.Source.Balanced

namespace Parley

/-- Two ways to cut a list at the first item without a property are one. -/
theorem cut_unique {p : α → Bool} {front other : List α} {cut mark : α} {rest more : List α}
    (inside : ∀ item ∈ front, p item = true) (within : ∀ item ∈ other, p item = true)
    (ends : p cut = false) (stops : p mark = false) (same : front ++ cut :: rest = other ++ mark :: more) :
    front = other ∧ cut = mark ∧ rest = more := by
  induction front generalizing other with
  | nil =>
    cases other with
    | nil => simpa using same
    | cons item items =>
      obtain ⟨rfl, _⟩ := List.cons.inj same
      simp [within cut List.mem_cons_self] at ends
  | cons item items ih =>
    cases other with
    | nil =>
      obtain ⟨rfl, _⟩ := List.cons.inj same
      simp [inside item List.mem_cons_self] at stops
    | cons first others =>
      obtain ⟨rfl, tail⟩ := List.cons.inj same
      obtain ⟨rfl, later⟩ := ih (fun item member => inside item (List.mem_cons_of_mem _ member))
        (fun item member => within item (List.mem_cons_of_mem _ member)) tail
      exact ⟨rfl, later⟩

/-- A piece of text: a character that delimits nothing, or a whole string. -/
inductive Piece
  | plain (c : Char) (free : isDelimiter c = false)
  | quoted (content : List Char) (closed : '"' ∉ content)
  deriving DecidableEq

namespace Piece

def written : Piece → List Char
  | plain c _ => [c]
  | quoted content _ => '"' :: (content ++ ['"'])

/-- What a piece adds to a text. -/
def content : Piece → List Char
  | plain c _ => [c]
  | quoted content _ => content

/-- The character that separates a command name from its argument. -/
def space : Piece := plain ' ' (by decide)

def isPlain : Piece → Bool
  | plain _ _ => true
  | quoted _ _ => false

/-- Layout of a command list. -/
def isGap : Piece → Bool
  | plain c _ => Text.isBlank c
  | quoted _ _ => false

/-- Pieces that begin nothing: layout and the empty string. -/
def isSilent : Piece → Bool
  | plain c _ => Text.isBlank c
  | quoted content _ => content.isEmpty

@[simp]
theorem content_plain (c : Char) (free : isDelimiter c = false) : (plain c free).content = [c] := rfl

@[simp]
theorem content_quoted (text : List Char) (closed : '"' ∉ text) : (quoted text closed).content = text :=
  rfl

@[simp]
theorem isSilent_plain (c : Char) (free : isDelimiter c = false) :
    (plain c free).isSilent = Text.isBlank c := rfl

@[simp]
theorem isSilent_quoted (text : List Char) (closed : '"' ∉ text) :
    (quoted text closed).isSilent = text.isEmpty := rfl

@[simp]
theorem isGap_plain (c : Char) (free : isDelimiter c = false) :
    (plain c free).isGap = Text.isBlank c := rfl

@[simp]
theorem isGap_quoted (text : List Char) (closed : '"' ∉ text) : (quoted text closed).isGap = false :=
  rfl

end Piece

def contents (pieces : List Piece) : List Char := pieces.flatMap Piece.content

/-- Pieces from the first one on that begins something. -/
def voiced (pieces : List Piece) : List Piece := pieces.dropWhile Piece.isSilent

@[simp]
theorem contents_nil : contents [] = [] := rfl

@[simp]
theorem contents_append (front back : List Piece) :
    contents (front ++ back) = contents front ++ contents back := by
  simp [contents]

@[simp]
theorem contents_singleton (piece : Piece) : contents [piece] = piece.content := by
  simp [contents]

/-- Plain pieces that add up to nothing are none at all. -/
theorem eq_nil_of_plain {pieces : List Piece} (plain : ∀ piece ∈ pieces, piece.isPlain = true)
    (mute : contents pieces = []) : pieces = [] := by
  cases pieces with
  | nil => rfl
  | cons piece rest =>
    cases piece with
    | plain c free => simp [contents] at mute
    | quoted content closed => exact absurd (plain _ List.mem_cons_self) (by simp [Piece.isPlain])

theorem voiced_snoc (pieces : List Piece) (last : Piece) :
    voiced (pieces ++ [last]) =
      if (voiced pieces).isEmpty && last.isSilent then [] else voiced pieces ++ [last] := by
  induction pieces with
  | nil => cases silent : last.isSilent <;> simp [voiced, silent]
  | cons first rest ih =>
    cases silent : first.isSilent with
    | true => simpa [voiced, silent] using ih
    | false => simp [voiced, silent]

theorem unbroken_snoc {name : List Piece} (unbroken : .space ∉ voiced name) {part : Piece}
    (other : part ≠ .space) : .space ∉ voiced (name ++ [part]) := by
  rw [voiced_snoc]
  split
  · exact List.not_mem_nil
  · simp [unbroken, Ne.symm other]

theorem plain_snoc {loose : List Piece} (plain : ∀ piece ∈ loose, piece.isPlain = true) {c : Char}
    (free : isDelimiter c = false) : ∀ piece ∈ loose ++ [.plain c free], piece.isPlain = true := by
  simpa [or_imp, forall_and, Piece.isPlain] using plain

/-- Whatever begins something has a content. -/
theorem contents_voiced_eq_nil_iff (pieces : List Piece) :
    contents (voiced pieces) = [] ↔ voiced pieces = [] := by
  constructor
  · intro mute
    cases begun : voiced pieces with
    | nil => rfl
    | cons first rest =>
      have loud : first.isSilent = false := by
        have head := List.head?_dropWhile_not Piece.isSilent pieces
        unfold voiced at begun
        rw [begun] at head
        simpa using head
      rw [begun] at mute
      cases first with
      | plain c free => simp [contents] at mute
      | quoted content closed =>
        simp at loud
        simp [contents, loud] at mute
  · intro none
    rw [none, contents_nil]

theorem isEmpty_contents_voiced (pieces : List Piece) :
    (contents (voiced pieces)).isEmpty = (voiced pieces).isEmpty := by
  rw [Bool.eq_iff_iff, List.isEmpty_iff, List.isEmpty_iff]
  exact contents_voiced_eq_nil_iff pieces

inductive Token
  | piece (part : Piece)
  | opens (region : Region)
  | closes (region : Region)
  | ends
  deriving DecidableEq

namespace Token

def written : Token → List Char
  | piece part => part.written
  | opens region => [region.opener]
  | closes region => [region.closer]
  | ends => [';']

def isPiece : Token → Bool
  | piece _ => true
  | _ => false

/-- What may stand in a command list. -/
def isInside : Token → Bool
  | piece _ => true
  | ends => true
  | _ => false

@[simp]
theorem written_quoted (content : List Char) (closed : '"' ∉ content) :
    (piece (.quoted content closed)).written = '"' :: (content ++ ['"']) := rfl

def ofChar (c : Char) : Token :=
  if free : isDelimiter c = false then piece (.plain c free)
  else
    match Region.ofOpener? c, Region.ofCloser? c with
    | some region, _ => opens region
    | none, some region => closes region
    | none, none => ends

theorem written_ofChar {c : Char} (unquoted : c ≠ '"') : (ofChar c).written = [c] := by
  rcases isDelimiter_cases c with rfl | rfl | rfl | rfl | rfl | rfl | rfl | rfl | free
  · exact absurd rfl unquoted
  case inr.inr.inr.inr.inr.inr.inr.inr => simp [ofChar, free, written, Piece.written]
  all_goals rfl

/-- A token is a string or stands for one character. -/
theorem cases_written (token : Token) :
    (∃ content closed, token = .piece (.quoted content closed)) ∨
      ∃ c, token = ofChar c ∧ c ≠ '"' := by
  cases token with
  | piece part =>
    cases part with
    | plain c free => exact .inr ⟨c, by simp [ofChar, free], ne_quote_of_free free⟩
    | quoted content closed => exact .inl ⟨content, closed, rfl⟩
  | opens region => exact .inr ⟨region.opener, by cases region <;> rfl, by cases region <;> decide⟩
  | closes region => exact .inr ⟨region.closer, by cases region <;> rfl, by cases region <;> decide⟩
  | ends => exact .inr ⟨';', rfl, by decide⟩

end Token

def spell (tokens : List Token) : List Char := tokens.flatMap Token.written

@[simp]
theorem spell_nil : spell [] = [] := rfl

@[simp]
theorem spell_cons (token : Token) (rest : List Token) :
    spell (token :: rest) = token.written ++ spell rest := rfl

@[simp]
theorem spell_append (front back : List Token) : spell (front ++ back) = spell front ++ spell back := by
  simp [spell]

/-- A text whose strings close is spelled by tokens; one that starts inside a string first ends it. -/
theorem Source.Balanced.tokens {scope : Option Region} {quoted : Bool} {text : List Char}
    (closes : Source.Balanced scope quoted text) :
    ∃ content tokens, '"' ∉ content ∧
      text = if quoted then content ++ '"' :: spell tokens else spell tokens := by
  induction closes with
  | done => exact ⟨[], [], nofun, rfl⟩
  | @quote scope quoted rest _ ih =>
    obtain ⟨content, tokens, closed, spelled⟩ := ih
    cases quoted with
    | true => exact ⟨[], tokens, nofun, by simpa using spelled⟩
    | false =>
      exact ⟨[], .piece (.quoted content closed) :: tokens, nofun,
        by simpa [Token.written, Piece.written] using spelled⟩
  | @inside c scope rest unquoted _ ih =>
    obtain ⟨content, tokens, closed, spelled⟩ := ih
    exact ⟨c :: content, tokens, by simp [closed, Ne.symm unquoted], by simpa using spelled⟩
  | @outside scope c after rest turn _ ih =>
    obtain ⟨_, tokens, _, spelled⟩ := ih
    exact ⟨[], .ofChar c :: tokens, nofun,
      by simpa [Token.written_ofChar turn.ne_quote] using spelled⟩

theorem spell_injective {first second : List Token} (same : spell first = spell second) :
    first = second := by
  induction first generalizing second with
  | nil =>
    cases second with
    | nil => rfl
    | cons token rest =>
      rcases token.cases_written with ⟨content, closed, rfl⟩ | ⟨c, rfl, unquoted⟩
      · simp at same
      · simp [Token.written_ofChar unquoted] at same
  | cons token rest ih =>
    cases second with
    | nil =>
      rcases token.cases_written with ⟨content, closed, rfl⟩ | ⟨c, rfl, unquoted⟩
      · simp at same
      · simp [Token.written_ofChar unquoted] at same
    | cons other more =>
      rcases token.cases_written with ⟨content, closed, rfl⟩ | ⟨c, rfl, unquoted⟩ <;>
        rcases other.cases_written with ⟨wording, shut, rfl⟩ | ⟨d, rfl, plain⟩
      · have cut : content ++ '"' :: spell rest = wording ++ '"' :: spell more := by simpa using same
        obtain ⟨rfl, -, later⟩ := cut_unique (p := (· ≠ '"')) (by simpa using fun c inside => ne_of_mem_of_not_mem inside closed)
          (by simpa using fun c inside => ne_of_mem_of_not_mem inside shut) (by simp) (by simp) cut
        rw [ih later]
      · simp [Token.written_ofChar plain, Ne.symm plain] at same
      · simp [Token.written_ofChar unquoted, unquoted] at same
      · simp only [spell_cons, Token.written_ofChar unquoted, Token.written_ofChar plain,
          List.cons_append, List.nil_append, List.cons.injEq] at same
        rw [same.1, ih same.2]

end Parley
