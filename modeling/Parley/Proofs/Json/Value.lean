import Parley.Json.Value
import Parley.Proofs.Json.Text

namespace Parley.Json

theorem lexemes?_inLiteral_plain {text : List Char} (plain : ∀ c ∈ text, c ≠ '"' ∧ c ≠ '\\')
    (read rest : List Char) :
    lexemes? (.inLiteral read) (text ++ rest) = lexemes? (.inLiteral (text.reverse ++ read)) rest := by
  induction text generalizing read with
  | nil => rfl
  | cons c later ih =>
    obtain ⟨noQuote, noBackslash⟩ := plain c List.mem_cons_self
    rw [List.cons_append, lexemes?, if_neg noQuote, if_neg noBackslash,
      ih fun d member => plain d (List.mem_cons_of_mem c member)]
    simp

/-- No escape ends the literal it stands in. -/
theorem lexemes?_inLiteral_escape (c : Char) (read rest : List Char) :
    lexemes? (.inLiteral read) (escape c ++ rest)
      = lexemes? (.inLiteral ((escape c).reverse ++ read)) rest := by
  have backslash (mark : Char) (tail : List Char) (plain : ∀ d ∈ tail, d ≠ '"' ∧ d ≠ '\\') :
      lexemes? (.inLiteral read) ('\\' :: mark :: tail ++ rest)
        = lexemes? (.inLiteral (('\\' :: mark :: tail).reverse ++ read)) rest := by
    rw [List.cons_append, List.cons_append, lexemes?, if_neg (by decide), if_pos rfl, lexemes?,
      lexemes?_inLiteral_plain plain]
    simp
  have digit : ∀ value < 16, hexDigit value ≠ '"' ∧ hexDigit value ≠ '\\' := by decide
  rcases escape_cases c with ⟨mark, written, -, -⟩ | ⟨control, written⟩ |
    ⟨written, noQuote, noBackslash, -⟩
  · rw [written]
    exact backslash mark [] (by simp)
  · have high := digit (c.toNat / 16) (by omega)
    have low := digit (c.toNat % 16) (by omega)
    rw [written]
    exact backslash 'u' _ (by simp [high, low])
  · rw [written]
    exact lexemes?_inLiteral_plain (by simp [noQuote, noBackslash]) read rest

theorem lexemes?_inLiteral_escaped (text read rest : List Char) :
    lexemes? (.inLiteral read) (escaped text ++ '"' :: rest)
      = (lexemes? .between rest).map (.literal (read.reverse ++ escaped text) :: ·) := by
  induction text generalizing read with
  | nil => simp [escaped, lexemes?]
  | cons c later ih =>
    have flat : escaped (c :: later) = escape c ++ escaped later := rfl
    rw [flat, List.append_assoc, lexemes?_inLiteral_escape, ih]
    simp

theorem lexemes?_quote (text rest : List Char) :
    lexemes? .between (quoteChars text ++ rest)
      = (lexemes? .between rest).map (.literal (escaped text) :: ·) := by
  have written : quoteChars text ++ rest = '"' :: (escaped text ++ '"' :: rest) := by simp [quoteChars]
  rw [written, lexemes?, if_neg (by decide), if_pos rfl, lexemes?_inLiteral_escaped]
  rfl

/-- A mark is no space, no quote and no control character. -/
theorem isMark_apart {c : Char} (mark : isMark c = true) :
    isSpace c = false ∧ c ≠ '"' ∧ ¬c.toNat < 0x20 := by
  simp only [isMark, Bool.or_eq_true, decide_eq_true_eq] at mark
  rcases mark with ((((rfl | rfl) | rfl) | rfl) | rfl) | rfl
  all_goals decide

theorem lexemes?_mark {c : Char} (mark : isMark c = true) (rest : List Char) :
    lexemes? .between (c :: rest) = (lexemes? .between rest).map (.mark c :: ·) := by
  obtain ⟨noSpace, noQuote, -⟩ := isMark_apart mark
  rw [lexemes?, if_neg (by simp [noSpace]), if_neg noQuote, if_pos mark]

theorem content?_escaped (text : String) : content? (escaped text.toList) = some (some text) := by
  rw [content?, text?_codePoints?_escaped]

end Parley.Json
