import Parley.Json.Text

namespace Parley.Json

theorem hexValue?_hexDigit : ∀ value < 16, hexValue? (hexDigit value) = some value := by decide

/-- A character that is written as itself reads as itself. -/
theorem codePoints?_plain {c : Char} (noBackslash : c ≠ '\\') (noControl : ¬c.toNat < 0x20)
    (rest : List Char) : codePoints? (c :: rest) = (codePoints? rest).map (c.toNat :: ·) := by
  have bare : (decide (c = '\\') || decide (c.toNat < 0x20)) = false := by
    simp [noBackslash, Nat.not_lt.mp noControl]
  rw [codePoints?.eq_def]
  split
  · contradiction
  · simp_all
  · simp_all
  · rename_i other later _ _ same
    obtain ⟨rfl, rfl⟩ := List.cons.inj same
    rw [if_neg (by simp [bare])]
    cases codePoints? rest <;> rfl

theorem codePoints?_short {mark : Char} (noCode : mark ≠ 'u') (known : unescape? mark = some code)
    (rest : List Char) :
    codePoints? ('\\' :: mark :: rest) = (codePoints? rest).map (code :: ·) := by
  rw [codePoints?.eq_def]
  split
  · contradiction
  · simp_all
  · rename_i other later _ same
    obtain ⟨rfl, rfl⟩ := List.cons.inj (List.cons.inj same).2
    rw [known]
    cases codePoints? rest <;> rfl
  · rename_i absent same
    obtain ⟨rfl, rfl⟩ := List.cons.inj same
    exact absurd rfl (absent mark rest rfl)

/-- Control characters have codes of two hexadecimal digits. -/
theorem codePoints?_control {c : Char} (control : c.toNat < 0x20) (rest : List Char) :
    codePoints? ('\\' :: 'u' :: '0' :: '0' :: hexDigit (c.toNat / 16) :: hexDigit (c.toNat % 16) :: rest)
      = (codePoints? rest).map (c.toNat :: ·) := by
  have zero : hexValue? '0' = some 0 := by decide
  have high := hexValue?_hexDigit (c.toNat / 16) (by omega)
  have low := hexValue?_hexDigit (c.toNat % 16) (by omega)
  have joined : ((0 * 16 + 0) * 16 + c.toNat / 16) * 16 + c.toNat % 16 = c.toNat := by omega
  rw [codePoints?, zero, high, low]
  simp only [Option.bind_eq_bind, Option.bind_some, joined]
  cases codePoints? rest <;> rfl

theorem escape_cases (c : Char) :
    (∃ mark, escape c = ['\\', mark] ∧ mark ≠ 'u' ∧ unescape? mark = some c.toNat) ∨
    (c.toNat < 0x20 ∧
      escape c = ['\\', 'u', '0', '0', hexDigit (c.toNat / 16), hexDigit (c.toNat % 16)]) ∨
    (escape c = [c] ∧ c ≠ '"' ∧ c ≠ '\\' ∧ ¬c.toNat < 0x20) := by
  by_cases short : c = '"' ∨ c = '\\' ∨ c = '\x08' ∨ c = '\x0c' ∨ c = '\n' ∨ c = '\r' ∨ c = '\t'
  · left
    rcases short with rfl | rfl | rfl | rfl | rfl | rfl | rfl
    all_goals exact ⟨_, rfl, by decide, rfl⟩
  · right
    simp only [not_or] at short
    by_cases control : c.toNat < 0x20
    · left
      exact ⟨control, by simp only [escape, short, control, ↓reduceIte]⟩
    · right
      exact ⟨by simp only [escape, short, control, ↓reduceIte], short.1, short.2.1, control⟩

theorem codePoints?_escape (c : Char) (rest : List Char) :
    codePoints? (escape c ++ rest) = (codePoints? rest).map (c.toNat :: ·) := by
  rcases escape_cases c with ⟨mark, written, noCode, known⟩ | ⟨control, written⟩ |
    ⟨written, noQuote, noBackslash, noControl⟩
  · rw [written]
    exact codePoints?_short noCode known rest
  · rw [written]
    exact codePoints?_control control rest
  · rw [written]
    exact codePoints?_plain noBackslash noControl rest

theorem codePoints?_escaped (text : List Char) :
    codePoints? (escaped text) = some (text.map Char.toNat) := by
  induction text with
  | nil => rfl
  | cons c rest ih =>
    rw [escaped, List.flatMap_cons, codePoints?_escape]
    rw [escaped] at ih
    rw [ih]
    rfl

theorem joinSurrogates_chars (text : List Char) :
    joinSurrogates (text.map Char.toNat) = text.map Char.toNat := by
  induction text with
  | nil => rfl
  | cons c rest ih =>
    cases rest with
    | nil => rfl
    | cons d later =>
      have valid : c.toNat.isValidChar := c.valid
      have noHalf : ¬(0xD800 ≤ c.toNat ∧ c.toNat ≤ 0xDBFF) := by
        unfold Nat.isValidChar at valid
        omega
      have : (decide (0xD800 ≤ c.toNat) && decide (c.toNat ≤ 0xDBFF) &&
          decide (0xDC00 ≤ d.toNat) && decide (d.toNat ≤ 0xDFFF)) = false := by
        grind
      simp only [List.map_cons] at ih ⊢
      rw [joinSurrogates, this]
      simp only [Bool.false_eq_true, ↓reduceIte, ih]

theorem text?_chars (text : List Char) : text? (text.map Char.toNat) = some (String.ofList text) := by
  have chars : (text.map Char.toNat).mapM (fun point =>
      if point.isValidChar then some (Char.ofNat point) else none) = some text := by
    induction text with
    | nil => rfl
    | cons c rest ih =>
      have valid : c.toNat.isValidChar := c.valid
      rw [List.map_cons, List.mapM_cons, if_pos valid, ih, Char.ofNat_toNat]
      rfl
  rw [text?, joinSurrogates_chars, chars]
  rfl

theorem text?_codePoints?_escaped (text : String) :
    (codePoints? (escaped text.toList)).map text? = some (some text) := by
  rw [codePoints?_escaped, Option.map_some, text?_chars, String.ofList_toList]

/-- Control characters are always escaped, so a written string never breaks the line that it stands in. -/
theorem printable_escape {c d : Char} (member : d ∈ escape c) : ¬d.toNat < 0x20 := by
  have digit : ∀ value < 16, ¬(hexDigit value).toNat < 0x20 := by decide
  have loud (mark : Char) (known : unescape? mark = some c.toNat) : ¬mark.toNat < 0x20 := by
    unfold unescape? at known
    split at known
    case h_9 => cases known
    all_goals decide
  rcases escape_cases c with ⟨mark, written, -, known⟩ | ⟨control, written⟩ | ⟨written, -, -, noControl⟩
  · rw [written] at member
    simp only [List.mem_cons, List.not_mem_nil, or_false] at member
    rcases member with rfl | rfl
    · decide
    · exact loud d known
  · have high := digit (c.toNat / 16) (by omega)
    have low := digit (c.toNat % 16) (by omega)
    rw [written] at member
    simp only [List.mem_cons, List.not_mem_nil, or_false] at member
    rcases member with rfl | rfl | rfl | rfl | rfl | rfl
    · decide
    · decide
    · decide
    · decide
    · exact high
    · exact low
  · rw [written, List.mem_singleton] at member
    exact member ▸ noControl

theorem escaped_injective {text other : String} (same : escaped text.toList = escaped other.toList) :
    text = other := by
  have read := text?_codePoints?_escaped text
  rw [same, text?_codePoints?_escaped] at read
  simpa using read.symm

theorem quote_injective {text other : String} (same : quote text = quote other) : text = other := by
  obtain ⟨_, same⟩ := List.cons.inj (String.ofList_injective same)
  exact escaped_injective (List.append_cancel_right same)

theorem printable_quoteChars {text : List Char} {c : Char} (member : c ∈ quoteChars text) :
    ¬c.toNat < 0x20 := by
  simp only [quoteChars, escaped, List.cons_append, List.mem_cons, List.mem_append, List.mem_flatMap,
    List.not_mem_nil, or_false] at member
  rcases member with rfl | ⟨d, -, within⟩ | rfl
  · decide
  · exact printable_escape within
  · decide

end Parley.Json
