import Parley.Player.LineMode
import Parley.Proofs.Player.SavedGame

namespace Parley.Typed

/-- The lines of a text, without their line feeds. What follows the last line feed is a line if it is
anything at all. -/
def lines : List Char → List (List Char)
  | [] => []
  | c :: rest =>
    if c = '\n' then [] :: lines rest
    else
      match lines rest with
      | [] => [[c]]
      | first :: more => (c :: first) :: more

theorem toList_loop (bytes : ByteArray) (start : Nat) (read : List UInt8) :
    ByteArray.toList.loop bytes start read = read.reverse ++ bytes.data.toList.drop start := by
  fun_induction ByteArray.toList.loop bytes start read with
  | case1 start read within ih =>
    have inside : start < bytes.data.toList.length := by simpa using within
    rw [ih, List.drop_eq_getElem_cons inside]
    simp [ByteArray.get!, within]
  | case2 start read outside =>
    rw [List.drop_eq_nil_of_le (by simpa using Nat.le_of_not_lt outside), List.append_nil]

theorem toList_toByteArray (bytes : List UInt8) : bytes.toByteArray.toList = bytes := by
  rw [ByteArray.toList, toList_loop, List.toList_data_toByteArray]
  rfl

/-- Bytes without a line feed stay together, and with what follows them up to the next one. -/
theorem chunks_append {bytes : List UInt8} (unbroken : ∀ byte ∈ bytes, byte ≠ 10) (filled : bytes ≠ [])
    (rest : List UInt8) :
    chunks (bytes ++ rest) =
      match chunks rest with
      | [] => [bytes]
      | chunk :: more => (bytes ++ chunk) :: more := by
  induction bytes with
  | nil => exact absurd rfl filled
  | cons byte bytes ih =>
    obtain ⟨other, unbroken⟩ := List.forall_mem_cons.mp unbroken
    rw [List.cons_append, chunks, if_neg other]
    cases bytes with
    | nil => rfl
    | cons next bytes =>
      rw [ih unbroken (List.cons_ne_nil _ _)]
      cases chunks rest with
      | nil => rfl
      | cons chunk more => rfl

theorem utf8EncodeChar_unbroken {c : Char} (other : c ≠ '\n') :
    ∀ byte ∈ String.utf8EncodeChar c, byte ≠ 10 := by
  have code : c.val.toNat ≠ 10 := fun same => other (Char.ext (UInt32.toNat_inj.mp same))
  have apart (number : Nat) (away : number % 256 ≠ 10) : UInt8.ofNat number ≠ 10 := by
    intro same
    have numbers := congrArg UInt8.toNat same
    rw [UInt8.toNat_ofNat'] at numbers
    exact away numbers
  intro byte member
  unfold String.utf8EncodeChar at member
  dsimp only at member
  split at member
  · rw [List.mem_singleton.mp member]
    exact apart _ (by omega)
  split at member
  · simp only [List.mem_cons, List.not_mem_nil, or_false] at member
    rcases member with rfl | rfl <;> exact apart _ (by omega)
  split at member
  · simp only [List.mem_cons, List.not_mem_nil, or_false] at member
    rcases member with rfl | rfl | rfl <;> exact apart _ (by omega)
  · simp only [List.mem_cons, List.not_mem_nil, or_false] at member
    rcases member with rfl | rfl | rfl | rfl <;> exact apart _ (by omega)

/-- A text is cut at its line feeds, before it is written in bytes or after. -/
theorem chunks_encode (text : List Char) :
    chunks (text.flatMap String.utf8EncodeChar)
      = (lines text).map fun line => line.flatMap String.utf8EncodeChar := by
  induction text with
  | nil => rfl
  | cons c rest ih =>
    rw [List.flatMap_cons, lines]
    by_cases feed : c = '\n'
    · rw [feed, if_pos rfl, List.map_cons, ← ih]
      rfl
    · rw [if_neg feed, chunks_append (utf8EncodeChar_unbroken feed) String.utf8EncodeChar_ne_nil, ih]
      cases lines rest with
      | nil => simp
      | cons first more => rfl

theorem ofChunk_encode (line : List Char) :
    ofChunk (line.flatMap String.utf8EncodeChar) = .line (String.ofList line) := by
  have written : (⟨(line.flatMap String.utf8EncodeChar).toArray⟩ : ByteArray)
      = (String.ofList line).toUTF8 := by
    rw [String.toUTF8_eq_toByteArray, String.toByteArray_ofList, List.utf8Encode]
    exact ByteArray.ext (List.data_toByteArray).symm
  rw [ofChunk, written, SavedGame.fromUTF8?_toUTF8]

theorem ofBytes_toUTF8 (text : String) :
    ofBytes text.toUTF8 = ((lines text.toList).map String.ofList).map .line := by
  have written : text.toUTF8.toList = text.toList.flatMap String.utf8EncodeChar := by
    rw [← toList_toByteArray (text.toList.flatMap String.utf8EncodeChar)]
    exact congrArg ByteArray.toList String.utf8Encode_toList.symm
  rw [ofBytes, written, chunks_encode, List.map_map, List.map_map]
  exact List.map_congr_left fun line _ => ofChunk_encode line

end Parley.Typed
