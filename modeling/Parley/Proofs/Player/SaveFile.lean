import Parley.Proofs.Player.SavedGame

namespace Parley

/-- What is saved is compact JSON on one line, and the same game is read from it again: from the text,
and from the file that a save leaves. A save succeeds wherever a file can be written. -/
theorem saved_game_kept (game : SavedGame) (disk : Disk) (path : String) :
    game.render.toList = game.value.compact ∧
    (∀ c ∈ game.render.toList, ¬c.toNat < 0x20) ∧
    SavedGame.ofText game.render = .ok game ∧
    (∀ content, (disk.save path content).2 = .ok () → (game.save disk path).2 = .ok ()) ∧
    ((game.save disk path).2 = .ok () →
      (game.save disk path).1.read path = .ok game.render ∧
      SavedGame.load (game.save disk path).1 path = .ok game) := by
  refine ⟨game.toList_render, ?_, game.ofText_render, ?_, ?_⟩
  · rw [game.toList_render]
    exact fun c member => game.value_writable.printable member
  · intro content saved
    exact (game.save_ok_iff disk path).mpr (Disk.save_ok_other saved game.render.toUTF8)
  · intro saved
    have read := SavedGame.read_save saved
    exact ⟨read, SavedGame.load_ok_iff.mpr ⟨game.render, read, game.ofText_render⟩⟩

/-- A game whose texts hold what JSON has to escape and what lies beyond the first plane. -/
def crypt : SavedGame :=
  ⟨"C:\\crypt \"1\".qdl", ["give", "", "l'épée\t\n", "give"], true, "crypt\x00\x1f\x7f🗝"⟩

theorem saved_game_kept_crypt :
    let disk : Disk := ⟨.empty, some []⟩
    (crypt.save disk "saves/crypt.json").2 = .ok () ∧
    (crypt.save disk "saves/crypt.json").1.read "saves/crypt.json" = .ok crypt.render ∧
    SavedGame.load (crypt.save disk "saves/crypt.json").1 "saves/crypt.json" = .ok crypt := by
  intro disk
  obtain ⟨_, _, _, saves, kept⟩ := saved_game_kept crypt disk "saves/crypt.json"
  have free : (disk.save "saves/crypt.json" ByteArray.empty).2.isOk = true := by decide +kernel
  have saved : (crypt.save disk "saves/crypt.json").2 = .ok () := by
    refine saves ByteArray.empty ?_
    cases result : (disk.save "saves/crypt.json" ByteArray.empty).2 with
    | ok => rfl
    | error fault =>
      rw [result] at free
      cases free
  exact ⟨saved, kept saved⟩

end Parley
