import Parley.Player.SavedGame
import Parley.Proofs.Files.Disk
import Parley.Proofs.Json.Compact

namespace Parley

theorem orderNames_of_pairwise {names : List String} (ordered : names.Pairwise (· < ·)) :
    orderNames names = names := by
  induction names with
  | nil => rfl
  | cons name rest ih =>
    obtain ⟨least, later⟩ := List.pairwise_cons.mp ordered
    rw [orderNames, ih later]
    cases rest with
    | nil => rfl
    | cons second more => rw [enterName, if_pos (least second List.mem_cons_self)]

/-- Options are known by their names and their flag. -/
theorem Options.ofNames_self (options : Options) :
    Options.ofNames options.hostCommands options.strict = options := by
  have names := orderNames_of_pairwise options.ordered
  cases options
  simp_all [Options.ofNames]

namespace SavedGame

open Json

def entries (game : SavedGame) : List (String × Value) :=
  [("schemaVersion", .text (some schema)), ("sourcePath", .text (some game.source)),
    ("hostCommands", .list (game.hostCommands.map fun name => .text (some name))),
    ("strictReferences", .bool game.strict), ("activeHeader", .text (some game.active))]

/-- The value that a saved game is written as, and read as. -/
def value (game : SavedGame) : Value := .fields (game.entries.map fun entry => (some entry.1, entry.2))

theorem value_writable (game : SavedGame) : game.value.Writable := by
  refine .fields fun entry member => ?_
  simp only [entries, List.mem_cons, List.not_mem_nil, or_false] at member
  rcases member with rfl | rfl | rfl | rfl | rfl
  · exact .text schema
  · exact .text game.source
  · refine .list fun item present => ?_
    obtain ⟨name, _, rfl⟩ := List.mem_map.mp present
    exact .text name
  · exact .bool game.strict
  · exact .text game.active

/-- A saved game is written as compact JSON. -/
theorem toList_render (game : SavedGame) : game.render.toList = game.value.compact := by
  have names : (",".intercalate (game.hostCommands.map Json.quote)).toList
      = [','].intercalate ((game.hostCommands.map fun name => Value.text (some name)).map Value.compact) := by
    simp [String.toList_intercalate, Json.quote, Function.comp_def, Value.compact_text]
  have schemaVersion : "\x7b\"schemaVersion\":".toList = '{' :: quoteChars "schemaVersion".toList ++ [':'] := by
    decide
  have sourcePath : ",\"sourcePath\":".toList = ',' :: quoteChars "sourcePath".toList ++ [':'] := by decide
  have hostCommands : ",\"hostCommands\":[".toList = ',' :: quoteChars "hostCommands".toList ++ [':', '['] := by
    decide
  have strictReferences : "],\"strictReferences\":".toList
      = ']' :: ',' :: quoteChars "strictReferences".toList ++ [':'] := by decide
  have activeHeader : ",\"activeHeader\":".toList = ',' :: quoteChars "activeHeader".toList ++ [':'] := by decide
  have last : "\x7d".toList = ['}'] := by decide
  have written (text : String) : (Json.quote text).toList = quoteChars text.toList := String.toList_ofList
  rw [value, Value.compact_fields]
  simp only [entries, render, String.join, List.foldl_cons, List.foldl_nil, String.toList_append, names,
    schemaVersion, sourcePath, hostCommands, strictReferences, activeHeader, last, written,
    List.map_cons, List.map_nil, List.intercalate_cons_cons, List.intercalate_singleton,
    Value.compact_list, Value.compact_text, Value.compact_bool, List.append_assoc, List.cons_append,
    List.nil_append, String.toList_empty]

theorem texts?_list (names : List String) :
    texts? (.list (names.map fun name => Value.text (some name))) = some names := by
  rw [texts?]
  induction names with
  | nil => rfl
  | cons name rest ih => simp [ih, text?]

theorem ofValue?_value (game : SavedGame) : ofValue? game.value = some (schema, game) := by
  simp [ofValue?, value, entries, entry?, text?, flag?, texts?_list]

theorem ofText_render (game : SavedGame) : ofText game.render = .ok game := by
  rw [ofText, toList_render, game.value_writable.parse?_compact, Option.bind_some, ofValue?_value]
  exact if_pos rfl

theorem fromUTF8?_toUTF8 (text : String) : String.fromUTF8? text.toUTF8 = some text := by
  simp only [String.fromUTF8?, String.toUTF8_eq_toByteArray, dif_pos text.isValidUTF8]
  rfl

/-- A saved game is what can be read where it was saved. -/
theorem load_ok_iff {disk : Disk} {path : String} {game : SavedGame} :
    load disk path = .ok game ↔ ∃ text, disk.read path = .ok text ∧ ofText text = .ok game := by
  constructor
  · intro loaded
    rw [load] at loaded
    split at loaded
    · split at loaded
      · rename_i text read
        exact ⟨text, read, loaded⟩
      · cases loaded
    · cases loaded
  · rintro ⟨text, read, told⟩
    rw [load, if_pos (Disk.exists?_of_read read), read]
    exact told

theorem save_ok_iff (game : SavedGame) (disk : Disk) (path : String) :
    (game.save disk path).2 = .ok () ↔ (disk.save path game.render.toUTF8).2 = .ok () := by
  have kept : (game.save disk path).2 = (disk.save path game.render.toUTF8).2.mapError
      fun fault => ⟨.command (.saveUnwritable fault), none⟩ := rfl
  rw [kept]
  cases (disk.save path game.render.toUTF8).2 with
  | error fault => exact ⟨nofun, nofun⟩
  | ok => exact ⟨fun _ => rfl, fun _ => rfl⟩

theorem read_save {game : SavedGame} {disk : Disk} {path : String} (saved : (game.save disk path).2 = .ok ()) :
    (game.save disk path).1.read path = .ok game.render := by
  rcases disk.save_cases path game.render.toUTF8 with ⟨after, stored, -, found⟩ | ⟨after, fault, stopped, -⟩
  · rw [save, stored]
    exact Disk.read_ok_iff.mpr ⟨_, found, fromUTF8?_toUTF8 game.render⟩
  · rw [save_ok_iff, stopped] at saved
    cases saved

/-- A game that was saved is loaded again; one that could not be saved leaves every file as it was. -/
theorem save_cases (game : SavedGame) (disk : Disk) (path : String) :
    (∃ after, game.save disk path = (after, .ok ()) ∧
      disk.Keeps after (disk.destination path) ∧ load after path = .ok game) ∨
    (∃ after fault, game.save disk path = (after, .error ⟨.command (.saveUnwritable fault), none⟩) ∧
      disk.Keeps after none) := by
  rcases disk.save_cases path game.render.toUTF8 with ⟨after, stored, kept, _⟩ |
    ⟨after, fault, stopped, kept⟩
  · have saved : game.save disk path = (after, .ok ()) := by
      rw [save, stored]
      rfl
    have read : after.read path = .ok game.render := by
      have found := read_save (show (game.save disk path).2 = .ok () by rw [saved])
      rwa [saved] at found
    exact .inl ⟨after, saved, kept, load_ok_iff.mpr ⟨_, read, ofText_render game⟩⟩
  · refine .inr ⟨after, fault, ?_, kept⟩
    rw [save, stopped]
    rfl

end SavedGame

end Parley
