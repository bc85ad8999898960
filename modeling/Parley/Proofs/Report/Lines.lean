import Parley.Proofs.Json.Text
import Parley.Proofs.Page.WellFormed
import Parley.Proofs.Play.Session
import Parley.Proofs.Play.Turn
import Parley.Proofs.Writing.RoundTrip
import Parley.Report.Lines
import Parley.Text.Split

/-! Reports read back. A record breaks no line but for the path at the end of a report, and each record tells
what it was written for, so a report of a moment tells the whole moment. -/

namespace Parley

/-- A name says which command it is, whatever the options that it was found with. -/
theorem Options.command?_unique {options others : Options} {name : String} {command other : Command}
    (found : options.command? name = some command) (also : others.command? name = some other) :
    command = other := by
  unfold command? at found also
  cases builtin : Command.builtin? name with
  | some known =>
    rw [builtin] at found also
    exact Option.some.inj (found.symm.trans also)
  | none =>
    rw [builtin] at found also
    dsimp only at found also
    split at found
    · split at also
      · exact Option.some.inj (found.symm.trans also)
      · cases also
    · cases found

namespace Report

/-- A record that is one line, and that nobody takes for the last one of a report: only that one begins with
this letter. -/
structure IsLine (record : String) : Prop where
  unbroken : ∀ c ∈ record.toList, c ≠ '\n' ∧ c ≠ '\r'
  inner : record.toList.head? ≠ some 'S'

namespace IsLine

instance (record : String) : Decidable (IsLine record) :=
  decidable_of_iff
    (record.toList.all (fun c => c ≠ '\n' ∧ c ≠ '\r') = true ∧ record.toList.head? ≠ some 'S')
    ⟨fun line => ⟨by simpa using line.1, line.2⟩, fun line => ⟨by simpa using line.unbroken, line.inner⟩⟩

theorem append {front back : String} (line : IsLine front) (written : front ≠ "")
    (unbroken : ∀ c ∈ back.toList, c ≠ '\n' ∧ c ≠ '\r') : IsLine (front ++ back) := by
  constructor
  · intro c member
    rw [String.toList_append, List.mem_append] at member
    rcases member with within | behind
    · exact line.unbroken c within
    · exact unbroken c behind
  · rw [String.toList_append, List.head?_append_of_ne_nil _ (mt String.toList_eq_nil_iff.mp written)]
    exact line.inner

theorem ne_last {record last : String} {rest more : List Char} (line : IsLine record)
    (ends : last.toList.head? = some 'S') : last.toList ++ '\n' :: more ≠ record.toList ++ '\n' :: rest := by
  intro same
  have heads := congrArg List.head? same
  rw [List.head?_append, List.head?_append, ends, Option.some_or, List.head?_cons] at heads
  cases first : record.toList.head? with
  | none =>
    rw [first] at heads
    cases heads
  | some c =>
    rw [first] at heads
    exact line.inner (first.trans heads.symm)

/-- Lines cut a text in one way. -/
theorem eq_of_append {record other : String} {rest more : List Char} (line : IsLine record)
    (also : IsLine other) (same : record.toList ++ '\n' :: rest = other.toList ++ '\n' :: more) :
    record = other ∧ rest = more := by
  have free {record : String} (line : IsLine record) : ∀ c ∈ record.toList, (c != '\n') = true := by
    intro c member
    exact bne_iff_ne.mpr (line.unbroken c member).1
  obtain ⟨spelled, -, behind⟩ := cut_unique (free line) (free also) rfl rfl same
  exact ⟨String.toList_injective spelled, behind⟩

end IsLine

theorem toList_ofLines_cons (line : String) (rest : List String) :
    (ofLines (line :: rest)).toList = line.toList ++ '\n' :: (ofLines rest).toList := by
  simp [ofLines, String.join_cons]

/-- Whatever the last record holds, it begins where the lines before it end. -/
theorem ofLines_concat_injective {records others : List String} {last final : String}
    (lines : ∀ record ∈ records, IsLine record) (also : ∀ record ∈ others, IsLine record)
    (ends : last.toList.head? = some 'S') (stops : final.toList.head? = some 'S')
    (same : (ofLines (records ++ [last])).toList = (ofLines (others ++ [final])).toList) :
    records = others ∧ last = final := by
  induction records generalizing others with
  | nil =>
    cases others with
    | nil =>
      rw [List.nil_append, List.nil_append, toList_ofLines_cons, toList_ofLines_cons] at same
      exact ⟨rfl, String.toList_injective (List.append_cancel_right same)⟩
    | cons record rest =>
      rw [List.nil_append, List.cons_append, toList_ofLines_cons, toList_ofLines_cons] at same
      exact absurd same ((also record List.mem_cons_self).ne_last ends)
  | cons record rest ih =>
    obtain ⟨line, later⟩ := List.forall_mem_cons.mp lines
    cases others with
    | nil =>
      rw [List.nil_append, List.cons_append, toList_ofLines_cons, toList_ofLines_cons] at same
      exact absurd same.symm (line.ne_last stops)
    | cons second more =>
      obtain ⟨other, further⟩ := List.forall_mem_cons.mp also
      rw [List.cons_append, List.cons_append, toList_ofLines_cons, toList_ofLines_cons] at same
      obtain ⟨rfl, behind⟩ := line.eq_of_append other same
      obtain ⟨rfl, rfl⟩ := ih later further behind
      exact ⟨rfl, rfl⟩

/-- The lines of a report are its records, except that the last one may be several. -/
theorem split_ofLines {records : List String} (lines : ∀ record ∈ records, IsLine record) (last : String) :
    Text.split '\n' (ofLines (records ++ [last])).toList
      = records.map String.toList ++ Text.split '\n' last.toList ++ [[]] := by
  induction records with
  | nil =>
    rw [List.nil_append, toList_ofLines_cons, Text.split_append]
    rfl
  | cons record rest ih =>
    obtain ⟨line, later⟩ := List.forall_mem_cons.mp lines
    have whole : '\n' ∉ record.toList := fun member => (line.unbroken _ member).1 rfl
    rw [List.cons_append, toList_ofLines_cons, Text.split_append, Text.split_of_not_mem whole, ih later]
    simp

theorem toList_external (directive : Directive) :
    (external directive).toList = "EXTERNAL:".toList ++
      ((directive.command.name.toList ++ ['|']) ++ '"' :: (Json.escaped directive.argument.toList ++ ['"'])) := by
  have spelled : external directive =
      "EXTERNAL:" ++ directive.command.name ++ "|" ++ Json.quote directive.argument := rfl
  simp [spelled, Json.quote, Json.quoteChars]

theorem external_injective {options others : Options} {directive other : Directive}
    (valid : options.check = .ok ()) (known : directive.command.Known options)
    (sound : others.check = .ok ()) (met : other.command.Known others)
    (same : external directive = external other) : directive = other := by
  obtain ⟨found, -, free⟩ := known.name valid
  obtain ⟨also, -, clear⟩ := met.name sound
  have unquoted {name : String} (free : ∀ c ∈ name.toList, Text.isBlank c = false ∧ isDelimiter c = false) :
      ∀ c ∈ name.toList ++ ['|'], (c != '"') = true := by
    intro c member
    rcases List.mem_append.mp member with within | bar
    · exact bne_iff_ne.mpr (ne_quote_of_free (free c within).2)
    · rw [List.mem_singleton.mp bar]
      rfl
  have spelled := congrArg String.toList same
  rw [toList_external, toList_external] at spelled
  obtain ⟨names, -, arguments⟩ := cut_unique (unquoted free) (unquoted clear) rfl rfl
    (List.append_cancel_left spelled)
  have name : directive.command.name = other.command.name :=
    String.toList_injective (List.append_cancel_right names)
  have argument := Json.escaped_injective (List.append_cancel_right arguments)
  rw [← name] at also
  have command := Options.command?_unique found also
  calc directive
    _ = ⟨directive.command, directive.argument⟩ := rfl
    _ = ⟨other.command, other.argument⟩ := by rw [command, argument]

/-- The choices are told apart place by place, since each line has its own number. -/
theorem choices_injective {choices others : List String}
    (same : (choices.zipIdx.map fun (choice, index) => s!"CHOICE:{index}|{Json.quote choice}")
      = others.zipIdx.map fun (choice, index) => s!"CHOICE:{index}|{Json.quote choice}") :
    choices = others := by
  apply List.ext_getElem?
  intro index
  have line := congrArg (·[index]?) same
  simp only [List.getElem?_map, List.getElem?_zipIdx, Option.map_map, Nat.zero_add] at line
  refine Option.map_injective ?_ line
  intro choice other same
  exact Json.quote_injective ((String.append_right_inj _).mp same)

theorem scene_injective {first second : Scene} (same : scene first = scene second) : first = second := by
  obtain ⟨headers, same⟩ := List.cons.inj same
  obtain ⟨messages, choices⟩ := List.cons.inj same
  have header : first.header = second.header :=
    Json.quote_injective ((String.append_right_inj _).mp headers)
  have message : first.message = second.message :=
    Json.quote_injective ((String.append_right_inj _).mp messages)
  have offered : first.choices = second.choices := choices_injective choices
  calc first
    _ = ⟨first.header, first.message, first.choices⟩ := rfl
    _ = ⟨second.header, second.message, second.choices⟩ := by rw [header, message, offered]

/-- A command that a source can name, under some options that are sound. -/
def Authored (directive : Directive) : Prop :=
  ∃ options : Options, options.check = .ok () ∧ directive.command.Known options

theorem unbroken_quote (text : String) : ∀ c ∈ (Json.quote text).toList, c ≠ '\n' ∧ c ≠ '\r' := by
  intro c member
  have printable := Json.printable_quoteChars (String.toList_ofList ▸ member)
  constructor <;> rintro rfl <;> exact printable (by decide)

theorem unbroken_number (number : Nat) : ∀ c ∈ (toString number).toList, c ≠ '\n' ∧ c ≠ '\r' := by
  intro c member
  have digit : c.isDigit = true :=
    Nat.isDigit_of_mem_toDigits (by decide) (by decide) (Nat.toList_repr ▸ member)
  constructor <;> rintro rfl <;> cases digit

theorem isLine_external {directive : Directive} (authored : Authored directive) :
    IsLine (external directive) := by
  obtain ⟨options, valid, known⟩ := authored
  obtain ⟨-, -, free⟩ := known.name valid
  have tag : IsLine "EXTERNAL:" := by decide
  have spelled : external directive =
      "EXTERNAL:" ++ (directive.command.name ++ ("|" ++ Json.quote directive.argument)) := by
    rw [← String.append_assoc, ← String.append_assoc]
    rfl
  rw [spelled]
  apply tag.append (by decide)
  intro c member
  simp only [String.toList_append, List.mem_append] at member
  rcases member with named | bar | quoted
  · have visible := (free c named).1
    constructor <;> rintro rfl <;> cases visible
  · rw [List.mem_singleton.mp bar]
    decide
  · exact unbroken_quote directive.argument c quoted

theorem isLine_scene (told : Scene) : ∀ record ∈ scene told, IsLine record := by
  have header : IsLine "HEADER_JSON:" := by decide
  have message : IsLine "MESSAGE_JSON:" := by decide
  have choice : IsLine "CHOICE:" := by decide
  intro record member
  simp only [scene, List.mem_append, List.mem_cons, List.not_mem_nil, or_false, List.mem_map] at member
  rcases member with (rfl | rfl) | ⟨⟨text, index⟩, -, rfl⟩
  · exact header.append (by decide) (unbroken_quote told.header)
  · exact message.append (by decide) (unbroken_quote told.message)
  · have numbered : IsLine ("CHOICE:" ++ toString index) :=
      choice.append (by decide) (unbroken_number index)
    have barred : IsLine ("CHOICE:" ++ toString index ++ "|") :=
      numbered.append (by simp) (by simp)
    exact barred.append (by simp) (unbroken_quote text)

/-- The records of a moment but for the last one, which says where the game was saved. -/
def records (told : Moment) : List String :=
  ["RESULT:OK", if told.scene.isSome then "EVENT:BRANCH" else "EVENT:END",
    s!"TITLE_JSON:{Json.quote told.title}"]
    ++ told.external.toList.map external
    ++ (told.scene.map scene).getD []

theorem moment_eq (told : Moment) (savedTo : Option String) :
    moment told savedTo = records told ++ ["STATE_OUT:" ++ savedTo.getD "NONE"] := rfl

theorem isLine_records {told : Moment} (authored : ∀ directive ∈ told.external, Authored directive) :
    ∀ record ∈ records told, IsLine record := by
  have title : IsLine "TITLE_JSON:" := by decide
  intro record member
  simp only [records, List.mem_append, List.mem_cons, List.not_mem_nil, or_false, List.mem_map,
    Option.mem_toList] at member
  rcases member with ((rfl | rfl | rfl) | ⟨directive, left, rfl⟩) | shown
  · decide
  · split
    · decide
    · decide
  · exact title.append (by decide) (unbroken_quote told.title)
  · exact isLine_external (authored directive left)
  · cases scenery : told.scene with
    | none =>
      rw [scenery] at shown
      cases shown
    | some place =>
      rw [scenery] at shown
      exact isLine_scene place record shown

/-- No record of a scene could be one of a directive. -/
theorem external_ne_scene (directive : Directive) (place : Option Scene) (rest : List String) :
    external directive :: rest ≠ (place.map scene).getD [] := by
  intro same
  cases place with
  | none => cases same
  | some told =>
    have line : external directive = "HEADER_JSON:" ++ Json.quote told.header := (List.cons.inj same).1
    have letters := congrArg String.toList line
    rw [toList_external, String.toList_append] at letters
    exact absurd (List.cons.inj letters).1 (by decide)

/-- A directive is told from what follows it, and whether there is one. -/
theorem external_append_injective {left other : Option Directive} {place elsewhere : Option Scene}
    (authored : ∀ directive ∈ left, Authored directive) (also : ∀ directive ∈ other, Authored directive)
    (same : left.toList.map external ++ (place.map scene).getD []
      = other.toList.map external ++ (elsewhere.map scene).getD []) :
    left = other ∧ (place.map scene).getD [] = (elsewhere.map scene).getD [] := by
  cases left with
  | none =>
    cases other with
    | none => exact ⟨rfl, same⟩
    | some directive => exact absurd same.symm (external_ne_scene directive place _)
  | some directive =>
    cases other with
    | none => exact absurd same (external_ne_scene directive elsewhere _)
    | some second =>
      obtain ⟨line, behind⟩ := List.cons.inj same
      obtain ⟨options, valid, known⟩ := authored directive rfl
      obtain ⟨others, sound, met⟩ := also second rfl
      exact ⟨congrArg some (external_injective valid known sound met line), behind⟩

theorem records_injective {first second : Moment}
    (authored : ∀ directive ∈ first.external, Authored directive)
    (also : ∀ directive ∈ second.external, Authored directive) (same : records first = records second) :
    first = second := by
  obtain ⟨-, same⟩ := List.cons.inj same
  obtain ⟨events, same⟩ := List.cons.inj same
  obtain ⟨titles, same⟩ := List.cons.inj same
  have title : first.title = second.title := Json.quote_injective ((String.append_right_inj _).mp titles)
  obtain ⟨left, places⟩ := external_append_injective authored also same
  have place : first.scene = second.scene := by
    cases here : first.scene with
    | none =>
      cases there : second.scene with
      | none => rfl
      | some scene =>
        simp [here, there] at events
    | some scene =>
      cases there : second.scene with
      | none =>
        simp [here, there] at events
      | some other =>
        rw [here, there] at places
        exact congrArg some (scene_injective places)
  calc first
    _ = ⟨first.title, first.external, first.scene⟩ := rfl
    _ = ⟨second.title, second.external, second.scene⟩ := by rw [title, left, place]

end Report

/-- What there is to tell of a dialogue: a session over it is described, with what a choice of such a session
left for the host, if there was one. -/
inductive Moment.Arises : Moment → Prop
  | opened {session : Session} (compiled : compile options source = .ok dialogue)
      (same : session.dialogue = dialogue.moveTo session.dialogue.active)
      (described : session.describe none = .ok moment) : Arises moment
  | chosen {session earlier : Session} (compiled : compile options source = .ok dialogue)
      (same : session.dialogue = dialogue.moveTo session.dialogue.active)
      (before : earlier.dialogue = dialogue.moveTo earlier.dialogue.active)
      (took : earlier.choose index = .ok taken)
      (described : session.describe taken.external = .ok moment) : Arises moment

theorem Session.external_of_describe {session : Session} {external : Option Directive} {moment : Moment}
    (described : session.describe external = .ok moment) : moment.external = external := by
  rcases session.describe_cases external with ⟨-, told⟩ | ⟨-, branch, -, told⟩ | ⟨-, -, failed⟩
  · rw [told] at described
    cases described
    rfl
  · rw [told] at described
    cases described
    rfl
  · rw [failed] at described
    cases described

/-- A compiled dialogue leaves nothing for the host but what its options allow. -/
theorem Moment.Arises.authored {moment : Moment} (arises : moment.Arises) :
    ∀ directive ∈ moment.external, Report.Authored directive := by
  intro directive left
  cases arises with
  | opened compiled same described =>
    rw [Session.external_of_describe described] at left
    cases left
  | chosen compiled same before took described =>
    rw [Session.external_of_describe described] at left
    obtain ⟨chosen, chose, rest⟩ := bind_ok took
    cases rest
    obtain ⟨branch, member, response, offered, listed⟩ := Dialogue.choose_external chose left
    rw [before] at member
    refine ⟨_, ((compile_ok_iff _ _ _).mp compiled).1, ?_⟩
    exact (((wellFormed_of_compile compiled).branches branch member).responses response offered).known
      directive listed

/-- A report of a moment tells the moment and where the game was saved, and nothing that it quotes can pass for
a record: its lines are its records, up to the path at its end. The game is saved where there is a scene to
come back to. -/
theorem moments_read_back {first second : Moment} {here there : Option String} (arises : first.Arises)
    (also : second.Arises) (saved : here.isSome = first.scene.isSome)
    (stored : there.isSome = second.scene.isSome) :
    (Report.ofLines (Report.moment first here) = Report.ofLines (Report.moment second there) ↔
      first = second ∧ here = there) ∧
    ∃ records, Report.moment first here = records ++ ["STATE_OUT:" ++ here.getD "NONE"] ∧
      (∀ record ∈ records, ∀ c ∈ record.toList, c ≠ '\n' ∧ c ≠ '\r') ∧
      Text.split '\n' (Report.ofLines (Report.moment first here)).toList
        = records.map String.toList ++ Text.split '\n' ("STATE_OUT:" ++ here.getD "NONE").toList ++ [[]] := by
  have lines := Report.isLine_records arises.authored
  refine ⟨⟨?_, ?_⟩, Report.records first, rfl, fun record member => (lines record member).unbroken, ?_⟩
  · intro same
    rw [Report.moment_eq, Report.moment_eq] at same
    obtain ⟨records, paths⟩ := Report.ofLines_concat_injective lines (Report.isLine_records also.authored)
      (by simp) (by simp) (congrArg String.toList same)
    obtain rfl := Report.records_injective arises.authored also.authored records
    refine ⟨rfl, ?_⟩
    have path := (String.append_right_inj _).mp paths
    cases here with
    | none =>
      cases there with
      | none => rfl
      | some other => cases saved.trans stored.symm
    | some path =>
      cases there with
      | none => cases saved.trans stored.symm
      | some other => exact congrArg some path
  · rintro ⟨rfl, rfl⟩
    rfl
  · exact Report.split_ofLines lines _

/-- Line feeds wherever a text may have them, with what would be records behind them. -/
def forgeSource : String :=
  "[Forge\nCHOICE:9|]\x7b\"fire\"\"Hot.\nSTATE_OUT:NONE\"\"Work\nEVENT:END\"(tell|me x\ny; goto fire;)\x7d"

def forgeBranches : List Branch :=
  [⟨"fire", "Hot.\nSTATE_OUT:NONE", [⟨"Work\nEVENT:END", [⟨.host "tell|me", "x\ny"⟩, ⟨.goto, "fire"⟩]⟩]⟩]

def forge : Dialogue := ⟨"Forge\nCHOICE:9|", forgeBranches, "fire", indexFrom 0 forgeBranches, rfl⟩

def forgeScene : Scene := ⟨"fire", "Hot.\nSTATE_OUT:NONE", ["Work\nEVENT:END"]⟩

theorem moments_read_back_at_forge :
    let first : Moment := ⟨forge.title, some ⟨.host "tell|me", "x\ny"⟩, some forgeScene⟩
    let second : Moment := ⟨forge.title, none, some forgeScene⟩
    first.Arises ∧ second.Arises ∧
    (Report.ofLines (Report.moment first (some "a\nb")) = Report.ofLines (Report.moment second (some "NONE")) ↔
      first = second ∧ some "a\nb" = some "NONE") ∧
    ∃ records, Report.moment first (some "a\nb") = records ++ ["STATE_OUT:a\nb"] ∧
      (∀ record ∈ records, ∀ c ∈ record.toList, c ≠ '\n' ∧ c ≠ '\r') ∧
      Text.split '\n' (Report.ofLines (Report.moment first (some "a\nb"))).toList
        = records.map String.toList ++ Text.split '\n' "STATE_OUT:a\nb".toList ++ [[]] := by
  intro first second
  have compiled : compile (.ofNames ["tell|me"] true) forgeSource = .ok forge := by rfl
  have took : (Session.start forge).choose 0 = .ok ⟨⟨forge, 1⟩, first.external, []⟩ := by rfl
  have told : Session.describe ⟨forge, 1⟩ first.external = .ok first := by rfl
  have begun : (Session.start forge).describe none = .ok second := by rfl
  have arises : first.Arises := .chosen compiled rfl rfl took told
  have also : second.Arises := .opened compiled rfl begun
  exact ⟨arises, also, moments_read_back arises also rfl rfl⟩

end Parley
