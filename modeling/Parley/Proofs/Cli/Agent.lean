import Parley.Cli.Run
import Parley.Proofs.Files.Room
import Parley.Proofs.Play.Session
import Parley.Proofs.Player.SavedGame
import Parley.Proofs.Player.Script

/-! Play step by step, where each step is a program of its own that takes up what the last one saved, is
play of one session in memory. -/

namespace Parley.Cli

/-- A choice asked of the agent, and where it is to save the game after it. -/
structure Request where
  choice : Nat
  saveTo : String

/-- The agent, asked for an invocation that saves to `saveTo` and then for requests, each taken up from
where the last one saved, answers as a session in memory does. What that session makes of the choice that
the invocation stands for is `answer`. The run is over with the first failure and with the end of the
dialogue. Both leave the disk as it is, except that a save which is refused may have created folders. -/
inductive Follows (console : Console) :
    Disk → Invocation → String → Except Failure Taken → List Request → Prop
  | refused {failure : Failure} (code : failure.code = "QDL_RUNTIME_OBJECT_INDEX")
      (shown : invocation.run disk console = .failure disk failure) :
      Follows console disk invocation saveTo (.error failure) requests
  | lost {failure : Failure} (going : taken.session.isFinished = false)
      (absent : taken.session.dialogue.branch? taken.session.dialogue.active = none)
      (described : taken.session.describe taken.external = .error failure)
      (code : failure.code = "QDL_RUNTIME_BRANCH_NOT_FOUND")
      (shown : invocation.run disk console =
        { Outcome.failure disk failure with warnings := taken.overwrites.map Overwrite.warning }) :
      Follows console disk invocation saveTo (.ok taken) requests
  | ended {moment : Moment} (finished : taken.session.isFinished = true)
      (described : taken.session.describe taken.external = .ok moment)
      (shown : invocation.run disk console
        = .success disk (Report.moment moment none) taken.overwrites) :
      Follows console disk invocation saveTo (.ok taken) requests
  | unsaved {moment : Moment} {game : SavedGame} {after : Disk} {failure : Failure}
      (going : taken.session.isFinished = false)
      (described : taken.session.describe taken.external = .ok moment)
      (stopped : game.save disk saveTo = (after, .error failure))
      (kept : disk.Keeps after none)
      (code : failure.code = "CLI_STATE_WRITE")
      (shown : invocation.run disk console =
        { Outcome.failure after failure with warnings := taken.overwrites.map Overwrite.warning }) :
      Follows console disk invocation saveTo (.ok taken) requests
  | went {moment : Moment} {game : SavedGame} {after : Disk} (going : taken.session.isFinished = false)
      (described : taken.session.describe taken.external = .ok moment)
      (kept : disk.Keeps after (disk.destination saveTo))
      (shown : invocation.run disk console
        = .success after (Report.moment moment (some saveTo)) taken.overwrites)
      (saved : SavedGame.load after saveTo = .ok game ∧ game.active = taken.session.dialogue.active)
      (later : ∀ request rest, requests = request :: rest →
        Follows console after (.choose saveTo request.choice request.saveTo) request.saveTo
          (taken.session.choose request.choice) rest) :
      Follows console disk invocation saveTo (.ok taken) requests

def respond (disk : Disk) (setup : Setup) : Except Failure Taken → Outcome
  | .error failure => .failure disk failure
  | .ok taken => emit disk setup taken.session taken.external taken.overwrites

/-- What a session over `base` can answer to a choice: that there is no such choice, or a move. -/
inductive Answers (base : Dialogue) : Except Failure Taken → Prop
  | refused {failure : Failure} (code : failure.code = "QDL_RUNTIME_OBJECT_INDEX") :
      Answers base (.error failure)
  | moved (led : taken.session.dialogue = base.moveTo taken.session.dialogue.active) :
      Answers base (.ok taken)

/-- What a disk knows of a session whose game was saved at a branch. -/
structure Resumable (disk : Disk) (saveFrom : String) (script : Script) (options : Options)
    (session : Session) : Prop where
  saved : SavedGame.load disk saveFrom
    = .ok ⟨script.path, options.hostCommands, options.strict, session.dialogue.active⟩
  present : Script.load disk script.path = .ok script
  resumed : ∃ turns,
    Session.resume options script.text session.dialogue.active = .ok ⟨session.dialogue, turns⟩

/-- A choice taken up from a saved game is the choice of the session that was saved. -/
theorem run_choose (resumable : Resumable disk saveFrom script options session) (console : Console)
    (choice : Nat) (saveTo : String) :
    (Invocation.choose saveFrom choice saveTo).run disk console
      = respond disk ⟨script, options, saveTo⟩ (session.choose choice) := by
  obtain ⟨saved, present, turns, resumed⟩ := resumable
  have same : SavedGame.options
      ⟨script.path, options.hostCommands, options.strict, session.dialogue.active⟩ = options :=
    options.ofNames_self
  have taken : chooseOnce disk saveFrom choice saveTo = do
      let taken ← Session.choose ⟨session.dialogue, turns⟩ choice
      return emit disk ⟨script, options, saveTo⟩ taken.session taken.external taken.overwrites := by
    rw [chooseOnce, saved]
    simp only [ok_bind, present, same, resumed]
  rw [Invocation.run, taken, Session.choose, Session.choose]
  cases session.dialogue.choose choice <;> rfl

section

variable {options : Options} {script : Script} {base : Session}

theorem resume_of_opened {session : Session} {branch : Branch}
    (opened : Session.ofSource options script.text = .ok base)
    (led : session.dialogue = base.dialogue.moveTo session.dialogue.active)
    (found : session.dialogue.branch? session.dialogue.active = some branch) :
    ∃ turns,
      Session.resume options script.text session.dialogue.active = .ok ⟨session.dialogue, turns⟩ := by
  have known : base.dialogue.branch? session.dialogue.active = some branch := by
    rw [led] at found
    exact found
  refine ⟨base.turns, ?_⟩
  rw [Session.resume, opened]
  simp [Session.restore, known, ← led]

theorem answers_choose {session : Session} {branch : Branch}
    (led : session.dialogue = base.dialogue.moveTo session.dialogue.active)
    (going : session.isFinished = false)
    (found : session.dialogue.branch? session.dialogue.active = some branch) (choice : Nat) :
    Answers base.dialogue (session.choose choice) := by
  rcases Session.choose_cases going found choice with ⟨-, refused⟩ | ⟨-, taken, chosen, moved⟩
  · rw [refused]
    exact .refused rfl
  · rw [chosen]
    apply Answers.moved
    rw [moved, led]
    rfl

/-- One step of the simulation: the agent shows what the session answers and, if it saved the game, leaves
a disk from which the session can be taken up. -/
theorem follows_of_shown (opened : Session.ofSource options script.text = .ok base)
    (present : Script.load disk script.path = .ok script)
    (apart : disk.destination saveTo ≠ disk.destination script.path)
    (answers : Answers base.dialogue answer)
    (shown : invocation.run disk console = respond disk ⟨script, options, saveTo⟩ answer)
    (later : ∀ (taken : Taken) (after : Disk) request rest, requests = request :: rest →
      disk.Keeps after (disk.destination saveTo) →
      Resumable after saveTo script options taken.session →
      Answers base.dialogue (taken.session.choose request.choice) →
      Follows console after (.choose saveTo request.choice request.saveTo) request.saveTo
        (taken.session.choose request.choice) rest) :
    Follows console disk invocation saveTo answer requests := by
  cases answers with
  | refused code => exact .refused code shown
  | @moved taken led =>
    rw [respond, emit] at shown
    rcases taken.session.describe_cases taken.external with ⟨finished, described⟩ |
      ⟨going, branch, found, described⟩ | ⟨going, absent, described⟩
    · rw [described] at shown
      exact .ended finished described shown
    · rw [described] at shown
      rcases (Setup.saved ⟨script, options, saveTo⟩ taken.session).save_cases disk saveTo with
        ⟨after, saved, kept, reloaded⟩ | ⟨after, fault, stopped, kept⟩
      · simp only [saved, Option.isSome_some, ↓reduceIte] at shown
        refine .went going described kept shown ⟨reloaded, rfl⟩ ?_
        intro request rest more
        apply later taken after request rest more kept
        · exact ⟨reloaded, Script.load_kept present kept apart, resume_of_opened opened led found⟩
        · exact answers_choose led going found request.choice
      · simp only [stopped, Option.isSome_some, ↓reduceIte] at shown
        exact .unsaved going described stopped kept rfl shown
    · rw [described] at shown
      exact .lost going absent described rfl shown

theorem Follows.saved {taken : Taken} {branch : Branch} {requests : List Request}
    (follows : Follows console disk invocation saveTo (.ok taken) requests)
    (going : taken.session.isFinished = false)
    (present : taken.session.dialogue.branch? taken.session.dialogue.active = some branch)
    (room : ∀ content, (disk.save saveTo content).2 = .ok ()) :
    ∃ moment after game, taken.session.describe taken.external = .ok moment ∧
      invocation.run disk console = .success after (Report.moment moment (some saveTo)) taken.overwrites ∧
      (SavedGame.load after saveTo = .ok game ∧ game.active = taken.session.dialogue.active) ∧
      ∀ request rest, requests = request :: rest →
        Follows console after (.choose saveTo request.choice request.saveTo) request.saveTo
          (taken.session.choose request.choice) rest := by
  cases follows with
  | lost _ absent _ _ _ =>
    rw [present] at absent
    cases absent
  | ended finished _ _ =>
    rw [going] at finished
    cases finished
  | @unsaved _ _ _ _ _ _ game _ _ _ _ stopped _ _ _ =>
    have saves := (game.save_ok_iff disk saveTo).mpr (room game.render.toUTF8)
    rw [stopped] at saves
    cases saves
  | went _ described _ shown saved later => exact ⟨_, _, _, described, shown, saved, later⟩

/-- The simulation: as long as the games are saved, the agent stays where the session stands. -/
theorem follows_session (opened : Session.ofSource options script.text = .ok base)
    (present : Script.load disk script.path = .ok script)
    (apart : ∀ path ∈ saveTo :: requests.map Request.saveTo,
      disk.destination path ≠ disk.destination script.path)
    (answers : Answers base.dialogue answer)
    (shown : invocation.run disk console = respond disk ⟨script, options, saveTo⟩ answer) :
    Follows console disk invocation saveTo answer requests := by
  induction requests generalizing disk invocation saveTo answer with
  | nil =>
    refine follows_of_shown opened present (apart saveTo List.mem_cons_self) answers shown ?_
    intro taken after request rest more
    cases more
  | cons next requests ih =>
    obtain ⟨here, further⟩ := List.forall_mem_cons.mp apart
    refine follows_of_shown opened present here answers shown ?_
    intro taken after request rest more kept resumable answered
    cases more
    apply ih resumable.present _ answered (run_choose resumable console next.choice next.saveTo)
    intro path member
    rw [kept.destination, kept.destination]
    exact further path member

end

/-- The agent, started and then asked for one choice after another, tells of every dialogue that compiles
what a session over it tells when it is asked for the same choices. -/
theorem agent_follows_session {disk : Disk} {compiling : Compiling} {script : Script} {dialogue : Dialogue}
    {saveTo : String} {requests : List Request}
    (loaded : Script.load disk compiling.source = .ok script)
    (compiled : compile compiling.options script.text = .ok dialogue)
    (apart : ∀ path ∈ saveTo :: requests.map Request.saveTo,
      disk.destination path ≠ disk.destination script.path) (console : Console) :
    Follows console disk (.start compiling saveTo) saveTo (.ok ⟨.start dialogue, none, []⟩) requests := by
  have opened : Session.ofSource compiling.options script.text = .ok (.start dialogue) := by
    rw [Session.ofSource, compiled]
    rfl
  refine follows_session opened (Script.load_self loaded) apart (.moved rfl) ?_
  rw [Invocation.run, startGame, loaded]
  simp [opened, respond]

def innSource : String :=
  "[Inn]\x7b\"bar\"\"Well?\"\"Ale.\"(buy ale; goto bar;)\"News?\"(goto news;)\x7d" ++
    "\x7b\"news\"\"Wolves.\"\"Bye.\"(exit ;)\x7d"

def innBranches : List Branch :=
  [⟨"bar", "Well?", [⟨"Ale.", [⟨.host "buy", "ale"⟩, ⟨.goto, "bar"⟩]⟩, ⟨"News?", [⟨.goto, "news"⟩]⟩]⟩,
    ⟨"news", "Wolves.", [⟨"Bye.", [⟨.exit, ""⟩]⟩]⟩]

def inn : Dialogue := ⟨"Inn", innBranches, "bar", indexFrom 0 innBranches, rfl⟩

def innDisk : Disk := ⟨.file "inn.qdl" innSource.toUTF8 .empty, some []⟩

def innCompiling : Compiling := ⟨"inn.qdl", ["buy"], true⟩

/-- The folder of the saved games is not there yet, and the last choice ends the dialogue. -/
def innRequests : List Request :=
  [⟨0, "games/last.json"⟩, ⟨1, "games/last.json"⟩, ⟨0, "games/end.json"⟩]

theorem innDisk_room (content : ByteArray) : (innDisk.save "games/last.json" content).2 = .ok () := by
  have names : Path.names "games/last.json" = ["games", "last.json"] := by rfl
  have home : innDisk.HasFolder [] := ⟨_, rfl⟩
  refine Disk.save_of_clear (by decide) (by decide) ?_ rfl home ?_ ?_
  · rw [names, Path.Plain]
    decide
  · rw [names]
    intro front rest split named content blocked
    rcases front with _ | ⟨first, _ | ⟨second, more⟩⟩
    · cases blocked
    · obtain rfl : "games" = first := (List.cons.inj split).1
      simp [Disk.HasFile, innDisk, Folder.node?, Folder.find?] at blocked
    · simp_all
  · rintro ⟨inside, found⟩
    rw [names] at found
    simp [innDisk, Folder.node?, Folder.find?] at found

theorem agent_follows_session_at_inn :
    Script.load innDisk innCompiling.source = .ok ⟨"/inn.qdl", innSource⟩ ∧
      compile innCompiling.options innSource = .ok inn ∧
      (∀ path ∈ "games/last.json" :: innRequests.map Request.saveTo,
        innDisk.destination path ≠ innDisk.destination "/inn.qdl") ∧
      Follows (.stream []) innDisk (.start innCompiling "games/last.json") "games/last.json"
        (.ok ⟨.start inn, none, []⟩) innRequests ∧
      ∃ after game,
        (Invocation.start innCompiling "games/last.json").run innDisk (.stream []) =
          .success after
            (Report.moment ⟨"Inn", none, some ⟨"bar", "Well?", ["Ale.", "News?"]⟩⟩ (some "games/last.json"))
            [] ∧
        SavedGame.load after "games/last.json" = .ok game ∧ game.active = "bar" ∧
        Follows (.stream []) after (.choose "games/last.json" 0 "games/last.json") "games/last.json"
          ((Session.start inn).choose 0) [⟨1, "games/last.json"⟩, ⟨0, "games/end.json"⟩] := by
  have loaded : Script.load innDisk innCompiling.source = .ok ⟨"/inn.qdl", innSource⟩ := by rfl
  have compiled : compile innCompiling.options innSource = .ok inn := by rfl
  have apart : ∀ path ∈ "games/last.json" :: innRequests.map Request.saveTo,
      innDisk.destination path ≠ innDisk.destination "/inn.qdl" := by decide
  have follows := agent_follows_session loaded compiled apart (.stream [])
  obtain ⟨moment, after, game, described, shown, saved, later⟩ := follows.saved rfl rfl innDisk_room
  cases described
  exact ⟨loaded, compiled, apart, follows, after, game, shown, saved.1, saved.2, later _ _ rfl⟩

end Parley.Cli
