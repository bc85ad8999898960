import Parley.Proofs.Play.Choice

/-! Turns at terminals that act. A reading draws before each key it waits for, always the response that the
keys so far have reached, and ends at the first confirmation or failure; a turn is the choice that its reading
comes to. -/

namespace Parley

/-- A terminal at work, with a state of its own: it draws views and waits for keys, and may fail at either. -/
structure Device (σ : Type) where
  draw (view : View) : EStateM Failure σ Unit
  listen : EStateM Failure σ Key

/-- What passes between a reading and its device. -/
inductive Contact
  | shown (view : View)
  | heard (key : Key)
  deriving DecidableEq, Repr

namespace Contact

def views : List Contact → List View
  | [] => []
  | shown view :: rest => view :: views rest
  | heard _ :: rest => views rest

def keys : List Contact → List Key
  | [] => []
  | shown _ :: rest => keys rest
  | heard key :: rest => key :: keys rest

end Contact

/-- What passes while keys are read that choose nothing: each is heard after one view, of what the keys before
it have reached. -/
def Branch.asked (branch : Branch) (index : Nat) (keys : List Key) : List Contact :=
  keys.zipIdx.flatMap fun (key, position) =>
    [.shown ⟨branch, Key.moves branch.responses.length index (keys.take position)⟩, .heard key]

theorem Branch.asked_cons (branch : Branch) (index : Nat) (key : Key) (rest : List Key) :
    branch.asked index (key :: rest) = .shown ⟨branch, index⟩ :: .heard key ::
      branch.asked (key.move branch.responses.length index) rest := by
  simp [asked, Key.moves, List.zipIdx_succ, List.flatMap_map, List.zipIdx_cons]

namespace Device

variable {device : Device σ} {branch : Branch}

/-- A reading at a device: it draws, it listens, and it goes on with the moved cursor until a key confirms. A
reading that never ends is not one of these. -/
inductive Reads (device : Device σ) (branch : Branch) :
    Cursor → σ → List Contact → Except Failure Nat → σ → Prop
  | undrawn {cursor before after failure}
      (failed : (device.draw ⟨branch, cursor.index⟩).run before = .error failure after) :
      Reads device branch cursor before [] (.error failure) after
  | unheard {cursor before drawn after failure}
      (draws : (device.draw ⟨branch, cursor.index⟩).run before = .ok () drawn)
      (failed : device.listen.run drawn = .error failure after) :
      Reads device branch cursor before [.shown ⟨branch, cursor.index⟩] (.error failure) after
  | confirmed {cursor before drawn after key index}
      (draws : (device.draw ⟨branch, cursor.index⟩).run before = .ok () drawn)
      (hears : device.listen.run drawn = .ok key after)
      (chosen : cursor.confirmed? key = some index) :
      Reads device branch cursor before [.shown ⟨branch, cursor.index⟩, .heard key] (.ok index) after
  | moved {cursor before drawn heard key contacts outcome after}
      (draws : (device.draw ⟨branch, cursor.index⟩).run before = .ok () drawn)
      (hears : device.listen.run drawn = .ok key heard)
      (unchosen : cursor.confirmed? key = none)
      (later : Reads device branch (cursor.press key) heard contacts outcome after) :
      Reads device branch cursor before (.shown ⟨branch, cursor.index⟩ :: .heard key :: contacts)
        outcome after

/-- How a reading ends at a view: with a confirmation, or because the device fails to draw it or to listen
after it. -/
inductive Ends (device : Device σ) (view : View) : List Contact → Except Failure Nat → σ → Prop
  | confirmed {after} : Ends device view [.shown view, .heard .confirm] (.ok view.cursor) after
  | undrawn {before after failure} (failed : (device.draw view).run before = .error failure after) :
      Ends device view [] (.error failure) after
  | unheard {before after failure} (failed : device.listen.run before = .error failure after) :
      Ends device view [.shown view] (.error failure) after

theorem Reads.asked {cursor : Cursor} {before after : σ} {contacts : List Contact}
    {outcome : Except Failure Nat} (reads : device.Reads branch cursor before contacts outcome after)
    (counted : cursor.count = branch.responses.length) (within : cursor.index < cursor.count) :
    ∃ keys last, .confirm ∉ keys ∧ contacts = branch.asked cursor.index keys ++ last ∧
      device.Ends ⟨branch, Key.moves branch.responses.length cursor.index keys⟩ last outcome after := by
  induction reads with
  | undrawn failed => exact ⟨[], [], List.not_mem_nil, rfl, .undrawn failed⟩
  | unheard draws failed => exact ⟨[], _, List.not_mem_nil, rfl, .unheard failed⟩
  | confirmed draws hears chosen =>
    obtain ⟨rfl, rfl⟩ := (Cursor.confirmed?_eq_some_iff within).mp chosen
    exact ⟨[], _, List.not_mem_nil, rfl, .confirmed⟩
  | @moved cursor _ _ _ key contacts _ _ draws hears unchosen later ih =>
    have other : key ≠ .confirm := by
      rintro rfl
      rw [(Cursor.confirmed?_eq_some_iff within).mpr ⟨rfl, rfl⟩] at unchosen
      cases unchosen
    have moved := Cursor.index_press_lt within key
    obtain ⟨keys, last, unconfirmed, told, ends⟩ :=
      ih ((cursor.count_press key).trans counted) (cursor.count_press key ▸ moved)
    rw [Cursor.index_press within, counted] at told ends
    refine ⟨key :: keys, last, ?_, ?_, ends⟩
    · simp [Ne.symm other, unconfirmed]
    · rw [told, Branch.asked_cons]
      rfl

/-- To a reading, a device is the keys that it hears from it and the way in which it fails. -/
theorem Reads.readFrom {cursor : Cursor} {before after : σ} {contacts : List Contact}
    {outcome : Except Failure Nat} (reads : device.Reads branch cursor before contacts outcome after) :
    ∃ breakdown, Terminal.readFrom branch breakdown cursor (Contact.keys contacts) =
      ⟨Contact.views contacts, [], outcome⟩ := by
  induction reads with
  | undrawn failed => exact ⟨.drawing _, rfl⟩
  | unheard draws failed => exact ⟨.listening _, rfl⟩
  | confirmed draws hears chosen =>
    -- Nothing is read behind the confirmation, so any breakdown will do.
    refine ⟨.drawing ⟨.raised "" "", none⟩, ?_⟩
    simp [Contact.keys, Contact.views, Terminal.readFrom, chosen]
  | moved draws hears unchosen later ih =>
    obtain ⟨breakdown, same⟩ := ih
    refine ⟨breakdown, ?_⟩
    simp [Contact.keys, Contact.views, Terminal.readFrom, unchosen, same]

end Device

namespace Terminal

def device : Device Terminal where
  draw _ := do
    match (← get) with
    | ⟨[], .drawing failure⟩ => throw failure
    | _ => return ()
  listen := do
    match (← get) with
    | ⟨[], breakdown⟩ => throw breakdown.failure
    | ⟨key :: rest, breakdown⟩ =>
      set (⟨rest, breakdown⟩ : Terminal)
      return key

/-- A reading is what passes between it and the terminal, and it takes the keys in order. -/
theorem reads_device (branch : Branch) (breakdown : Breakdown) (cursor : Cursor) (keys : List Key) :
    let reading := readFrom branch breakdown cursor keys
    ∃ contacts, device.Reads branch cursor ⟨keys, breakdown⟩ contacts reading.outcome
        ⟨reading.unread, breakdown⟩ ∧
      reading.views = Contact.views contacts ∧ Contact.keys contacts ++ reading.unread = keys := by
  induction keys generalizing cursor with
  | nil =>
    cases breakdown with
    | drawing failure => exact ⟨[], .undrawn rfl, rfl, rfl⟩
    | listening failure => exact ⟨_, .unheard rfl rfl, rfl, rfl⟩
  | cons key rest ih =>
    rw [readFrom]
    cases chosen : cursor.confirmed? key with
    | some index => exact ⟨_, .confirmed rfl rfl chosen, rfl, rfl⟩
    | none =>
      obtain ⟨contacts, reads, views, heard⟩ := ih (cursor.press key)
      exact ⟨_, .moved rfl rfl chosen reads, congrArg (_ :: ·) views, congrArg (key :: ·) heard⟩

end Terminal

namespace Session

variable {session kept : Session} {branch : Branch} {terminal : Terminal} {failure : Failure}

theorem run_turn_unconfirmed (active : session.dialogue.activeBranch = .ok branch)
    (answered : branch.responses ≠ []) (unconfirmed : .confirm ∉ terminal.keys) :
    (Held.turn terminal).run session = .error terminal.breakdown.failure session := by
  rw [run_turn, runTurn, Dialogue.runTurn_unconfirmed active answered unconfirmed]
  rfl

/-- A turn that confirms a response fails only where the dialogue is over. -/
theorem ended_of_run_turn (active : session.dialogue.activeBranch = .ok branch)
    (answered : branch.responses ≠ []) (confirms : .confirm ∈ terminal.keys)
    (failed : (Held.turn terminal).run session = .error failure kept) :
    failure = ⟨.play (.ended session.dialogue.title), none⟩ := by
  rcases Dialogue.runTurn_cases active answered terminal with ⟨_, choice, within, same⟩ | ⟨unconfirmed, _⟩
  · rw [run_turn, runTurn, same] at failed
    cases chose : session.dialogue.choose choice with
    | ok chosen =>
      rw [chose] at failed
      cases failed
    | error refusal =>
      rw [chose] at failed
      cases failed
      exact Dialogue.ended_of_choose active within chose
  · exact absurd confirms unconfirmed

/-- Only a terminal can make a turn fail as a choice out of range does. -/
theorem breakdown_of_outOfRange (active : session.dialogue.activeBranch = .ok branch)
    (answered : branch.responses ≠ []) (failed : (Held.turn terminal).run session = .error failure kept)
    (blamed : failure.code = "QDL_RUNTIME_OBJECT_INDEX") :
    .confirm ∉ terminal.keys ∧ failure = terminal.breakdown.failure := by
  have unconfirmed : .confirm ∉ terminal.keys := by
    intro confirms
    rw [ended_of_run_turn active answered confirms failed] at blamed
    simp [Failure.code, Cause.code, PlayFault.code] at blamed
  refine ⟨unconfirmed, ?_⟩
  rw [run_turn_unconfirmed active answered unconfirmed] at failed
  cases failed
  rfl

end Session

/-- A turn at a branch with responses is a reading and then the choice it comes to. The reading shows one view
before each key it waits for, with the cursor where the keys so far have moved it; the first confirmation ends
it and leaves the keys behind it alone. Where the terminal fails before one, its failure is the turn's, and
the session is what it was; no turn chooses out of range. -/
theorem turn_reads_then_chooses {session : Session} {branch : Branch}
    (active : session.dialogue.activeBranch = .ok branch) (answered : branch.responses ≠ []) :
    let count := branch.responses.length
    (∀ {σ : Type} (device : Device σ) (before after : σ) (contacts : List Contact) (outcome : Except Failure Nat),
      device.Reads branch (.start count) before contacts outcome after →
        (∃ keys last, .confirm ∉ keys ∧ contacts = branch.asked 0 keys ++ last ∧
          device.Ends ⟨branch, Key.moves count 0 keys⟩ last outcome after) ∧
        ∃ breakdown,
          session.dialogue.readChoice ⟨Contact.keys contacts, breakdown⟩ = ⟨Contact.views contacts, [], outcome⟩ ∧
          (Session.Held.turn ⟨Contact.keys contacts, breakdown⟩).run session = session.pursue outcome) ∧
    ∀ terminal : Terminal,
      let reading := session.dialogue.readChoice terminal
      let turn := (Session.Held.turn terminal).run session
      (∃ contacts,
        Terminal.device.Reads branch (.start count) terminal contacts reading.outcome
          ⟨reading.unread, terminal.breakdown⟩ ∧
        reading.views = Contact.views contacts ∧ Contact.keys contacts ++ reading.unread = terminal.keys) ∧
      (∀ keys later, terminal.keys = keys ++ .confirm :: later → .confirm ∉ keys →
        Key.moves count 0 keys < count ∧ reading.outcome = .ok (Key.moves count 0 keys) ∧
        reading.unread = later ∧ turn = (Session.Held.choose (Key.moves count 0 keys)).run session) ∧
      (.confirm ∉ terminal.keys → turn = .error terminal.breakdown.failure session) ∧
      ∀ failure kept, turn = .error failure kept → failure.code = "QDL_RUNTIME_OBJECT_INDEX" →
        .confirm ∉ terminal.keys ∧ failure = terminal.breakdown.failure := by
  have within : 0 < branch.responses.length := List.length_pos_iff.mpr answered
  refine ⟨?_, ?_⟩
  · intro σ device before after contacts outcome reads
    refine ⟨reads.asked rfl within, ?_⟩
    obtain ⟨breakdown, same⟩ := reads.readFrom
    have read := (Dialogue.readChoice_of_active active answered ⟨Contact.keys contacts, breakdown⟩).trans same
    exact ⟨breakdown, read, by rw [session.run_turn_eq, read]⟩
  · intro terminal reading turn
    refine ⟨?_, ?_, Session.run_turn_unconfirmed active answered, ?_⟩
    · rw [show reading = _ from Dialogue.readChoice_of_active active answered terminal]
      exact Terminal.reads_device branch terminal.breakdown _ terminal.keys
    · intro keys later split unconfirmed
      obtain ⟨outcome, unread⟩ := Dialogue.readChoice_confirm active answered split unconfirmed
      refine ⟨Key.moves_lt within keys, outcome, unread, ?_⟩
      rw [show turn = _ from session.run_turn_eq terminal, outcome]
      rfl
    · intro failure kept
      exact Session.breakdown_of_outOfRange active answered

/-- A turn that runs into both ends of the stall, and one whose terminal stops at its second key. -/
theorem turn_reads_then_chooses_bazaar :
    let session : Session := ⟨bazaar, 4⟩
    let closed : Breakdown := .listening ⟨.raised "NO_KEYS" "closed", none⟩
    let terminal : Terminal := ⟨[.up, .down, .down, .down, .other, .up, .confirm, .up], closed⟩
    let reading := session.dialogue.readChoice terminal
    session.dialogue.activeBranch = .ok stall ∧ stall.responses ≠ [] ∧
    reading.views.map View.cursor = [0, 0, 1, 2, 2, 2, 1] ∧ reading.outcome = .ok 1 ∧ reading.unread = [.up] ∧
    (Session.Held.turn terminal).run session = (Session.Held.choose 1).run session ∧
    (Session.Held.turn ⟨[.down], closed⟩).run session = .error closed.failure session := by
  intro session closed terminal reading
  have answered : stall.responses ≠ [] := by decide
  obtain ⟨_, turns⟩ := @turn_reads_then_chooses session stall bazaar_activeBranch answered
  obtain ⟨_, confirmed, _, _⟩ := turns terminal
  obtain ⟨_, outcome, unread, chosen⟩ :=
    confirmed [.up, .down, .down, .down, .other, .up] [.up] rfl (by decide)
  obtain ⟨_, _, unconfirmed, _⟩ := turns ⟨[.down], closed⟩
  have views : reading.views.map View.cursor = [0, 0, 1, 2, 2, 2, 1] := by
    rw [show reading = _ from Dialogue.readChoice_of_active bazaar_activeBranch answered terminal]
    rfl
  exact ⟨bazaar_activeBranch, answered, views, outcome, unread, chosen, unconfirmed (by decide)⟩

end Parley
