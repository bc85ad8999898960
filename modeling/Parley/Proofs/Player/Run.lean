import Mathlib.Data.List.Forall2
import Parley.Player.Step

/-! Runs of interactive players: what holds at every moment of a run, when a run ends, and when two runs
go the same way. -/

namespace Parley.Step

variable {State Shown Event Seen : Type}

theorem andThen_of_ending {first : Step State Shown} (ended : first.ending = some last)
    (next : State → Step State Shown) : first.andThen next = first := by
  rw [andThen, ended]

theorem andThen_of_going {first : Step State Shown} (going : first.ending = none)
    (next : State → Step State Shown) :
    first.andThen next = ⟨(next first.state).state, first.shown ++ (next first.state).shown,
      first.overwrites ++ (next first.state).overwrites, (next first.state).ending⟩ := by
  rw [andThen, going]

theorem andThen_stay (first : Step State Shown) :
    (first.andThen fun state => stay state []) = first := by
  obtain ⟨state, shown, overwrites, ending⟩ := first
  cases ending with
  | some last => rfl
  | none => simp [andThen, stay]

theorem run_singleton (respond : State → Event → Step State Shown) (state : State) (event : Event) :
    run respond state [event] = respond state event :=
  (respond state event).andThen_stay

theorem andThen_assoc (first : Step State Shown) (second third : State → Step State Shown) :
    (first.andThen second).andThen third
      = first.andThen fun state => (second state).andThen third := by
  cases ended : first.ending with
  | some last => simp only [andThen_of_ending ended]
  | none =>
    rw [andThen_of_going ended, andThen_of_going ended]
    cases stopped : (second first.state).ending with
    | some last => simp [andThen, stopped]
    | none => simp [andThen, stopped]

/-- Goes on through events, unless it has ended before. -/
def followedBy (first : Step State Shown) (respond : State → Event → Step State Shown)
    (events : List Event) : Step State Shown :=
  first.andThen fun state => run respond state events

/-- The events that a player looks at after a first step, each with the state that it finds. -/
def moments (respond : State → Event → Step State Shown) (first : Step State Shown) :
    List Event → List (State × Event)
  | [] => []
  | event :: rest =>
    match first.ending with
    | some _ => []
    | none => (first.state, event) :: moments respond (respond first.state event) rest

def seen (observe : State → Event → Option Seen) (respond : State → Event → Step State Shown)
    (first : Step State Shown) (events : List Event) : List Seen :=
  (moments respond first events).filterMap fun moment => observe moment.1 moment.2

section

variable {respond : State → Event → Step State Shown} {first : Step State Shown}

theorem followedBy_nil (first : Step State Shown) (respond : State → Event → Step State Shown) :
    first.followedBy respond [] = first :=
  first.andThen_stay

theorem followedBy_cons (first : Step State Shown) (respond : State → Event → Step State Shown)
    (event : Event) (rest : List Event) :
    first.followedBy respond (event :: rest)
      = first.andThen fun state => (respond state event).followedBy respond rest := rfl

theorem followedBy_of_ending (ended : first.ending = some last) (events : List Event) :
    first.followedBy respond events = first :=
  andThen_of_ending ended _

theorem followedBy_append (first : Step State Shown) (respond : State → Event → Step State Shown)
    (before after : List Event) :
    first.followedBy respond (before ++ after)
      = (first.followedBy respond before).followedBy respond after := by
  induction before generalizing first with
  | nil => rw [List.nil_append, followedBy_nil]
  | cons event rest ih =>
    rw [List.cons_append, followedBy_cons, followedBy_cons, followedBy, andThen_assoc]
    congr 1
    funext state
    exact ih (respond state event)

theorem followedBy_map (first : Step State Shown) (respond : State → Event → Step State Shown)
    (read : Input → Event) (inputs : List Input) :
    first.followedBy respond (inputs.map read)
      = first.followedBy (fun state input => respond state (read input)) inputs := by
  induction inputs generalizing first with
  | nil => rfl
  | cons input rest ih =>
    rw [List.map_cons, followedBy_cons, followedBy_cons]
    congr 1
    funext state
    exact ih (respond state (read input))

theorem moments_of_ending (ended : first.ending = some last) (events : List Event) :
    moments respond first events = [] := by
  cases events with
  | nil => rfl
  | cons event rest => rw [moments, ended]

theorem moments_cons (going : first.ending = none) (event : Event) (rest : List Event) :
    moments respond first (event :: rest)
      = (first.state, event) :: moments respond (respond first.state event) rest := by
  rw [moments, going]

/-- What was shown and lost before makes no difference to what comes. -/
theorem moments_congr {other : Step State Shown} (state : first.state = other.state)
    (ending : first.ending = other.ending) (events : List Event) :
    moments respond first events = moments respond other events := by
  cases events with
  | nil => rfl
  | cons event rest => rw [moments, moments, state, ending]

theorem moments_append (before after : List Event) :
    moments respond first (before ++ after)
      = moments respond first before ++ moments respond (first.followedBy respond before) after := by
  induction before generalizing first with
  | nil => rw [followedBy_nil]; rfl
  | cons event rest ih =>
    cases ended : first.ending with
    | some last => simp [moments_of_ending ended, followedBy_of_ending ended]
    | none =>
      rw [List.cons_append, moments_cons ended, moments_cons ended, ih, List.cons_append,
        followedBy_cons, andThen_of_going ended]
      congr 2
      apply moments_congr
      · rfl
      · rfl

theorem seen_of_ending (ended : first.ending = some last) (observe : State → Event → Option Seen)
    (events : List Event) : seen observe respond first events = [] := by
  rw [seen, moments_of_ending ended]
  rfl

theorem seen_cons (going : first.ending = none) (observe : State → Event → Option Seen) (event : Event)
    (rest : List Event) :
    seen observe respond first (event :: rest)
      = (observe first.state event).toList ++ seen observe respond (respond first.state event) rest := by
  rw [seen, moments_cons going]
  cases observed : observe first.state event with
  | none => exact List.filterMap_cons_none observed
  | some sight => exact List.filterMap_cons_some observed

theorem seen_of_unseen {observe : State → Event → Option Seen}
    (unseen : ∀ state, ∀ event ∈ events, observe state event = none) :
    seen observe respond first events = [] := by
  induction events generalizing first with
  | nil => rfl
  | cons event rest ih =>
    cases ended : first.ending with
    | some last => exact seen_of_ending ended observe _
    | none =>
      rw [seen_cons ended, unseen first.state event List.mem_cons_self]
      exact ih fun state later member => unseen state later (List.mem_cons_of_mem event member)

theorem seen_append (observe : State → Event → Option Seen) (before after : List Event) :
    seen observe respond first (before ++ after)
      = seen observe respond first before
        ++ seen observe respond (first.followedBy respond before) after := by
  rw [seen, moments_append, List.filterMap_append]
  rfl

/-- What one step keeps holds at every moment. -/
theorem moments_keep {Holds : State → Prop}
    (keeps : ∀ state event, Holds state → (respond state event).ending = none →
      Holds (respond state event).state)
    (start : first.ending = none → Holds first.state) :
    ∀ moment ∈ moments respond first events, Holds moment.1 := by
  induction events generalizing first with
  | nil => simp [moments]
  | cons event rest ih =>
    cases ended : first.ending with
    | some last => simp [moments_of_ending ended]
    | none =>
      rw [moments_cons ended, List.forall_mem_cons]
      exact ⟨start ended, ih (keeps first.state event (start ended))⟩

/-- What one step keeps of a state and of the moments before it holds at every moment. -/
theorem moments_keep_past {Holds : List (State × Event) → State → Prop}
    (keeps : ∀ past state event, Holds past state → (respond state event).ending = none →
      Holds (past ++ [(state, event)]) (respond state event).state)
    {past before after : List (State × Event)} {moment : State × Event}
    (start : first.ending = none → Holds past first.state)
    (split : moments respond first events = before ++ moment :: after) :
    Holds (past ++ before) moment.1 := by
  induction before generalizing first events past with
  | nil =>
    cases events with
    | nil => cases split
    | cons event rest =>
      cases ended : first.ending with
      | some last => simp [moments_of_ending ended] at split
      | none =>
        rw [moments_cons ended] at split
        obtain ⟨rfl, _⟩ := List.cons.inj split
        rw [List.append_nil]
        exact start ended
  | cons earlier before ih =>
    cases events with
    | nil => cases split
    | cons event rest =>
      cases ended : first.ending with
      | some last => simp [moments_of_ending ended] at split
      | none =>
        rw [moments_cons ended] at split
        obtain ⟨rfl, later⟩ := List.cons.inj split
        have next := ih (keeps past first.state event (start ended)) later
        rwa [List.append_assoc, List.singleton_append] at next

/-- What one step keeps holds where a run waits for further events. -/
theorem followedBy_keeps {Holds : State → Prop}
    (keeps : ∀ state event, Holds state → (respond state event).ending = none →
      Holds (respond state event).state)
    (start : first.ending = none → Holds first.state)
    (going : (first.followedBy respond events).ending = none) :
    Holds (first.followedBy respond events).state := by
  induction events generalizing first with
  | nil =>
    rw [followedBy_nil] at going ⊢
    exact start going
  | cons event rest ih =>
    cases ended : first.ending with
    | some last => simp [followedBy_of_ending ended, ended] at going
    | none =>
      rw [followedBy_cons, andThen_of_going ended] at going ⊢
      exact ih (keeps first.state event (start ended)) going

/-- A run ends with its first step or at one of its moments. -/
theorem ending_followedBy_iff :
    (first.followedBy respond events).ending = some last ↔
      first.ending = some last ∨
        ∃ moment ∈ moments respond first events, (respond moment.1 moment.2).ending = some last := by
  induction events generalizing first with
  | nil => simp [followedBy_nil, moments]
  | cons event rest ih =>
    cases ended : first.ending with
    | some early => simp [followedBy_of_ending ended, moments_of_ending ended, ended]
    | none =>
      rw [followedBy_cons, andThen_of_going ended, moments_cons ended]
      simp [ih]

/-- If every step shows where it leads, or shows nothing and stays there, a run has shown last where it
is. -/
theorem getLast?_shown_followedBy {view : State → Shown}
    (shows : ∀ state event, (respond state event).ending = none →
      (respond state event).shown.getLast?.getD (view state) = view (respond state event).state)
    (start : first.ending = none → first.shown.getLast? = some (view first.state))
    (going : (first.followedBy respond events).ending = none) :
    (first.followedBy respond events).shown.getLast?
      = some (view (first.followedBy respond events).state) := by
  induction events generalizing first with
  | nil =>
    rw [followedBy_nil] at going ⊢
    exact start going
  | cons event rest ih =>
    have split : first.followedBy respond (event :: rest)
        = (first.followedBy respond [event]).followedBy respond rest :=
      first.followedBy_append respond [event] rest
    rw [split] at going ⊢
    refine ih ?_ going
    intro alive
    cases ended : first.ending with
    | some last => simp [followedBy_of_ending ended, ended] at alive
    | none =>
      rw [followedBy_cons, andThen_of_going ended, followedBy_nil] at alive ⊢
      have further := shows first.state event alive
      simp only [List.getLast?_append, start ended, Option.or_some]
      exact congrArg some further

theorem shown_followedBy (events : List Event) :
    (first.followedBy respond events).shown = first.shown ++
      (moments respond first events).flatMap fun moment => (respond moment.1 moment.2).shown := by
  induction events generalizing first with
  | nil => simp [followedBy_nil, moments]
  | cons event rest ih =>
    cases ended : first.ending with
    | some last => simp [followedBy_of_ending ended, moments_of_ending ended]
    | none => simp [followedBy_cons, andThen_of_going ended, moments_cons ended, ih]

end

/-- Steps of two players that lead to related states, lose the same directives and end alike. What they
show may differ. -/
structure Agrees {Other Said : Type} (Same : State → Other → Prop) (left : Step State Shown)
    (right : Step Other Said) : Prop where
  state : Same left.state right.state
  overwrites : left.overwrites = right.overwrites
  ending : left.ending = right.ending

namespace Agrees

variable {Other Said Input : Type} {Same : State → Other → Prop}

theorem andThen {left : Step State Shown} {right : Step Other Said} (agrees : Agrees Same left right)
    {next : State → Step State Shown} {further : Other → Step Other Said}
    (later : Agrees Same (next left.state) (further right.state)) :
    Agrees Same (left.andThen next) (right.andThen further) := by
  cases ended : left.ending with
  | some last =>
    rw [andThen_of_ending ended, andThen_of_ending (agrees.ending ▸ ended)]
    exact agrees
  | none =>
    rw [andThen_of_going ended, andThen_of_going (agrees.ending ▸ ended)]
    refine ⟨later.state, ?_, later.ending⟩
    simp only [agrees.overwrites, later.overwrites]

/-- A player that hands some of its events on to another one, and keeps the rest to itself, goes the way of
that other player on the inputs that it hands on. -/
theorem followedBy_handed {respond : State → Event → Step State Shown}
    (answer : Other → Input → Step Other Said) {view : State → Other}
    (hand : State → Event → Option Input)
    (kept : ∀ state event, hand state event = none →
      Agrees (view · = ·) (respond state event) (stay (view state) [] : Step Other Said))
    (handed : ∀ state event input, hand state event = some input →
      Agrees (view · = ·) (respond state event) (answer (view state) input))
    {left : Step State Shown} {right : Step Other Said} (agrees : Agrees (view · = ·) left right)
    (events : List Event) :
    Agrees (view · = ·) (left.followedBy respond events)
        (right.followedBy answer (seen hand respond left events)) ∧
      seen (fun state event => (hand state event).map fun input => (view state, input)) respond left events
        = moments answer right (seen hand respond left events) := by
  induction events generalizing left right with
  | nil =>
    refine ⟨?_, rfl⟩
    rw [followedBy_nil]
    exact (followedBy_nil right answer).symm ▸ agrees
  | cons event rest ih =>
    cases ended : left.ending with
    | some last =>
      rw [seen_of_ending ended, seen_of_ending ended, followedBy_of_ending ended]
      exact ⟨(followedBy_nil right answer).symm ▸ agrees, rfl⟩
    | none =>
      have also := agrees.ending ▸ ended
      have same := agrees.state
      rw [seen_cons ended, seen_cons ended, followedBy_cons]
      cases passed : hand left.state event with
      | none =>
        obtain ⟨later, handed⟩ := ih (kept left.state event passed)
        refine ⟨?_, ?_⟩
        · apply agrees.andThen
          rw [← same]
          exact later
        · rw [Option.map_none, Option.toList_none, List.nil_append, handed]
          exact moments_congr same also.symm _
      | some input =>
        obtain ⟨later, handed⟩ := ih (handed left.state event input passed)
        simp only [Option.map_some, Option.toList_some, List.singleton_append]
        rw [moments_cons also, ← same, followedBy_cons]
        refine ⟨?_, congrArg _ handed⟩
        apply agrees.andThen
        rw [← same]
        exact later

/-- Two players that read the same events, each in its own way, agree as long as each step does, and at
every moment they are in related states. -/
theorem followedBy_alike {respond : State → Event → Step State Shown}
    (answer : Other → Input → Step Other Said) (read : Event → Input) {events : List Event}
    {left : Step State Shown} {right : Step Other Said} (agrees : Agrees Same left right)
    (steps : ∀ moment ∈ moments respond left events, ∀ other, Same moment.1 other →
      Agrees Same (respond moment.1 moment.2) (answer other (read moment.2))) :
    Agrees Same (left.followedBy respond events) (right.followedBy answer (events.map read)) ∧
      List.Forall₂ (fun moment other => Same moment.1 other.1 ∧ read moment.2 = other.2)
        (moments respond left events) (moments answer right (events.map read)) := by
  induction events generalizing left right with
  | nil => simpa [moments, followedBy_nil] using agrees
  | cons event rest ih =>
    cases ended : left.ending with
    | some last =>
      have also := agrees.ending ▸ ended
      simpa [moments_of_ending ended, moments_of_ending also, followedBy_of_ending ended,
        followedBy_of_ending also] using agrees
    | none =>
      have also := agrees.ending ▸ ended
      rw [moments_cons ended, List.forall_mem_cons] at steps
      obtain ⟨later, matched⟩ := ih (steps.1 right.state agrees.state) steps.2
      rw [List.map_cons, moments_cons ended, moments_cons also]
      refine ⟨?_, .cons ⟨agrees.state, rfl⟩ matched⟩
      rw [followedBy_cons, followedBy_cons]
      exact agrees.andThen later

/-- An observer who cannot tell related states apart sees the same in both runs. -/
theorem seen_alike {Same : State → State → Prop} {respond : State → Event → Step State Shown}
    {observe : State → Event → Option Seen} {events : List Event} {left right : Step State Shown}
    (unseen : ∀ one other event, Same one other → observe one event = observe other event)
    (matched : List.Forall₂ (fun moment other => Same moment.1 other.1 ∧ moment.2 = other.2)
      (moments respond left events) (moments respond right events)) :
    seen observe respond left events = seen observe respond right events := by
  have observed : (moments respond left events).map (fun moment => observe moment.1 moment.2)
      = (moments respond right events).map fun moment => observe moment.1 moment.2 := by
    rw [← List.forall₂_eq_eq_eq, List.forall₂_map_left_iff, List.forall₂_map_right_iff]
    refine matched.imp fun moment other same => ?_
    rw [same.2]
    exact unseen moment.1 other.1 other.2 same.1
  have sights := congrArg (List.filterMap id) observed
  rw [List.filterMap_map, List.filterMap_map] at sights
  exact sights

/-- Some events of a run replaced by others. If both lead to states that an observer cannot tell apart, with
the same to see on the way, then the observer sees the same to the end, as long as the later steps agree. -/
theorem followedBy_replaced {Same : State → State → Prop} {respond : State → Event → Step State Shown}
    {observe : State → Event → Option Seen} (refl : ∀ state, Same state state)
    (unseen : ∀ one other event, Same one other → observe one event = observe other event)
    {first : Step State Shown} {before after old new : List Event}
    (replaced : (first.followedBy respond before).ending = none →
      Agrees Same ((first.followedBy respond before).followedBy respond old)
          ((first.followedBy respond before).followedBy respond new) ∧
        seen observe respond (first.followedBy respond before) old
          = seen observe respond (first.followedBy respond before) new)
    (later : ∀ moment ∈ moments respond (first.followedBy respond (before ++ old)) after, ∀ other,
      Same moment.1 other → Agrees Same (respond moment.1 moment.2) (respond other moment.2)) :
    Agrees Same (first.followedBy respond (before ++ old ++ after))
        (first.followedBy respond (before ++ new ++ after)) ∧
      seen observe respond first (before ++ old ++ after)
        = seen observe respond first (before ++ new ++ after) := by
  cases ended : (first.followedBy respond before).ending with
  | some last =>
    simp only [seen_append, followedBy_append, followedBy_of_ending ended, seen_of_ending ended, and_true]
    exact ⟨refl _, rfl, rfl⟩
  | none =>
    obtain ⟨agrees, early⟩ := replaced ended
    rw [← followedBy_append, ← followedBy_append] at agrees
    obtain ⟨ultimately, matched⟩ := agrees.followedBy_alike respond id later
    rw [List.map_id] at ultimately matched
    have late := seen_alike unseen matched
    rw [followedBy_append first respond (before ++ old), followedBy_append first respond (before ++ new),
      seen_append observe (before ++ old), seen_append observe (before ++ new), seen_append observe before,
      seen_append observe before, early, late]
    exact ⟨ultimately, rfl⟩

end Agrees

end Parley.Step
