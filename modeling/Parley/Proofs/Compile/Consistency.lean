import Parley.Proofs.Compile.Simulation

namespace Parley

def Slots.Fits (slots : Slots α) : Prop := slots.items.length ≤ slots.capacity

def Slots.table (slots : Slots α) : Table := ⟨slots.capacity, slots.items.length, slots.remaining⟩

theorem Slots.fits_sized (part : Part) (capacity : Nat) : (sized part capacity : Slots α).Fits :=
  Nat.zero_le capacity

theorem Slots.push_ok {slots next : Slots α} {item : α} (pushed : slots.push item = .ok next)
    (fits : slots.Fits) : next.Fits ∧ next.items.length = slots.items.length + 1 := by
  unfold push at pushed
  split at pushed <;> cases pushed
  rename_i room
  exact ⟨Nat.lt_of_le_of_ne fits room, rfl⟩

structure PendingResponse.Paired (response : PendingResponse) : Prop where
  commands : response.commands.Fits
  arguments : response.arguments.Fits
  together : response.arguments.items.length = response.commands.items.length

theorem PendingResponse.paired_sized (commands : Nat) : (sized commands).Paired :=
  ⟨Slots.fits_sized _ _, Slots.fits_sized _ _, rfl⟩

theorem PendingResponse.Paired.endCommand {response next : PendingResponse} {mark : Mark}
    {argument : String} (paired : response.Paired)
    (ended : response.endCommand mark argument = .ok next) : next.Paired := by
  unfold PendingResponse.endCommand at ended
  split at ended
  · cases ended
  · obtain ⟨commands, pushed, ended⟩ := bind_ok ended
    obtain ⟨arguments, alsoPushed, ended⟩ := bind_ok ended
    cases ended
    obtain ⟨commandsFit, longer⟩ := Slots.push_ok pushed paired.commands
    obtain ⟨argumentsFit, alsoLonger⟩ := Slots.push_ok alsoPushed paired.arguments
    exact ⟨commandsFit, argumentsFit, by rw [longer, alsoLonger, paired.together]⟩

/-- Whatever a builder is given, no table is over its capacity, and a command has its argument. -/
structure Builder.Sound (builder : Builder) : Prop where
  branches : builder.branches.Fits
  responses : ∀ branch ∈ builder.branch, branch.responses.Fits
  lists : ∀ response ∈ builder.response, response.Paired

namespace Builder

variable {options : Options} {counts : Counts} {builder next : Builder} {mark : Mark}

theorem sound_start (counts : Counts) : (start counts).Sound :=
  ⟨Slots.fits_sized _ _, nofun, nofun⟩

theorem Sound.allocateBranch (sound : builder.Sound)
    (reached : builder.allocateBranch mark counts = .ok next) : next.Sound := by
  unfold Builder.allocateBranch at reached
  split at reached
  · cases reached
    exact ⟨sound.branches, nofun, sound.lists⟩
  · dsimp only at reached
    split at reached <;> cases reached
    refine ⟨sound.branches, ?_, sound.lists⟩
    rintro _ ⟨⟩
    exact Slots.fits_sized _ _

theorem Sound.allocateResponse (sound : builder.Sound)
    (reached : builder.allocateResponse mark counts = .ok next) : next.Sound := by
  unfold Builder.allocateResponse at reached
  split at reached
  · cases reached
  · split at reached
    · cases reached
      exact ⟨sound.branches, sound.responses, nofun⟩
    · dsimp only at reached
      split at reached <;> cases reached
      refine ⟨sound.branches, sound.responses, ?_⟩
      rintro _ ⟨⟩
      exact PendingResponse.paired_sized _

theorem Sound.map_branch (sound : builder.Sound) {change : PendingBranch → PendingBranch}
    (kept : ∀ branch, (change branch).responses = branch.responses) :
    ∀ branch ∈ builder.branch.map change, branch.responses.Fits := by
  intro branch held
  obtain ⟨before, begun, rfl⟩ := Option.map_eq_some_iff.mp held
  rw [kept]
  exact sound.responses before begun

theorem Sound.openString (sound : builder.Sound) (reached : builder.openString mark = .ok next) :
    next.Sound := by
  unfold Builder.openString at reached
  split at reached
  case h_1 | h_2 | h_3 =>
    obtain ⟨_, _, reached⟩ := bind_ok reached
    cases reached
    exact ⟨sound.branches, sound.responses, sound.lists⟩
  all_goals
    cases reached
    exact ⟨sound.branches, sound.responses, sound.lists⟩

theorem Sound.closeString (sound : builder.Sound)
    (reached : builder.closeString mark counts = .ok next) : next.Sound := by
  unfold Builder.closeString at reached
  split at reached
  · dsimp only at reached
    repeat' split at reached
    all_goals cases reached
    exact ⟨sound.branches, sound.map_branch fun _ => rfl, sound.lists⟩
  · refine Sound.allocateResponse ?_ reached
    exact ⟨sound.branches, sound.map_branch fun _ => rfl, sound.lists⟩
  all_goals
    cases reached
    exact ⟨sound.branches, sound.responses, sound.lists⟩

theorem Sound.openTitle (sound : builder.Sound) (reached : builder.openTitle mark = .ok next) :
    next.Sound := by
  unfold Builder.openTitle at reached
  split at reached
  · cases reached
  · obtain ⟨_, _, reached⟩ := bind_ok reached
    cases reached
    exact ⟨sound.branches, sound.responses, sound.lists⟩

theorem Sound.closeTitle (sound : builder.Sound)
    (reached : builder.closeTitle mark counts = .ok next) : next.Sound := by
  unfold Builder.closeTitle at reached
  split at reached
  · cases reached
  · refine Sound.allocateBranch ?_ reached
    exact ⟨sound.branches, sound.responses, sound.lists⟩

theorem Sound.openBranch (sound : builder.Sound) (reached : builder.openBranch mark = .ok next) :
    next.Sound := by
  unfold Builder.openBranch at reached
  split at reached
  · cases reached
  · obtain ⟨_, _, reached⟩ := bind_ok reached
    split at reached
    · rename_i branch begun
      split at reached <;> cases reached
      refine ⟨sound.branches, ?_, sound.lists⟩
      rintro _ ⟨⟩
      exact sound.responses branch begun
    · cases reached

theorem Sound.closeBranch (sound : builder.Sound)
    (reached : builder.closeBranch mark counts = .ok next) : next.Sound := by
  unfold Builder.closeBranch at reached
  split at reached
  case h_6 =>
    split at reached
    · cases reached
    · split at reached
      · cases reached
      · split at reached
        · cases reached
        · obtain ⟨finished, _, reached⟩ := bind_ok reached
          obtain ⟨branches, pushed, reached⟩ := bind_ok reached
          refine Sound.allocateBranch ?_ reached
          exact ⟨(Slots.push_ok pushed sound.branches).1, nofun, sound.lists⟩
  all_goals cases reached

theorem Sound.openList (sound : builder.Sound) (reached : builder.openList mark = .ok next) :
    next.Sound := by
  unfold Builder.openList at reached
  split at reached
  case h_6 =>
    split at reached
    · cases reached
    · rename_i response begun
      split at reached <;> cases reached
      refine ⟨sound.branches, sound.responses, ?_⟩
      rintro _ ⟨⟩
      obtain ⟨commands, arguments, together⟩ := sound.lists response begun
      exact ⟨commands, arguments, together⟩
  all_goals cases reached

theorem Sound.readPlain (sound : builder.Sound) (reached : builder.readPlain options mark = .ok next) :
    next.Sound := by
  unfold Builder.readPlain at reached
  split at reached
  · unfold separateArgument at reached
    split at reached
    · cases reached
      exact sound
    · split at reached <;> cases reached
      refine ⟨sound.branches, sound.responses, ?_⟩
      intro response held
      obtain ⟨before, begun, rfl⟩ := Option.map_eq_some_iff.mp held
      obtain ⟨commands, arguments, together⟩ := sound.lists before begun
      exact ⟨commands, arguments, together⟩
  · split at reached
    all_goals
      cases reached
      exact ⟨sound.branches, sound.responses, sound.lists⟩

theorem Sound.endCommand (sound : builder.Sound) (reached : builder.endCommand mark = .ok next) :
    next.Sound := by
  unfold Builder.endCommand at reached
  split at reached
  · cases reached
  · split at reached
    · cases reached
    · rename_i response begun
      obtain ⟨ended, done, reached⟩ := bind_ok reached
      cases reached
      refine ⟨sound.branches, sound.responses, ?_⟩
      rintro _ ⟨⟩
      exact (sound.lists response begun).endCommand done

theorem Sound.closeList (sound : builder.Sound)
    (reached : builder.closeList mark counts = .ok next) : next.Sound := by
  unfold Builder.closeList at reached
  split at reached
  case h_6 =>
    split at reached
    · cases reached
    · split at reached
      · cases reached
      · obtain ⟨finished, _, reached⟩ := bind_ok reached
        split at reached
        · cases reached
        · rename_i branch begun
          obtain ⟨responses, pushed, reached⟩ := bind_ok reached
          refine Sound.allocateResponse ?_ reached
          refine ⟨sound.branches, ?_, nofun⟩
          rintro _ ⟨⟩
          exact (Slots.push_ok pushed (sound.responses branch begun)).1
  all_goals cases reached

theorem Sound.read (sound : builder.Sound) (reached : builder.read options counts mark = .ok next) :
    next.Sound := by
  unfold Builder.read at reached
  split at reached
  · split at reached
    · exact sound.closeString reached
    · exact sound.openString reached
  · split at reached
    · cases reached
      exact ⟨sound.branches, sound.responses, sound.lists⟩
    · split at reached
      · exact sound.openTitle reached
      · exact sound.closeTitle reached
      · exact sound.openBranch reached
      · exact sound.closeBranch reached
      · exact sound.openList reached
      · exact sound.closeList reached
      · exact sound.endCommand reached
      · exact sound.readPlain reached

def tables (builder : Builder) : List Table :=
  builder.branches.table :: (builder.branch.toList.map fun branch => branch.responses.table) ++
    builder.response.toList.flatMap fun response => [response.commands.table, response.arguments.table]

theorem Sound.fits (sound : builder.Sound) : ∀ table ∈ builder.tables, table.Fits := by
  intro table listed
  rcases List.mem_append.mp listed with listed | listed
  · rcases List.mem_cons.mp listed with rfl | listed
    · exact ⟨sound.branches, rfl⟩
    · obtain ⟨branch, begun, rfl⟩ := List.mem_map.mp listed
      exact ⟨sound.responses branch (Option.mem_toList.mp begun), rfl⟩
  · obtain ⟨response, begun, listed⟩ := List.mem_flatMap.mp listed
    have paired := sound.lists response (Option.mem_toList.mp begun)
    simp only [List.mem_cons, List.not_mem_nil, or_false] at listed
    rcases listed with rfl | rfl
    · exact ⟨paired.commands, rfl⟩
    · exact ⟨paired.arguments, rfl⟩

theorem sound_of_foldlM {marks : List Mark}
    (reached : marks.foldlM (read options counts) (start counts) = .ok builder) : builder.Sound :=
  foldlM_keeps Sound.read (sound_start counts) reached

end Builder

/-- Whatever a balanced source holds, its counts are found, and building with them either gives a dialogue
of exactly these counts or reports a fault of the author. All the while the response at hand has as many
arguments as commands. -/
theorem counts_agree_with_dialogue (options : Options) (source : List Char)
    (accepted : Source.checkBalance (Source.locate source) = .ok ()) :
    ∃ marks counts, Source.normalize source = .ok marks ∧
      Source.count (Source.text marks) = .ok counts ∧
      ((∃ dialogue, build options counts marks = .ok dialogue ∧ dialogue.counts = counts ∧
          ∀ branch ∈ dialogue.branches, ∀ response ∈ branch.responses,
            response.arguments.length = response.commands.length) ∨
        ∃ fault mark, build options counts marks = .error ⟨.draft fault, mark⟩ ∧
          fault.isAuthored = true ∧ fault.code ∉ internalCodes) ∧
      ∀ before after builder, marks = before ++ after →
        before.foldlM (Builder.read options counts) (.start counts) = .ok builder →
        ∀ response ∈ builder.response,
          response.arguments.items.length = response.commands.items.length := by
  have normal : Source.normalize source = .ok (Source.strip source) := by
    simp [Source.normalize, accepted]
  have closes := ((Source.normalize_ok_iff source _).mp normal).1
  refine ⟨_, _, normal, Source.count_of_balanced closes, ?_, ?_⟩
  · have settled := build_agrees closes options
    cases built : build options _ (Source.strip source) with
    | ok dialogue =>
      rw [built] at settled
      refine .inl ⟨dialogue, rfl, settled, ?_⟩
      intro branch _ response _
      rw [Response.arguments, Response.commands, List.length_map, List.length_map]
    | error failure =>
      rw [built] at settled
      obtain ⟨fault, cause, authored⟩ := settled
      refine .inr ⟨fault, failure.mark, ?_, authored, fault.code_of_isAuthored authored⟩
      rw [← cause]
  · intro before after builder _ reached response begun
    exact ((Builder.sound_of_foldlM reached).lists response begun).together

/-- Two branches, delimiters inside strings and a list without commands. -/
theorem counts_agree_on_two_branches :
    let source :=
      "[T]\n\x7b\"a\" \"\x7d;)\" \"go\" (goto b; exit ;)\n \"stay\" ()\x7d\x7b\"b\"\"m\"\"r\"(goto a;)\x7d".toList
    let options := Options.ofNames [] false
    Source.checkBalance (Source.locate source) = .ok () ∧
      (Source.normalize source >>= fun marks => Source.count (Source.text marks)) = .ok [[2, 0], [1]] ∧
      (Source.normalize source >>= build options [[2, 0], [1]]).map
          (fun dialogue => (dialogue.title, dialogue.branches)) =
        .ok ("T", [⟨"a", "\x7d;)", [⟨"go", [⟨.goto, "b"⟩, ⟨.exit, ""⟩]⟩, ⟨"stay", []⟩]⟩,
          ⟨"b", "m", [⟨"r", [⟨.goto, "a"⟩]⟩]⟩]) ∧
      ∃ marks counts, Source.normalize source = .ok marks ∧
        Source.count (Source.text marks) = .ok counts ∧
        ((∃ dialogue, build options counts marks = .ok dialogue ∧ dialogue.counts = counts ∧
            ∀ branch ∈ dialogue.branches, ∀ response ∈ branch.responses,
              response.arguments.length = response.commands.length) ∨
          ∃ fault mark, build options counts marks = .error ⟨.draft fault, mark⟩ ∧
            fault.isAuthored = true ∧ fault.code ∉ internalCodes) ∧
        ∀ before after builder, marks = before ++ after →
          before.foldlM (Builder.read options counts) (.start counts) = .ok builder →
          ∀ response ∈ builder.response,
            response.arguments.items.length = response.commands.items.length :=
  ⟨by rfl, by rfl, by rfl, counts_agree_with_dialogue (.ofNames [] false) _ (by rfl)⟩

end Parley
