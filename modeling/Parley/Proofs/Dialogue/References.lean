import Parley.Dialogue.References

namespace Parley

namespace Dialogue

def Linked (dialogue : Dialogue) : Prop :=
  ∀ branch ∈ dialogue.branches, ∀ response ∈ branch.responses, ∀ directive ∈ response.directives,
    directive.command = .goto → directive.argument ∈ dialogue.branches.map Branch.header

theorem repeated?_eq_none_iff (seen : List String) (branches : List Branch) :
    repeated? seen branches = none ↔
      (branches.map Branch.header).Nodup ∧ ∀ header ∈ branches.map Branch.header, header ∉ seen := by
  induction branches generalizing seen with
  | nil => simp [repeated?]
  | cons branch rest ih =>
    rw [repeated?, List.map_cons, List.nodup_cons, List.forall_mem_cons]
    by_cases known : branch.header ∈ seen
    · simp [known]
    · rw [if_neg known, ih]
      constructor
      · rintro ⟨distinct, fresh⟩
        refine ⟨⟨?_, distinct⟩, known, ?_⟩
        · intro again
          exact fresh _ again List.mem_cons_self
        · intro header member old
          exact fresh header member (List.mem_cons_of_mem _ old)
      · rintro ⟨⟨once, distinct⟩, _, fresh⟩
        refine ⟨distinct, ?_⟩
        intro header member old
        rcases List.mem_cons.mp old with rfl | old
        · exact once member
        · exact fresh header member old

theorem danglingTarget?_eq_none_iff (headers : List String) (response : Response) :
    danglingTarget? headers response = none ↔
      ∀ directive ∈ response.directives, directive.command = .goto → directive.argument ∈ headers := by
  simp [danglingTarget?]

/-- No reference is at fault exactly when the headers are distinct and no `goto` dangles. -/
theorem referenceFault?_eq_none_iff (dialogue : Dialogue) :
    dialogue.referenceFault? = none ↔
      (dialogue.branches.map Branch.header).Nodup ∧ dialogue.Linked := by
  have distinct := repeated?_eq_none_iff [] dialogue.branches
  unfold referenceFault?
  cases again : repeated? [] dialogue.branches with
  | some branch =>
    have shared : ¬(dialogue.branches.map Branch.header).Nodup := by simpa [again] using distinct
    simp [shared]
  | none =>
    have unique := (distinct.mp again).1
    simp only [List.findSome?_eq_none_iff, Option.map_eq_none_iff, danglingTarget?_eq_none_iff,
      unique, true_and]
    rfl

theorem checkReferences_ok_iff (dialogue : Dialogue) :
    dialogue.checkReferences = .ok () ↔
      (dialogue.branches.map Branch.header).Nodup ∧ dialogue.Linked := by
  rw [← referenceFault?_eq_none_iff, checkReferences]
  cases dialogue.referenceFault? <;> simp

/-- A `goto` of a dialogue, where it stands and the header that it leads to. -/
structure Goto where
  branch : Branch
  response : Response
  target : String

def gotos (dialogue : Dialogue) : List Goto :=
  dialogue.branches.flatMap fun branch =>
    branch.responses.flatMap fun response =>
      (response.directives.filter fun directive => directive.command = .goto).map fun directive =>
        ⟨branch, response, directive.argument⟩

/-- Its header stands in front of it already, and no header does so earlier. -/
def FirstRepeated (dialogue : Dialogue) (branch : Branch) : Prop :=
  ∃ before after, dialogue.branches = before ++ branch :: after ∧
    (before.map Branch.header).Nodup ∧ branch.header ∈ before.map Branch.header

/-- It leads to no branch, and every `goto` in front of it leads to one. -/
def FirstDangling (dialogue : Dialogue) (goto : Goto) : Prop :=
  ∃ before after, dialogue.gotos = before ++ goto :: after ∧
    (∀ earlier ∈ before, earlier.target ∈ dialogue.branches.map Branch.header) ∧
    goto.target ∉ dialogue.branches.map Branch.header

theorem exists_of_repeated? {seen : List String} {branches : List Branch} {branch : Branch}
    (found : repeated? seen branches = some branch) :
    ∃ before after, branches = before ++ branch :: after ∧ repeated? seen before = none ∧
      (branch.header ∈ before.map Branch.header ∨ branch.header ∈ seen) := by
  induction branches generalizing seen with
  | nil => cases found
  | cons first rest ih =>
    rw [repeated?] at found
    by_cases known : first.header ∈ seen
    · rw [if_pos known] at found
      cases found
      exact ⟨[], rest, rfl, rfl, .inr known⟩
    · rw [if_neg known] at found
      obtain ⟨before, after, rfl, passed, again⟩ := ih found
      refine ⟨first :: before, after, rfl, ?_, ?_⟩
      · rw [repeated?, if_neg known, passed]
      · rcases again with within | old
        · exact .inl (List.mem_cons_of_mem _ within)
        · rcases List.mem_cons.mp old with same | old
          · exact .inl (same ▸ List.mem_cons_self)
          · exact .inr old

theorem firstRepeated_of_repeated? {dialogue : Dialogue} {branch : Branch}
    (found : repeated? [] dialogue.branches = some branch) : dialogue.FirstRepeated branch := by
  obtain ⟨before, after, same, passed, again⟩ := exists_of_repeated? found
  have distinct := ((repeated?_eq_none_iff [] before).mp passed).1
  exact ⟨before, after, same, distinct, again.resolve_right List.not_mem_nil⟩

/-- Looking through the branches, their responses and the commands of each is looking through every `goto`. -/
theorem findSome?_danglingTarget? (dialogue : Dialogue) (headers : List String) :
    (dialogue.branches.findSome? fun branch =>
      branch.responses.findSome? fun response =>
        (danglingTarget? headers response).map fun target =>
          ReferenceFault.dangling response.text branch.header target) =
      (dialogue.gotos.find? fun goto => goto.target ∉ headers).map fun goto =>
        .dangling goto.response.text goto.branch.header goto.target := by
  simp only [gotos, danglingTarget?, List.find?_flatMap, List.find?_map, List.find?_filter,
    List.map_findSome?, Option.map_map, Function.comp_def, Bool.decide_and, Bool.decide_eq_true]

theorem Linked.target_mem {dialogue : Dialogue} (linked : dialogue.Linked) {goto : Goto}
    (member : goto ∈ dialogue.gotos) : goto.target ∈ dialogue.branches.map Branch.header := by
  obtain ⟨branch, held, member⟩ := List.mem_flatMap.mp member
  obtain ⟨response, offered, member⟩ := List.mem_flatMap.mp member
  obtain ⟨directive, selected, rfl⟩ := List.mem_map.mp member
  obtain ⟨ordered, leads⟩ := List.mem_filter.mp selected
  exact linked branch held response offered directive ordered (of_decide_eq_true leads)

theorem checkReferences_of_repeated {dialogue : Dialogue}
    (shared : ¬(dialogue.branches.map Branch.header).Nodup) :
    ∃ branch, dialogue.FirstRepeated branch ∧
      dialogue.checkReferences = .error ⟨.reference (.duplicate branch.header), none⟩ := by
  have distinct := repeated?_eq_none_iff [] dialogue.branches
  cases again : repeated? [] dialogue.branches with
  | none => exact absurd (distinct.mp again).1 shared
  | some branch =>
    refine ⟨branch, firstRepeated_of_repeated? again, ?_⟩
    rw [checkReferences, referenceFault?, again]

theorem checkReferences_of_dangling {dialogue : Dialogue}
    (distinct : (dialogue.branches.map Branch.header).Nodup) (loose : ¬dialogue.Linked) :
    ∃ goto, dialogue.FirstDangling goto ∧ dialogue.checkReferences =
      .error ⟨.reference (.dangling goto.response.text goto.branch.header goto.target), none⟩ := by
  have fault : dialogue.referenceFault? =
      (dialogue.gotos.find? fun goto => goto.target ∉ dialogue.branches.map Branch.header).map
        fun goto => .dangling goto.response.text goto.branch.header goto.target := by
    have once := (repeated?_eq_none_iff [] dialogue.branches).mpr ⟨distinct, fun _ _ => List.not_mem_nil⟩
    rw [referenceFault?, once, ← findSome?_danglingTarget?]
  cases found : dialogue.gotos.find? fun goto => goto.target ∉ dialogue.branches.map Branch.header with
  | none =>
    rw [found] at fault
    exact absurd ((referenceFault?_eq_none_iff dialogue).mp fault).2 loose
  | some goto =>
    rw [found] at fault
    obtain ⟨dangles, before, after, same, leads⟩ := List.find?_eq_some_iff_append.mp found
    refine ⟨goto, ⟨before, after, same, ?_, of_decide_eq_true dangles⟩, ?_⟩
    · intro earlier member
      simpa using leads earlier member
    · rw [checkReferences, fault]
      rfl

/-- The reference check accepts exactly the dialogues whose headers are distinct and whose every `goto` leads to
a branch; `exitHeader` is a header like any other. Of the others it reports a repeated header if there is one,
and the first in the order of the text, and else the first `goto` that leads nowhere. -/
theorem checkReferences_exact (dialogue : Dialogue) :
    (dialogue.checkReferences = .ok () ↔
      (dialogue.branches.map Branch.header).Nodup ∧ dialogue.Linked) ∧
    (dialogue.checkReferences = .ok () → exitHeader ∉ dialogue.branches.map Branch.header →
      ∀ goto ∈ dialogue.gotos, goto.target ≠ exitHeader) ∧
    (¬(dialogue.branches.map Branch.header).Nodup →
      ∃ branch failure, dialogue.FirstRepeated branch ∧ dialogue.checkReferences = .error failure ∧
        failure.code = "QDL_REF_DUPLICATE_HEADER" ∧
        failure.message = s!"Header \"{branch.header}\" is used by more than one branch." ∧
        failure.mark = none) ∧
    ((dialogue.branches.map Branch.header).Nodup → ¬dialogue.Linked →
      ∃ branch response target failure, dialogue.FirstDangling ⟨branch, response, target⟩ ∧
        dialogue.checkReferences = .error failure ∧
        failure.code = "QDL_REF_DANGLING_GOTO" ∧
        failure.message =
          s!"Response \"{response.text}\" in branch \"{branch.header}\" goes to unknown header \"{target}\"." ∧
        failure.mark = none) := by
  refine ⟨checkReferences_ok_iff dialogue, ?_, ?_, ?_⟩
  · intro accepted missing goto member exits
    have linked := ((checkReferences_ok_iff dialogue).mp accepted).2
    exact missing (exits ▸ linked.target_mem member)
  · intro shared
    obtain ⟨branch, first, refused⟩ := checkReferences_of_repeated shared
    exact ⟨branch, _, first, refused, rfl, rfl, rfl⟩
  · intro distinct loose
    obtain ⟨⟨branch, response, target⟩, first, refused⟩ := checkReferences_of_dangling distinct loose
    exact ⟨branch, response, target, _, first, refused, rfl, rfl, rfl⟩

/-- Two branches that lead to each other. -/
def toAndFro : Dialogue :=
  ⟨"T", [⟨"a", "m", [⟨"on", [⟨.goto, "b"⟩]⟩]⟩, ⟨"b", "m", [⟨"back", [⟨.goto, "a"⟩]⟩]⟩], "a", _, rfl⟩

/-- A `goto` that leads nowhere, and a header that comes again behind it. -/
def astray : Dialogue :=
  ⟨"T", [⟨"a", "m", [⟨"on", [⟨.goto, "c"⟩]⟩]⟩, ⟨"b", "m", []⟩, ⟨"a", "m", []⟩], "a", _, rfl⟩

/-- A `goto` to the header of a dialogue that is over, behind one that leads to a branch. -/
def departing : Dialogue :=
  ⟨"T", [⟨"a", "m", [⟨"on", [⟨.become, "c"⟩, ⟨.goto, "b"⟩]⟩]⟩,
    ⟨"b", "m", [⟨"stay", []⟩, ⟨"leave", [⟨.goto, exitHeader⟩]⟩]⟩], "a", _, rfl⟩

theorem checkReferences_exact_astray :
    (toAndFro.checkReferences = .ok () ∧ exitHeader ∉ toAndFro.branches.map Branch.header ∧
      ∀ goto ∈ toAndFro.gotos, goto.target ≠ exitHeader) ∧
    (¬(astray.branches.map Branch.header).Nodup ∧
      ∃ branch failure, astray.FirstRepeated branch ∧ astray.checkReferences = .error failure ∧
        failure.code = "QDL_REF_DUPLICATE_HEADER" ∧
        failure.message = s!"Header \"{branch.header}\" is used by more than one branch." ∧
        failure.mark = none) ∧
    (departing.branches.map Branch.header).Nodup ∧ ¬departing.Linked ∧
      ∃ branch response target failure, departing.FirstDangling ⟨branch, response, target⟩ ∧
        departing.checkReferences = .error failure ∧
        failure.code = "QDL_REF_DANGLING_GOTO" ∧
        failure.message =
          s!"Response \"{response.text}\" in branch \"{branch.header}\" goes to unknown header \"{target}\"." ∧
        failure.mark = none := by
  have shared : ¬(astray.branches.map Branch.header).Nodup := by decide
  have distinct : (departing.branches.map Branch.header).Nodup := by decide
  have loose : ¬departing.Linked := by unfold Linked; decide
  have missing : exitHeader ∉ toAndFro.branches.map Branch.header := by decide
  exact ⟨⟨by rfl, missing, (checkReferences_exact toAndFro).2.1 (by rfl) missing⟩,
    ⟨shared, (checkReferences_exact astray).2.2.1 shared⟩, distinct, loose,
    (checkReferences_exact departing).2.2.2 distinct loose⟩

end Dialogue

end Parley
