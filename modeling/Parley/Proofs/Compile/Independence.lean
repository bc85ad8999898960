import Parley.Proofs.Page.Language
import Parley.Proofs.Page.Parts
import Parley.Proofs.Source.Joining
import Parley.Source.Sections

/-! Branches compile independently of each other: nothing that is read in one of them is left over for the
next, whether it compiles or not. -/

namespace Parley

namespace Source

theorem mem_of_mem_outsideStrings {c : Char} {quoted : Bool} {text : List Char}
    (member : c ∈ outsideStrings quoted text) : c ∈ text := by
  induction text generalizing quoted with
  | nil => cases member
  | cons first rest ih =>
    rw [outsideStrings] at member
    split at member
    · exact List.mem_cons_of_mem first (ih member)
    · split at member
      · exact List.mem_cons_of_mem first (ih member)
      · rcases List.mem_cons.mp member with same | later
        · exact List.mem_cons.mpr (.inl same)
        · exact List.mem_cons_of_mem first (ih later)

/-- A text to put behind a title: balanced on its own, and with a branch in it. -/
structure IsPart (text : List Char) : Prop where
  balanced : checkBalance (locate text) = .ok ()
  branched : '\x7b' ∈ outsideStrings false text

namespace IsPart

theorem closes {text : List Char} (part : IsPart text) : Balanced none false text := by
  have closes := (checkBalance_ok_iff (locate text)).mp part.balanced
  rwa [text_locate] at closes

theorem keep_ne_nil {text : List Char} (part : IsPart text) : Layout.start.keep text ≠ [] :=
  List.ne_nil_of_mem (Layout.mem_keep (by decide) (mem_of_mem_outsideStrings part.branched) _)

end IsPart

theorem Balanced.exists_spell {text : List Char} (closes : Balanced none false text) :
    ∃ tokens, spell tokens = Layout.start.keep text := by
  obtain ⟨_, tokens, _, spelled⟩ := ((Layout.start.balanced_keep none false text).mpr closes).tokens
  exact ⟨tokens, spelled.symm⟩

theorem IsPart.ne_nil_of_spell {text : List Char} {tokens : List Token} (part : IsPart text)
    (spelled : spell tokens = Layout.start.keep text) : tokens ≠ [] := by
  intro empty
  rw [empty] at spelled
  exact part.keep_ne_nil spelled.symm

end Source

/-- Outside strings a closing bracket is read as nothing else. -/
theorem exists_front_of_spell {tokens : List Token} {text : List Char}
    (spelled : spell tokens = text ++ [']']) : ∃ front, tokens = front ++ [.closes .title] := by
  rcases tokens.eq_nil_or_concat' with rfl | ⟨front, last, rfl⟩
  · simp at spelled
  · rw [spell_append, spell_cons, spell_nil, List.append_nil] at spelled
    rcases last.cases_written with ⟨content, closed, rfl⟩ | ⟨c, rfl, unquoted⟩
    · rw [Token.written_quoted, ← List.cons_append, ← List.append_assoc] at spelled
      have quote : '"' = ']' := List.head_eq_of_cons_eq (List.append_inj_right' spelled rfl)
      exact absurd quote (by decide)
    · rw [Token.written_ofChar unquoted] at spelled
      have bracket : c = ']' := List.head_eq_of_cons_eq (List.append_inj_right' spelled rfl)
      rw [bracket]
      exact ⟨front, rfl⟩

def titled (title part : String) : String := "[" ++ title ++ "]" ++ part

def heading (title : String) : List Char := '[' :: (title.toList ++ [']'])

theorem exists_spell_heading {title : String} (closes : Source.Balanced none false (heading title)) :
    ∃ front, spell (front ++ [.closes .title]) = Layout.start.keep (heading title) := by
  obtain ⟨tokens, spelled⟩ := closes.exists_spell
  have visible : Text.isBlank ']' = false := by decide
  have ended : Layout.start.keep (heading title) = Layout.start.keep ('[' :: title.toList) ++ [']'] := by
    rw [heading, ← List.cons_append, Layout.keep_append]
    simp [Layout.keep, Layout.keeps, visible]
  obtain ⟨front, rfl⟩ := exists_front_of_spell (spelled.trans ended)
  exact ⟨front, spelled⟩

theorem toList_titled (title part : String) : (titled title part).toList = heading title ++ part.toList := by
  simp [titled, heading]

theorem compile_lax_iff {options : Options} (lax : options.strict = false) (source : String)
    (dialogue : Dialogue) :
    compile options source = .ok dialogue ↔
      options.check = .ok () ∧
        ∃ page : Page options, page.text = Layout.start.keep source.toList ∧ page.dialogue = dialogue := by
  have clear : options.Clear dialogue := by
    intro strict
    rw [lax] at strict
    cases strict
  rw [compile_ok_iff, Source.text_strip]
  simp [clear]

theorem balanced_of_compile {options : Options} {source : String} {dialogue : Dialogue}
    (compiled : compile options source = .ok dialogue) : Source.Balanced none false source.toList := by
  obtain ⟨_, ⟨page, same, _⟩, _⟩ := (compile_ok_iff options source dialogue).mp compiled
  have closes := (page.build same).1
  rwa [Source.text_strip, Layout.balanced_keep] at closes

/-- Under a balanced title, what compiles is what spells a page behind the title's tokens. -/
theorem compile_titled_iff {options : Options} (lax : options.strict = false) {title part : String}
    {front tokens : List Token} (closes : Source.Balanced none false (heading title))
    (titleSpelled : spell (front ++ [.closes .title]) = Layout.start.keep (heading title))
    (spelled : spell tokens = Layout.start.keep part.toList) (dialogue : Dialogue) :
    compile options (titled title part) = .ok dialogue ↔
      options.check = .ok () ∧
        ∃ page : Page options, page.tokens = front ++ .closes .title :: tokens ∧
          page.dialogue = dialogue := by
  have whole : Layout.start.keep (titled title part).toList = spell (front ++ .closes .title :: tokens) := by
    rw [toList_titled, Layout.keep_append_of_balanced closes, ← titleSpelled, ← spelled, ← spell_append,
      List.append_assoc]
    rfl
  have same (page : Page options) :
      page.text = Layout.start.keep (titled title part).toList ↔
        page.tokens = front ++ .closes .title :: tokens := by
    rw [whole]
    constructor
    · intro spells
      exact spell_injective spells
    · intro equal
      rw [Page.text, equal]
  simp only [compile_lax_iff lax, same]

theorem compiles_titled_iff {options : Options} (lax : options.strict = false) {title part : String}
    {front tokens : List Token} (closes : Source.Balanced none false (heading title))
    (titleSpelled : spell (front ++ [.closes .title]) = Layout.start.keep (heading title))
    (spelled : spell tokens = Layout.start.keep part.toList) :
    (∃ dialogue, compile options (titled title part) = .ok dialogue) ↔
      options.check = .ok () ∧ ∃ page : Page options, page.tokens = front ++ .closes .title :: tokens := by
  simp only [compile_titled_iff lax closes titleSpelled spelled]
  constructor
  · intro compiled
    obtain ⟨_, checked, page, same, _⟩ := compiled
    exact ⟨checked, page, same⟩
  · intro paged
    obtain ⟨checked, page, same⟩ := paged
    exact ⟨page.dialogue, checked, page, same, rfl⟩

variable {options : Options} {title first second : String}

theorem Source.IsPart.keep_append (front : Source.IsPart first.toList) :
    Layout.start.keep (first ++ second).toList =
      Layout.start.keep first.toList ++ Layout.start.keep second.toList := by
  rw [String.toList_append, Layout.keep_append_of_balanced front.closes]

/-- Two parts under a balanced title compile together exactly if each of them compiles alone. -/
theorem compiles_parts_iff (lax : options.strict = false)
    (closes : Source.Balanced none false (heading title)) (front : Source.IsPart first.toList)
    (back : Source.IsPart second.toList) :
    (∃ whole, compile options (titled title (first ++ second)) = .ok whole) ↔
      (∃ left, compile options (titled title first) = .ok left) ∧
        ∃ right, compile options (titled title second) = .ok right := by
  obtain ⟨before, titleSpelled⟩ := exists_spell_heading closes
  obtain ⟨tokens, spelled⟩ := front.closes.exists_spell
  obtain ⟨others, also⟩ := back.closes.exists_spell
  have together : spell (tokens ++ others) = Layout.start.keep (first ++ second).toList := by
    rw [front.keep_append, spell_append, spelled, also]
  have closed : Source.Balanced none false (spell tokens) := by
    rw [spelled, Layout.balanced_keep]
    exact front.closes
  rw [compiles_titled_iff lax closes titleSpelled together,
    compiles_titled_iff lax closes titleSpelled spelled, compiles_titled_iff lax closes titleSpelled also,
    Page.beside_iff (front.ne_nil_of_spell spelled) (back.ne_nil_of_spell also) closed]
  exact and_and_left

/-- What two parts compile to together, both of them have a share in. -/
theorem join_of_compile (lax : options.strict = false)
    (closes : Source.Balanced none false (heading title)) (front : Source.IsPart first.toList)
    (back : Source.IsPart second.toList) {whole left right : Dialogue}
    (compiled : compile options (titled title (first ++ second)) = .ok whole)
    (here : compile options (titled title first) = .ok left)
    (there : compile options (titled title second) = .ok right) :
    whole.title = left.title ∧ whole.title = right.title ∧
      whole.branches = left.branches ++ right.branches := by
  obtain ⟨before, titleSpelled⟩ := exists_spell_heading closes
  obtain ⟨tokens, spelled⟩ := front.closes.exists_spell
  obtain ⟨others, also⟩ := back.closes.exists_spell
  have together : spell (tokens ++ others) = Layout.start.keep (first ++ second).toList := by
    rw [front.keep_append, spell_append, spelled, also]
  obtain ⟨_, page, same, rfl⟩ := (compile_titled_iff lax closes titleSpelled together whole).mp compiled
  obtain ⟨_, front, sameFront, rfl⟩ := (compile_titled_iff lax closes titleSpelled spelled left).mp here
  obtain ⟨_, back, sameBack, rfl⟩ := (compile_titled_iff lax closes titleSpelled also right).mp there
  obtain ⟨frontTitle, backTitle, branches⟩ := Page.eq_beside same sameFront sameBack
  refine ⟨?_, ?_, ?_⟩
  · simp only [Page.dialogue, frontTitle]
  · simp only [Page.dialogue, backTitle]
  · simp only [Page.dialogue, branches, List.map_append]

/-- Behind balanced parts, only a balanced title compiles. -/
theorem balanced_heading_of_compile {part : String} {dialogue : Dialogue}
    (compiled : compile options (titled title part) = .ok dialogue)
    (closes : Source.Balanced none false part.toList) : Source.Balanced none false (heading title) := by
  have whole := balanced_of_compile compiled
  rw [toList_titled] at whole
  exact whole.of_append closes

/-- Branches compile independently of each other: without strict references, two texts under one title
compile together exactly if each of them compiles under it alone, and then to the branches of the one followed
by those of the other. -/
theorem branches_independent (options : Options) (title first second : String) (lax : options.strict = false)
    (front : Source.IsPart first.toList) (back : Source.IsPart second.toList) :
    ((∃ whole, compile options (titled title (first ++ second)) = .ok whole) ↔
      (∃ left, compile options (titled title first) = .ok left) ∧
        ∃ right, compile options (titled title second) = .ok right) ∧
    ∀ whole left right, compile options (titled title (first ++ second)) = .ok whole →
      compile options (titled title first) = .ok left →
      compile options (titled title second) = .ok right →
        whole.title = left.title ∧ whole.title = right.title ∧
          whole.branches = left.branches ++ right.branches := by
  have both : Source.Balanced none false (first ++ second).toList := by
    rw [String.toList_append]
    exact front.closes.append back.closes
  constructor
  · constructor
    · intro whole
      obtain ⟨dialogue, compiled⟩ := whole
      have closes := balanced_heading_of_compile compiled both
      exact (compiles_parts_iff lax closes front back).mp ⟨dialogue, compiled⟩
    · intro parts
      obtain ⟨left, compiled⟩ := parts.1
      have closes := balanced_heading_of_compile compiled front.closes
      exact (compiles_parts_iff lax closes front back).mpr parts
  · intro whole left right compiled here there
    have closes := balanced_heading_of_compile here front.closes
    exact join_of_compile lax closes front back compiled here there

/-- A branch that leads to another one, and one that ends the dialogue. -/
def leadingPart : String := "\x7b\"a\"\"hi\"\"on\"(goto b;)\x7d"

def endingPart : String := "\n\x7b\"b\"\"bye\"\"end\"(exit ;)\x7d"

/-- The first part leads to a branch that only the second one has. -/
theorem branches_independent_leading :
    let options : Options := .ofNames [] false
    options.strict = false ∧ Source.IsPart leadingPart.toList ∧ Source.IsPart endingPart.toList ∧
      ∃ whole left right, compile options (titled "T" (leadingPart ++ endingPart)) = .ok whole ∧
        compile options (titled "T" leadingPart) = .ok left ∧
        compile options (titled "T" endingPart) = .ok right ∧
        whole.title = left.title ∧ whole.title = right.title ∧
          whole.branches = left.branches ++ right.branches := by
  intro options
  have leading : Source.IsPart leadingPart.toList := ⟨rfl, by decide⟩
  have ending : Source.IsPart endingPart.toList := ⟨rfl, by decide⟩
  have independent := branches_independent options "T" leadingPart endingPart rfl leading ending
  have leads : ∃ left, compile options (titled "T" leadingPart) = .ok left := ⟨_, rfl⟩
  have ends : ∃ right, compile options (titled "T" endingPart) = .ok right := ⟨_, rfl⟩
  obtain ⟨whole, compiled⟩ := independent.1.mpr ⟨leads, ends⟩
  obtain ⟨left, here⟩ := leads
  obtain ⟨right, there⟩ := ends
  exact ⟨rfl, leading, ending, whole, left, right, compiled, here, there,
    independent.2 whole left right compiled here there⟩

end Parley
