import Parley.Files.Folder

namespace Parley

def Node.at? : Node → List String → Option Node
  | folder inside, names => inside.node? names
  | file content, [] => some (file content)
  | file _, _ :: _ => none

@[simp]
theorem Node.at?_nil (node : Node) : node.at? [] = some node := by
  cases node <;> rfl

/-- What there is to see of a node from outside: the content of a file. -/
def Node.content? : Node → Option ByteArray
  | file content => some content
  | folder _ => none

namespace Folder

theorem find?_entry (wanted name : String) (node : Node) (rest : Folder) :
    (node.entry name rest).find? wanted = if name = wanted then some node else rest.find? wanted := by
  cases node <;> rfl

theorem put_entry (wanted name : String) (node first : Node) (rest : Folder) :
    (first.entry name rest).put wanted node =
      if name < wanted then first.entry name (rest.put wanted node)
      else if name = wanted then node.entry wanted rest
      else node.entry wanted (first.entry name rest) := by
  cases first <;> rfl

/-- An entry is found under its name and the others as before, whether the folder is in order or not. -/
theorem find?_put (name wanted : String) (node : Node) (start : Folder) :
    (start.put name node).find? wanted = if name = wanted then some node else start.find? wanted := by
  have step (title : String) (first : Node) (rest : Folder)
      (ih : (rest.put name node).find? wanted
        = if name = wanted then some node else rest.find? wanted) :
      ((first.entry title rest).put name node).find? wanted
        = if name = wanted then some node else (first.entry title rest).find? wanted := by
    rw [put_entry]
    by_cases before : title < name
    · rw [if_pos before, find?_entry, find?_entry, ih]
      by_cases here : title = wanted
      · have later : name ≠ wanted := by
          rintro rfl
          exact String.lt_irrefl _ (here ▸ before)
        rw [if_pos here, if_neg later, if_pos here]
      · rw [if_neg here, if_neg here]
    · rw [if_neg before]
      by_cases same : title = name
      · rw [if_pos same, find?_entry, find?_entry, same]
        by_cases here : name = wanted
        · rw [if_pos here, if_pos here]
        · rw [if_neg here, if_neg here, if_neg here]
      · rw [if_neg same, find?_entry]
  induction start with
  | empty => exact find?_entry wanted name node empty
  | file title content rest ih => exact step title (.file content) rest ih
  | folder title inside rest _ ih => exact step title (.folder inside) rest ih

theorem node?_cons (start : Folder) (name : String) (rest : List String) :
    start.node? (name :: rest) = (start.find? name).bind (·.at? rest) := by
  cases rest with
  | nil =>
    rw [node?]
    cases start.find? name <;> simp
  | cons second more =>
    cases found : start.find? name with
    | none => simp [node?, found]
    | some node => cases node <;> simp [node?, found, Node.at?]

theorem node?_append (start : Folder) (place rest : List String) :
    start.node? (place ++ rest) = (start.node? place).bind (·.at? rest) := by
  induction place generalizing start with
  | nil => rfl
  | cons name more ih =>
    rw [List.cons_append, node?_cons, node?_cons]
    cases start.find? name with
    | none => rfl
    | some node =>
      cases node with
      | folder inside => exact ih inside
      | file content =>
        cases more <;> cases rest <;> rfl

/-- Only folders have anything in them. -/
theorem node?_dropLast {start : Folder} {place : List String} (found : start.node? place = some node) :
    place = [] ∨ ∃ inside, start.node? place.dropLast = some (.folder inside) := by
  rcases List.eq_nil_or_concat place with rfl | ⟨above, name, rfl⟩
  · exact .inl rfl
  · right
    rw [List.concat_eq_append] at found ⊢
    rw [List.dropLast_concat]
    rw [node?_append] at found
    cases front : start.node? above with
    | none => simp [front] at found
    | some node =>
      cases node with
      | folder inside => exact ⟨inside, rfl⟩
      | file content => simp [front, Node.at?] at found

theorem store_cons (start : Folder) (node : Node) (name second : String) (more : List String) :
    start.store node (name :: second :: more) =
      match start.find? name with
      | some (.folder inside) => start.put name (.folder (inside.store node (second :: more)))
      | _ => start := by
  cases found : start.find? name with
  | none => simp [store, found]
  | some node => cases node <;> simp [store, found]

theorem node?_store_self {start inside : Folder} {place : List String} (node : Node)
    (named : place ≠ []) (parent : start.node? place.dropLast = some (.folder inside)) :
    (start.store node place).node? place = some node := by
  induction place generalizing start with
  | nil => exact absurd rfl named
  | cons name rest ih =>
    cases rest with
    | nil => rw [store, node?_cons, find?_put, if_pos rfl, Option.bind_some, Node.at?_nil]
    | cons second more =>
      rw [List.dropLast_cons_of_ne_nil (List.cons_ne_nil _ _), node?_cons] at parent
      obtain ⟨below, found, further⟩ := Option.bind_eq_some_iff.mp parent
      cases below with
      | file content => cases above : (second :: more).dropLast <;> simp [above, Node.at?] at further
      | folder below =>
        rw [store_cons, found, node?_cons, find?_put, if_pos rfl, Option.bind_some]
        exact ih (List.cons_ne_nil _ _) further

/-- What is stored where no folder was is seen nowhere else. -/
theorem content?_store {start : Folder} {place other : List String} {node : Node}
    (free : ∀ inside, start.node? place ≠ some (.folder inside))
    (bare : ∀ rest, rest ≠ [] → node.at? rest = none) (apart : other ≠ place) :
    ((start.store node place).node? other).map Node.content?
      = (start.node? other).map Node.content? := by
  induction place generalizing start other with
  | nil => rfl
  | cons name rest ih =>
    cases other with
    | nil => rfl
    | cons first below =>
      cases rest with
      | nil =>
        rw [store, node?_cons, node?_cons, find?_put]
        by_cases same : name = first
        · subst same
          have deeper : below ≠ [] := by
            rintro rfl
            exact apart rfl
          rw [if_pos rfl, Option.bind_some, bare below deeper]
          rw [node?] at free
          cases found : start.find? name with
          | none => rfl
          | some former =>
            cases former with
            | folder inside => exact absurd found (free inside)
            | file content =>
              cases below with
              | nil => exact absurd rfl deeper
              | cons _ _ => rfl
        · rw [if_neg same]
      | cons second more =>
        rw [store_cons]
        cases found : start.find? name with
        | none => rfl
        | some former =>
          cases former with
          | file content => rfl
          | folder inside =>
            simp only
            rw [node?_cons, node?_cons, find?_put]
            by_cases same : name = first
            · subst same
              rw [if_pos rfl, found, Option.bind_some, Option.bind_some]
              apply ih
              · intro deeper
                have led := free deeper
                rw [node?_cons, found, Option.bind_some] at led
                exact led
              · rintro rfl
                exact apart rfl
            · rw [if_neg same]

end Folder

end Parley
