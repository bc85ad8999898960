import Parley.Cli.Run
import Parley.Proofs.Failing
import Parley.Proofs.Files.Scripts

namespace Parley

namespace Cli

def verdict (options : Options) (content : ByteArray) : Except Failure Dialogue :=
  match String.fromUTF8? content with
  | some text => compile options text
  | none => .error ⟨.command (.sourceUnreadable .notText), none⟩

theorem compileAll_of_texts (options : Options) {files : List (String × ByteArray)}
    (texts : ∀ file ∈ files, String.fromUTF8? file.2 ≠ none) :
    compileAll options files = (files.map fun file => (file.1, verdict options file.2), none) := by
  induction files with
  | nil => rfl
  | cons file rest ih =>
    obtain ⟨text, texts⟩ := List.forall_mem_cons.mp texts
    cases read : String.fromUTF8? file.2 with
    | none => exact absurd read text
    | some text => simp [compileAll, verdict, read, ih texts]

theorem compileAll_of_binary (options : Options) {files : List (String × ByteArray)}
    (binary : ∃ file ∈ files, String.fromUTF8? file.2 = none) :
    (compileAll options files).2 = some ⟨.command (.sourceUnreadable .notText), none⟩ := by
  induction files with
  | nil => simp at binary
  | cons file rest ih =>
    cases read : String.fromUTF8? file.2 with
    | none => simp [compileAll, read]
    | some text =>
      have later : ∃ file ∈ rest, String.fromUTF8? file.2 = none := by simpa [read] using binary
      simp [compileAll, read, ih later]

/-- All of them are dialogues where none of them fails. -/
theorem all_isOk_iff (results : List (String × Except Failure Dialogue)) :
    (results.all fun result => result.2.isOk) = true ↔ (results.countP fun result => !result.2.isOk) = 0 := by
  simp [List.countP_eq_zero]

section Run

variable {disk : Disk} {compiling : Compiling} {root : String} {files : List (String × ByteArray)}

theorem run_check_of_texts (resolved : Script.resolve disk compiling.source = .ok root)
    (collected : Script.collect disk root = .ok files)
    (texts : ∀ file ∈ files, String.fromUTF8? file.2 ≠ none) (json : Bool) (console : Console) :
    let results := files.map fun file => (file.1, verdict compiling.options file.2)
    (Invocation.check compiling json).run disk console
      = ⟨if results.all fun result => result.2.isOk then 0 else 1,
          Report.ofLines (Report.check json results), results.filterMap checkWarning?, [], disk⟩ := by
  rw [Invocation.run, checkSources, resolved, ok_bind, collected, ok_bind,
    compileAll_of_texts compiling.options texts]
  rfl

theorem run_check_of_binary (resolved : Script.resolve disk compiling.source = .ok root)
    (collected : Script.collect disk root = .ok files)
    (binary : ∃ file ∈ files, String.fromUTF8? file.2 = none) (json : Bool) (console : Console) :
    ∃ warnings, (Invocation.check compiling json).run disk console
      = { Outcome.failure disk ⟨.command (.sourceUnreadable .notText), none⟩ with warnings } := by
  have stopped := compileAll_of_binary compiling.options binary
  obtain ⟨results, last⟩ : ∃ results, compileAll compiling.options files = (results, some _) :=
    ⟨_, Prod.ext rfl stopped⟩
  rw [Invocation.run, checkSources, resolved, ok_bind, collected, ok_bind, last]
  exact ⟨_, rfl⟩

end Run

/-- A check reports every dialogue source below its folder, in the order of the names that lead there, and counts
those that are no dialogues, provided that all of them are texts. One that is none stops it, and then nothing is
reported of any. -/
theorem check_reports {disk : Disk} {compiling : Compiling} {root : String} {inside : Folder}
    (resolved : Script.resolve disk compiling.source = .ok root)
    (found : disk.look root = .ok (.folder inside)) (ordered : inside.Ordered)
    (inhabited : ∃ place content, inside.node? place = some (.file content) ∧ Script.isNamed place = true)
    (json : Bool) (console : Console) :
    ∃ scripts : List (List String × ByteArray),
      (∀ place content, (place, content) ∈ scripts ↔
        inside.node? place = some (.file content) ∧ Script.isNamed place = true) ∧
      scripts.Pairwise (fun script other => script.1 < other.1) ∧
      let results := scripts.map fun script =>
        (Path.join root ("/".intercalate script.1), verdict compiling.options script.2)
      let failed := results.countP fun result => !result.2.isOk
      let outcome := (Invocation.check compiling json).run disk console
      outcome.disk = disk ∧
      ((∀ script ∈ scripts, String.fromUTF8? script.2 ≠ none) →
        outcome.code = (if failed = 0 then 0 else 1) ∧
        outcome.output = Report.ofLines ([if failed = 0 then "RESULT:OK" else "RESULT:ERROR"] ++
          results.map (fun result => Report.record json result.1 result.2) ++
          [s!"CHECKED:{scripts.length}|FAILED:{failed}"])) ∧
      ((∃ script ∈ scripts, String.fromUTF8? script.2 = none) →
        outcome.code = 1 ∧ outcome.output =
          Report.ofLines (Report.failure ⟨.command (.sourceUnreadable .notText), none⟩)) := by
  have filled : inside.scripts ≠ [] := by
    obtain ⟨place, content, leads, named⟩ := inhabited
    exact List.ne_nil_of_mem ((Folder.mem_scripts_iff ordered place content).mpr ⟨leads, named⟩)
  refine ⟨inside.scripts, Folder.mem_scripts_iff ordered, Folder.pairwise_scripts ordered, ?_⟩
  intro results failed outcome
  have collected := Script.collect_folder ordered found filled
  have complete (texts : ∀ script ∈ inside.scripts, String.fromUTF8? script.2 ≠ none) :
      outcome = ⟨if results.all fun result => result.2.isOk then 0 else 1,
        Report.ofLines (Report.check json results), results.filterMap checkWarning?, [], disk⟩ := by
    have reported := run_check_of_texts resolved collected (List.forall_mem_map.mpr texts) json console
    rw [List.map_map] at reported
    exact reported
  have stopped (binary : ∃ script ∈ inside.scripts, String.fromUTF8? script.2 = none) :
      ∃ warnings, outcome
        = { Outcome.failure disk ⟨.command (.sourceUnreadable .notText), none⟩ with warnings } := by
    obtain ⟨script, listed, unread⟩ := binary
    exact run_check_of_binary resolved collected ⟨_, List.mem_map_of_mem listed, unread⟩ json console
  refine ⟨?_, ?_, ?_⟩
  · by_cases texts : ∀ script ∈ inside.scripts, String.fromUTF8? script.2 ≠ none
    · rw [complete texts]
    · obtain ⟨warnings, shown⟩ := stopped (by simpa using texts)
      rw [shown]
      rfl
  · intro texts
    rw [complete texts]
    refine ⟨?_, ?_⟩
    · by_cases clean : failed = 0
      · rw [if_pos clean]
        exact if_pos ((all_isOk_iff results).mpr clean)
      · rw [if_neg clean]
        exact if_neg (mt (all_isOk_iff results).mp clean)
    · change Report.ofLines (Report.check json results) = _
      rw [Report.check, List.length_map]
  · intro binary
    obtain ⟨warnings, shown⟩ := stopped binary
    rw [shown]
    exact ⟨rfl, String.empty_append⟩

/-- A page, a note that is no text, and in a folder of its own a page that breaks off. -/
def pages : Folder :=
  .file "a.qdl" "[T]\x7b\"a\"\"m\"\"r\"(exit ;)\x7d".toUTF8
    (.folder "b" (.file "c.qdl" "[T".toUTF8 .empty) (.file "note" ⟨#[255]⟩ .empty))

def pagesDisk : Disk := ⟨.folder "pages" pages .empty, some []⟩

theorem check_reports_pages :
    let compiling : Compiling := ⟨"pages", [], true⟩
    Script.resolve pagesDisk "pages" = .ok "/pages" ∧ pagesDisk.look "/pages" = .ok (.folder pages) ∧
      pages.Ordered ∧
      (∃ place content, pages.node? place = some (.file content) ∧ Script.isNamed place = true) ∧
      ∃ scripts : List (List String × ByteArray),
        (∀ place content, (place, content) ∈ scripts ↔
          pages.node? place = some (.file content) ∧ Script.isNamed place = true) ∧
        scripts.Pairwise (fun script other => script.1 < other.1) ∧
        let results := scripts.map fun script =>
          (Path.join "/pages" ("/".intercalate script.1), verdict compiling.options script.2)
        let failed := results.countP fun result => !result.2.isOk
        let outcome := (Invocation.check compiling false).run pagesDisk (.stream [])
        outcome.disk = pagesDisk ∧
        ((∀ script ∈ scripts, String.fromUTF8? script.2 ≠ none) →
          outcome.code = (if failed = 0 then 0 else 1) ∧
          outcome.output = Report.ofLines ([if failed = 0 then "RESULT:OK" else "RESULT:ERROR"] ++
            results.map (fun result => Report.record false result.1 result.2) ++
            [s!"CHECKED:{scripts.length}|FAILED:{failed}"])) ∧
        ((∃ script ∈ scripts, String.fromUTF8? script.2 = none) →
          outcome.code = 1 ∧ outcome.output =
            Report.ofLines (Report.failure ⟨.command (.sourceUnreadable .notText), none⟩)) := by
  intro compiling
  have resolved : Script.resolve pagesDisk "pages" = .ok "/pages" := by rfl
  have found : pagesDisk.look "/pages" = .ok (.folder pages) := by rfl
  have ordered : pages.Ordered := by decide +kernel
  have inhabited : ∃ place content, pages.node? place = some (.file content) ∧ Script.isNamed place = true :=
    ⟨["a.qdl"], _, rfl, by decide⟩
  have reported := @check_reports pagesDisk compiling _ _ resolved found ordered inhabited false (.stream [])
  exact ⟨resolved, found, ordered, inhabited, reported⟩

/-- A page in front of a file that is no text: the page is a dialogue, and yet there is no report of it. -/
theorem check_loses_report :
    let page := "[T]\x7b\"a\"\"m\"\"r\"(exit ;)\x7d".toUTF8
    let disk : Disk := ⟨.file "a.qdl" page (.file "b.qdl" ⟨#[255]⟩ .empty), some []⟩
    let compiling : Compiling := ⟨"/", [], false⟩
    let results := [("/a.qdl", verdict compiling.options page), ("/b.qdl", verdict compiling.options ⟨#[255]⟩)]
    let outcome := (Invocation.check compiling false).run disk (.stream [])
    (verdict compiling.options page).isOk = true ∧
      outcome.output = "RESULT:ERROR\nERROR_CODE:CLI_SOURCE_READ\n" ++
        "ERROR_MSG_JSON:\"stream did not contain valid UTF-8\"\n" ∧
      outcome.output ≠ Report.ofLines (Report.check false results) := by
  decide +kernel

end Cli

end Parley
