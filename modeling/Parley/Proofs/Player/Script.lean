import Parley.Player.Script
import Parley.Proofs.Files.Disk

namespace Parley

theorem Path.isAbsolute_append {folder : String} (absolute : isAbsolute folder = true) (path : String) :
    isAbsolute (folder ++ path) = true := by
  unfold isAbsolute at *
  cases spelled : folder.toList with
  | nil => simp [spelled] at absolute
  | cons c rest => simpa [spelled] using absolute

theorem Path.isAbsolute_ofNames (names : List String) : isAbsolute (ofNames names) = true := by
  unfold ofNames
  cases names with
  | nil => decide
  | cons name rest => simp [isAbsolute, String.join_cons]

theorem Path.isAbsolute_join {folder : String} (absolute : isAbsolute folder = true) (path : String) :
    isAbsolute (join folder path) = true := by
  unfold join
  split
  · assumption
  · split
    · exact isAbsolute_append absolute path
    · exact isAbsolute_append (isAbsolute_append absolute "/") path

namespace Script

theorem resolve_ok {disk : Disk} {source path : String} (resolved : resolve disk source = .ok path) :
    Path.isAbsolute path = true ∧ disk.exists? path = true := by
  have settled (full : String) (absolute : Path.isAbsolute full = true)
      (found : (if disk.exists? full then Except.ok full
        else Except.error ⟨.command (.sourceMissing full), none⟩ : Except Failure String) = .ok path) :
      Path.isAbsolute path = true ∧ disk.exists? path = true := by
    split at found
    · rename_i present
      cases found
      exact ⟨absolute, present⟩
    · cases found
  unfold resolve at resolved
  by_cases absolute : Path.isAbsolute source = true
  · rw [if_pos absolute] at resolved
    exact settled source absolute resolved
  · rw [if_neg absolute] at resolved
    cases working : disk.working with
    | none =>
      rw [working] at resolved
      cases resolved
    | some names =>
      rw [working] at resolved
      exact settled _ (Path.isAbsolute_join (Path.isAbsolute_ofNames names) source) resolved

theorem resolve_self {disk : Disk} {path : String} (absolute : Path.isAbsolute path = true)
    (present : disk.exists? path = true) : resolve disk path = .ok path := by
  unfold resolve
  rw [if_pos absolute]
  exact if_pos present

theorem load_ok {disk : Disk} {source : String} {script : Script}
    (loaded : load disk source = .ok script) :
    resolve disk source = .ok script.path ∧ disk.read script.path = .ok script.text := by
  obtain ⟨path, resolved, loaded⟩ := bind_ok loaded
  split at loaded
  · split at loaded
    · rename_i read
      cases loaded
      exact ⟨resolved, read⟩
    · cases loaded
  · cases loaded

theorem load_of_read {disk : Disk} {path text : String} (absolute : Path.isAbsolute path = true)
    (read : disk.read path = .ok text) : load disk path = .ok ⟨path, text⟩ := by
  obtain ⟨content, found, -⟩ := Disk.read_ok_iff.mp read
  simp [load, resolve_self absolute (Disk.exists?_of_read read), found, read]

/-- A script stays as it is while other files are written. -/
theorem load_kept {before after : Disk} {source : String} {script : Script}
    (loaded : load before source = .ok script) (kept : before.Keeps after written)
    (apart : written ≠ before.destination script.path) : load after script.path = .ok script := by
  obtain ⟨resolved, read⟩ := load_ok loaded
  obtain ⟨content, found, decoded⟩ := Disk.read_ok_iff.mp read
  exact load_of_read (resolve_ok resolved).1 
    (Disk.read_ok_iff.mpr ⟨content, kept.look apart found, decoded⟩)

theorem load_self {disk : Disk} {source : String} {script : Script}
    (loaded : load disk source = .ok script) : load disk script.path = .ok script :=
  load_of_read (resolve_ok (load_ok loaded).1).1 (load_ok loaded).2

end Script

end Parley
