import FlightRecorder.Storage

/-!
# Files behind paths

A path that names a file goes on naming it when the file is created, written or removed: the way to
it leads through directories, and only a place changes where no directory was.

* `content?` — what a path shows
* `locate_put`, `locate_erase` — the path of a file that was put in its place, or taken from it
* `get?_remove_self`, `get?_remove_other` — a removed file, and everything else
-/

namespace FlightRecorder.Storage

/-- The content of the file that a path names. -/
def content? (s : Storage) (path : String) : Option Bytes :=
  match s.locate path with
  | .error _ => none
  | .ok place =>
    match s.get? place with
    | some (.file content) => some content
    | _ => none

/-- A path names a file that is or may be in a directory of the tree. -/
theorem locate_eq_ok_iff {s : Storage} {path : String} {place : Place} :
    s.locate path = .ok place ↔
      path ≠ "" ∧ path.endsWith "/" = false ∧
      ∃ last directory, (pathNames path).getLast? = some last ∧ ¬ (last = "." ∨ last = "..") ∧
        s.walk (s.origin path) (pathNames path).dropLast = .ok directory ∧
        s.get? (directory ++ [last]) ≠ some .directory ∧ place = directory ++ [last] := by
  unfold locate
  constructor
  · intro h
    split at h
    · cases h
    · next hpath =>
      split at h
      · cases h
      · next last hlast =>
        split at h
        · split at h <;> cases h
        · next hdots =>
          split at h
          · cases h
          · next directory hwalk =>
            split at h
            · cases h
            · next hslash =>
              split at h
              · cases h
              · next hentry =>
                cases h
                exact ⟨hpath, by simpa using hslash, last, directory, hlast, hdots, hwalk,
                  hentry, rfl⟩
  · rintro ⟨hpath, hslash, last, directory, hlast, hdots, hwalk, hentry, rfl⟩
    rw [if_neg hpath]
    simp only [hlast, if_neg hdots, hwalk, hslash, Bool.false_eq_true, if_false]

theorem get?_of_locate {s : Storage} {path : String} {place : Place}
    (h : s.locate path = .ok place) : place ≠ [] ∧ s.get? place ≠ some .directory := by
  obtain ⟨-, -, last, directory, -, -, -, hentry, rfl⟩ := locate_eq_ok_iff.mp h
  exact ⟨by simp, hentry⟩

/-- A walk goes through directories only, so what happens at a place without one does not matter. -/
theorem walk_congr {s s' : Storage} {place : Place} (h : s.get? place ≠ some .directory)
    (hsame : ∀ other, other ≠ place → s'.get? other = s.get? other) {start directory : Place}
    {names : List String} (hwalk : s.walk start names = .ok directory) :
    s'.walk start names = .ok directory := by
  induction names generalizing start with
  | nil => exact hwalk
  | cons name names ih =>
    rw [walk] at hwalk ⊢
    split
    · next hstay =>
      rw [if_pos hstay] at hwalk
      exact ih hwalk
    · next hstay =>
      rw [if_neg hstay] at hwalk
      split
      · next hup =>
        rw [if_pos hup] at hwalk
        exact ih hwalk
      · next hup =>
        rw [if_neg hup] at hwalk
        split at hwalk
        · next hdir =>
          have hne : start ++ [name] ≠ place := by
            rintro rfl
            exact h hdir
          rw [hsame _ hne, hdir]
          exact ih hwalk
        · cases hwalk
        · cases hwalk

/-- A path still names its place when nothing but what is there has changed, and no directory has
come there. -/
theorem locate_congr {s s' : Storage} {path : String} {place : Place}
    (h : s.locate path = .ok place) (horigin : s'.workingDirectory = s.workingDirectory)
    (hsame : ∀ other, other ≠ place → s'.get? other = s.get? other)
    (hfile : s'.get? place ≠ some .directory) : s'.locate path = .ok place := by
  obtain ⟨-, hold⟩ := get?_of_locate h
  obtain ⟨hpath, hslash, last, directory, hlast, hdots, hwalk, -, rfl⟩ := locate_eq_ok_iff.mp h
  refine locate_eq_ok_iff.mpr ⟨hpath, hslash, last, directory, hlast, hdots, ?_, hfile, rfl⟩
  rw [origin, horigin]
  exact walk_congr hold hsame hwalk

/-- **A path still names its file when there is something else in the file.** -/
theorem locate_put {s : Storage} {path : String} {place : Place} (content : Bytes)
    (h : s.locate path = .ok place) : (s.put place (.file content)).locate path = .ok place := by
  refine locate_congr h rfl (fun other hother => get?_put_other s _ hother) ?_
  rw [get?_put_self s _ (get?_of_locate h).1]
  exact fun hc => by cases hc

/-- **A path still names the place of its file when the file is gone.** -/
theorem locate_erase {s : Storage} {path : String} {place : Place} (h : s.locate path = .ok place) :
    (s.erase place).locate path = .ok place := by
  refine locate_congr h rfl (fun other hother => get?_erase_other s hother) ?_
  rw [get?_erase_self s (get?_of_locate h).1]
  exact fun hc => by cases hc

/-- **What is written to the place of a path is what the path shows.** -/
theorem content?_put {s : Storage} {path : String} {place : Place} (content : Bytes)
    (h : s.locate path = .ok place) :
    (s.put place (.file content)).content? path = some content := by
  rw [content?, locate_put content h]
  simp only [get?_put_self s (.file content) (get?_of_locate h).1]

theorem create_eq_ok_iff {s created : Storage} {path : String} {place : Place} :
    s.create path = .ok (place, created) ↔
      s.locate path = .ok place ∧ created = s.put place (.file []) := by
  unfold create
  constructor
  · intro h
    split at h
    · cases h
    · next hlocate =>
      cases h
      exact ⟨hlocate, rfl⟩
  · rintro ⟨hlocate, rfl⟩
    rw [hlocate]

theorem remove_of_locate {s : Storage} {path : String} {place : Place}
    (h : s.locate path = .ok place) : s.remove path = s.erase place := by
  rw [remove, h]

theorem remove_of_fault {s : Storage} {path : String} {fault : StorageFault}
    (h : s.locate path = .error fault) : s.remove path = s := by
  rw [remove, h]

/-- **Removing a file leaves every other place as it was.** -/
theorem get?_remove_other {s : Storage} {path : String} {other : Place}
    (h : s.locate path ≠ .ok other) : (s.remove path).get? other = s.get? other := by
  cases hl : s.locate path with
  | error fault => rw [remove_of_fault hl]
  | ok place =>
    rw [remove_of_locate hl, get?_erase_other]
    rintro rfl
    exact h hl

/-- **A removed file is gone**, and its path shows nothing. -/
theorem get?_remove_self {s : Storage} {path : String} {place : Place}
    (h : s.locate path = .ok place) :
    (s.remove path).get? place = none ∧ (s.remove path).content? path = none := by
  have hgone : (s.erase place).get? place = none := get?_erase_self s (get?_of_locate h).1
  rw [remove_of_locate h]
  refine ⟨hgone, ?_⟩
  rw [content?, locate_erase h]
  simp only [hgone]

end FlightRecorder.Storage
