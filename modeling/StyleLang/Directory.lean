/-!
# Directories

The files that a run can see from its working directory, and what a path leads to. A path is
walked name by name, and every name but the last has to lead to a folder (`Directory.walk`). A file
that has been written reads back as it was written (`Directory.read_of_write`), and no other place
changes (`Directory.find?_of_write`).
-/

namespace StyleLang

/-- Why a file cannot be read or written. -/
inductive FileError where
  | missing
  | notDirectory
  | isDirectory
  | nameTooLong
  | denied
  | notText
  | other (text : String)
deriving DecidableEq

def FileError.message : FileError → String
  | missing => "No such file or directory (os error 2)"
  | notDirectory => "Not a directory (os error 20)"
  | isDirectory => "Is a directory (os error 21)"
  | nameTooLong => "File name too long (os error 36)"
  | denied => "Permission denied (os error 13)"
  | notText => "stream did not contain valid UTF-8"
  | other text => text

/-- A place as seen from the working directory: so many folders up and then down by names, where
the last name comes first. -/
structure Place where
  up : Nat
  down : List String
deriving DecidableEq

namespace Place

def here : Place := ⟨0, []⟩

def parent (place : Place) : Place :=
  match place.down with
  | [] => ⟨place.up + 1, []⟩
  | _ :: names => ⟨place.up, names⟩

/-- Where a name leads to from a place. -/
def step (place : Place) (name : String) : Place :=
  if name = "." then place
  else if name = ".." then place.parent
  else ⟨place.up, name :: place.down⟩

end Place

namespace Path

/-- The most bytes that a name in a path may have. -/
def nameLimit : Nat := 255

/-- The most bytes that a path may have. -/
def limit : Nat := 4095

def names (path : String) : List String :=
  (path.splitOn "/").filter (· ≠ "")

/-- The names on a path that is neither empty nor too long. -/
def names? (path : String) : Except FileError (List String) :=
  if path = "" then .error .missing
  else if path.utf8ByteSize > limit then .error .nameTooLong
  else .ok (names path)

/-- Whether a path can only lead to a folder, as it ends in a slash. -/
def asksForFolder (path : String) : Bool :=
  path.endsWith "/"

end Path

inductive Entry where
  | folder
  | file (content : ByteArray)

/-- What stands at each place, where the working directory and those above it are left out. -/
structure Directory where
  entries : Place → Option Entry

namespace Directory

def empty : Directory := ⟨fun _ => none⟩

/-- What stands at a place. The working directory and those above it are folders. -/
def find? (directory : Directory) (place : Place) : Option Entry :=
  if place.down = [] then some .folder else directory.entries place

def put (directory : Directory) (place : Place) (entry : Entry) : Directory :=
  ⟨fun other => if other = place then some entry else directory.entries other⟩

/-- Puts a folder at every place that the names lead through, and gives the last of them. -/
def putFolders (directory : Directory) (place : Place) : List String → Directory × Place
  | [] => (directory, place)
  | name :: names => (directory.put (place.step name) .folder).putFolders (place.step name) names

/-- A directory with a single file, and the folders on the way to it. -/
def ofFile (path : String) (content : ByteArray) : Directory :=
  let (directory, folder) := empty.putFolders .here (Path.names path).dropLast
  directory.put (folder.step ((Path.names path).getLast?.getD ".")) (.file content)

/-- Goes into a folder. -/
def enter (directory : Directory) (place : Place) : Except FileError Place :=
  match directory.find? place with
  | some .folder => .ok place
  | some (.file _) => .error .notDirectory
  | none => .error .missing

/-- Follows a name out of a folder. -/
def follow (directory : Directory) (place : Place) (name : String) : Except FileError Place := do
  let folder ← directory.enter place
  if name.utf8ByteSize > Path.nameLimit then .error .nameTooLong else .ok (folder.step name)

/-- The place that names lead to, where nothing may stand yet. -/
def walk (directory : Directory) (place : Place) (names : List String) : Except FileError Place :=
  names.foldlM directory.follow place

/-- The content of the file at a path. -/
def read (directory : Directory) (path : String) : Except FileError ByteArray := do
  let place ← directory.walk .here (← Path.names? path)
  match directory.find? place with
  | none => .error .missing
  | some .folder => .error .isDirectory
  | some (.file content) => if Path.asksForFolder path then .error .notDirectory else .ok content

def readText (directory : Directory) (path : String) : Except FileError String := do
  (String.fromUTF8? (← directory.read path)).elim (.error .notText) .ok

/-- The place where a path puts a file, be there one or not. -/
def target (directory : Directory) (path : String) : Except FileError Place := do
  let names ← Path.names? path
  let folder ← directory.enter (← directory.walk .here names.dropLast)
  if Path.asksForFolder path then .error .isDirectory
  let place ← directory.follow folder (names.getLast?.getD ".")
  match directory.find? place with
  | some .folder => .error .isDirectory
  | _ => .ok place

/-- Puts a file at a path, in place of the one that stands there. -/
def write (directory : Directory) (path : String) (content : ByteArray) :
    Except FileError Directory := do
  return directory.put (← directory.target path) (.file content)

variable {directory : Directory} {place folder other : Place} {name path : String}

theorem ok_of_bind {α β : Type} {x : Except FileError α} {f : α → Except FileError β} {b : β}
    (h : x >>= f = .ok b) : ∃ a, x = .ok a ∧ f a = .ok b :=
  match x, h with
  | .ok a, h => ⟨a, rfl, h⟩

theorem enter_eq_ok_iff :
    directory.enter place = .ok folder ↔
      directory.find? place = some .folder ∧ place = folder := by
  simp only [enter]
  split <;> simp_all

theorem follow_eq_ok_iff :
    directory.follow place name = .ok other ↔
      directory.find? place = some .folder ∧ name.utf8ByteSize ≤ Path.nameLimit
        ∧ place.step name = other := by
  simp only [follow]
  cases h : directory.enter place with
  | error e =>
    have hne : directory.find? place ≠ some .folder := fun hf => by
      rw [enter_eq_ok_iff.2 ⟨hf, rfl⟩] at h
      cases h
    simp [bind, Except.bind, hne]
  | ok folder =>
    obtain ⟨hf, rfl⟩ := enter_eq_ok_iff.1 h
    simp only [bind, Except.bind, hf, true_and]
    split
    · simp; omega
    · simp; omega

theorem find?_put (entry : Entry) :
    (directory.put place entry).find? other =
      if other.down ≠ [] ∧ other = place then some entry else directory.find? other := by
  simp only [find?, put]
  split <;> simp_all

/-- A walk goes through folders only, so what stands at any other place is nothing to it. -/
theorem walk_put (entry : Entry) (h : directory.find? place ≠ some .folder) {names : List String} :
    ∀ {start : Place}, directory.walk start names = .ok other →
      (directory.put place entry).walk start names = .ok other := by
  induction names with
  | nil => exact id
  | cons name names ih =>
    intro start hw
    simp only [walk, List.foldlM_cons] at hw ⊢
    cases hs : directory.follow start name with
    | error e =>
      rw [hs] at hw
      cases hw
    | ok next =>
      rw [hs] at hw
      obtain ⟨hf, hn, rfl⟩ := follow_eq_ok_iff.1 hs
      have hf' : (directory.put place entry).find? start = some .folder := by
        rw [find?_put, if_neg, hf]
        rintro ⟨-, rfl⟩
        exact h hf
      rw [follow_eq_ok_iff.2 ⟨hf', hn, rfl⟩]
      exact ih hw

/-- A file is put where its path leads to, and never in place of a folder. -/
theorem walk_of_target (h : directory.target path = .ok place) :
    (∃ names, Path.names? path = .ok names ∧ directory.walk .here names = .ok place)
      ∧ Path.asksForFolder path = false ∧ directory.find? place ≠ some .folder := by
  obtain ⟨names, hn, h⟩ := ok_of_bind h
  obtain ⟨start, hw, h⟩ := ok_of_bind h
  obtain ⟨folder, he, h⟩ := ok_of_bind h
  obtain ⟨-, rfl⟩ := enter_eq_ok_iff.1 he
  split at h
  · cases h
  rename_i ha
  obtain ⟨last, hf, h⟩ := ok_of_bind h
  split at h
  · cases h
  rename_i hl
  cases h
  refine ⟨⟨names, hn, ?_⟩, by simpa using ha, hl⟩
  cases hlast : names.getLast? with
  | none =>
    rw [hlast] at hf
    obtain ⟨hd, -, rfl⟩ := follow_eq_ok_iff.1 hf
    exact absurd hd hl
  | some name =>
    rw [hlast] at hf
    obtain ⟨front, rfl⟩ := List.getLast?_eq_some_iff.1 hlast
    rw [List.dropLast_concat] at hw
    simp only [walk, List.foldlM_append] at hw ⊢
    rw [hw]
    change (directory.follow start name >>= pure) = _
    rw [bind_pure]
    exact hf

variable {after : Directory} {content : ByteArray}

theorem eq_put_of_write (h : directory.write path content = .ok after) :
    ∃ place, directory.target path = .ok place ∧ after = directory.put place (.file content) := by
  obtain ⟨place, ht, h⟩ := ok_of_bind h
  cases h
  exact ⟨place, ht, rfl⟩

theorem read_of_write (h : directory.write path content = .ok after) :
    after.read path = .ok content := by
  obtain ⟨place, ht, rfl⟩ := eq_put_of_write h
  obtain ⟨⟨names, hn, hw⟩, ha, hf⟩ := walk_of_target ht
  have hd : place.down ≠ [] := fun hd => hf (by rw [find?, if_pos hd])
  simp only [read, hn, walk_put (.file content) hf hw, bind, Except.bind]
  rw [find?_put, if_pos ⟨hd, rfl⟩]
  simp [ha]

/-- Writing changes the place that the path leads to and no other. -/
theorem find?_of_write (h : directory.write path content = .ok after)
    (hp : directory.target path ≠ .ok place) : after.find? place = directory.find? place := by
  obtain ⟨target, ht, rfl⟩ := eq_put_of_write h
  rw [find?_put, if_neg]
  rintro ⟨-, rfl⟩
  exact hp ht

end Directory

end StyleLang
