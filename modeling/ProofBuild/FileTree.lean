import ProofBuild.Text.Bytes

/-!
File trees as values. A location lists the names from a file or directory outward to the root,
innermost first, so the location around `name :: parent` is `parent`. The root is always a
directory, and whatever lies at `name :: parent` lies in a directory: every tree carries the
proof. An operation that would break this leaves the tree as it is. The main statements give
the node at each location after each operation.

A tree says where directories and files are and what the files hold. It has no permissions to read
or write, no links, and no device that may be full or broken. So a plain file in a directory can
always be read, written over, removed and renamed. An operation on a path fails for the shape of the
tree, the text of the path, or bytes that are no text, and for nothing else (`FileError`).
-/

namespace ProofBuild

/-- The ways in which an operation on a path fails: what lies on the way or at its end, names and paths
that are too long or hold a zero character, and contents that are no text. There is none for a refused
permission, a link or a device, since trees have none of them. -/
inductive FileError where
  | notFound
  | alreadyExists
  | notDirectory
  | isDirectory
  | nameTooLong
  /-- the bytes of a file are no text -/
  | notText
  /-- a path holds the character that ends path texts -/
  | zeroCharacter
  deriving DecidableEq, Repr

def FileError.message : FileError → String
  | .notFound => "No such file or directory (os error 2)"
  | .alreadyExists => "File exists (os error 17)"
  | .notDirectory => "Not a directory (os error 20)"
  | .isDirectory => "Is a directory (os error 21)"
  | .nameTooLong => "File name too long (os error 36)"
  | .notText => "stream did not contain valid UTF-8"
  | .zeroCharacter => "file name contained an unexpected NUL byte"

/-- The names from a node outward to the root. -/
abbrev Location := List String

/-- What lies at a location. Whether a file may be started as a program is the one permission that is
kept; every file can be read, written over, removed and renamed. -/
inductive Node where
  | directory
  | file (content : Bytes) (executable : Bool)
  deriving DecidableEq

/-- The node of the first entry at a location. -/
def findNode (location : Location) : List (Location × Node) → Option Node
  | [] => none
  | entry :: rest => if location = entry.1 then some entry.2 else findNode location rest

/-- What lies at a location; the root needs no entry. -/
def nodeAt (entries : List (Location × Node)) : Location → Option Node
  | [] => some .directory
  | name :: parent => findNode (name :: parent) entries

/-- Every entry that is found lies in a directory. -/
def Rooted (entries : List (Location × Node)) : Prop :=
  ∀ name parent, (nodeAt entries (name :: parent)).isSome →
    nodeAt entries parent = some .directory

/-- A file tree, seen from a working directory. -/
structure FileTree where
  workingDirectory : Location
  entries : List (Location × Node)
  rooted : Rooted entries

namespace FileTree

/-- The tree of the root alone, seen from `workingDirectory`. -/
def bare (workingDirectory : Location) : FileTree :=
  ⟨workingDirectory, [], by intro name parent found; simp [nodeAt, findNode] at found⟩

instance : Inhabited FileTree := ⟨bare []⟩

def node? (tree : FileTree) (location : Location) : Option Node := nodeAt tree.entries location

/-- Whether a directory lies at a location. -/
def Directory (tree : FileTree) (location : Location) : Prop :=
  tree.node? location = some .directory

instance (tree : FileTree) (location : Location) : Decidable (tree.Directory location) :=
  inferInstanceAs (Decidable (tree.node? location = some .directory))

@[simp] theorem node?_root (tree : FileTree) : tree.node? [] = some .directory := rfl

theorem directory_of_node? {tree : FileTree} {name : String} {parent : Location} {node : Node}
    (found : tree.node? (name :: parent) = some node) : tree.Directory parent :=
  tree.rooted name parent (by rw [show nodeAt tree.entries (name :: parent) = some node from found]; rfl)

theorem nodeAt_cons (name : String) (parent : Location) (node : Node)
    (entries : List (Location × Node)) (location : Location) :
    nodeAt ((name :: parent, node) :: entries) location =
      if location = name :: parent then some node else nodeAt entries location := by
  cases location with
  | nil => simp [nodeAt]
  | cons first rest => simp [nodeAt, findNode]

theorem findNode_filter (keep : Location → Bool) (entries : List (Location × Node))
    (location : Location) :
    findNode location (entries.filter fun entry => keep entry.1) =
      if keep location then findNode location entries else none := by
  induction entries with
  | nil => simp [findNode]
  | cons first rest ih =>
      by_cases kept : keep first.1
      · by_cases same : location = first.1
        · simp [kept, findNode, same]
        · simp [kept, findNode, same, ih]
      · have dropped : keep first.1 = false := by simpa using kept
        by_cases same : location = first.1
        · subst same
          simpa [dropped] using ih
        · simp [dropped, ih, findNode, same]

/-- Put a file into a directory, over a file of that name. A directory of that name stays. -/
def setFile (tree : FileTree) (name : String) (parent : Location) (content : Bytes)
    (executable : Bool) : FileTree :=
  if allowed : tree.Directory parent ∧ ¬ tree.Directory (name :: parent) then
    { tree with
      entries := (name :: parent, .file content executable) :: tree.entries
      rooted := by
        intro inner outer found
        rw [nodeAt_cons] at found
        rw [nodeAt_cons]
        split at found
        · rename_i same
          cases same
          have different : parent ≠ name :: parent := by
            intro same
            have lengths := congrArg List.length same
            simp at lengths
          simpa [different] using (show nodeAt tree.entries parent = _ from allowed.1)
        · have above := tree.rooted inner outer found
          have different : outer ≠ name :: parent := fun same => allowed.2 (same ▸ above)
          simpa [different] using above }
  else tree

/-- Put an empty directory where nothing is, inside a directory. -/
def addDirectory (tree : FileTree) (name : String) (parent : Location) : FileTree :=
  if allowed : tree.Directory parent ∧ tree.node? (name :: parent) = none then
    { tree with
      entries := (name :: parent, .directory) :: tree.entries
      rooted := by
        intro inner outer found
        rw [nodeAt_cons] at found
        rw [nodeAt_cons]
        split
        · rfl
        · split at found
          · rename_i same
            cases same
            exact allowed.1
          · exact tree.rooted inner outer found }
  else tree

/-- Take a file away. A directory stays. -/
def eraseFile (tree : FileTree) (location : Location) : FileTree :=
  if holds : tree.Directory location then tree
  else
    { tree with
      entries := tree.entries.filter fun entry => entry.1 ≠ location
      rooted := by
        intro inner outer found
        have kept : ∀ place, nodeAt (tree.entries.filter fun entry => entry.1 ≠ location) place =
            if place = location then (if place = [] then some .directory else none)
            else nodeAt tree.entries place := by
          intro place
          cases place with
          | nil => simp [nodeAt]
          | cons first rest =>
              simp only [nodeAt]
              rw [findNode_filter (fun place => place ≠ location)]
              by_cases same : first :: rest = location
              · simp [← same]
              · simp [same]
        rw [kept] at found ⊢
        split at found
        · simp at found
        · have above := tree.rooted inner outer found
          split
          · rename_i same
            exact absurd (same ▸ above) holds
          · exact above }

/-- Whether `place` is `top` or lies below it. -/
def Within (top place : Location) : Prop := top <:+ place

instance (top place : Location) : Decidable (Within top place) :=
  inferInstanceAs (Decidable (top <:+ place))

/-- Take a node away with everything below it. The root stays, but empty. -/
def removeSubtree (tree : FileTree) (top : Location) : FileTree :=
  { tree with
    entries := tree.entries.filter fun entry => ¬ Within top entry.1
    rooted := by
      intro inner outer found
      have kept : ∀ place, nodeAt (tree.entries.filter fun entry => ¬ Within top entry.1) place =
          if Within top place then (if place = [] then some .directory else none)
          else nodeAt tree.entries place := by
        intro place
        cases place with
        | nil => simp [nodeAt]
        | cons first rest =>
            simp only [nodeAt]
            rw [findNode_filter (fun place => ¬ Within top place)]
            by_cases below : Within top (first :: rest) <;> simp [below]
      rw [kept] at found ⊢
      split at found
      · simp at found
      · rename_i outside
        split
        · rename_i below
          exact absurd (List.IsSuffix.trans below (List.suffix_cons inner outer)) outside
        · exact tree.rooted inner outer found }

/-- The file that is put is found; all other locations are as before. -/
theorem node?_setFile {tree : FileTree} {name : String} {parent : Location}
    (content : Bytes) (executable : Bool) (inside : tree.Directory parent)
    (free : ¬ tree.Directory (name :: parent)) (location : Location) :
    (tree.setFile name parent content executable).node? location =
      if location = name :: parent then some (.file content executable)
      else tree.node? location := by
  rw [setFile, dif_pos ⟨inside, free⟩]
  exact nodeAt_cons name parent _ _ location

/-- The directory that is put is found; all other locations are as before. -/
theorem node?_addDirectory {tree : FileTree} {name : String} {parent : Location}
    (inside : tree.Directory parent) (free : tree.node? (name :: parent) = none)
    (location : Location) :
    (tree.addDirectory name parent).node? location =
      if location = name :: parent then some .directory else tree.node? location := by
  rw [addDirectory, dif_pos ⟨inside, free⟩]
  exact nodeAt_cons name parent _ _ location

/-- Nothing is where a file was taken away; all other locations are as before. -/
theorem node?_eraseFile {tree : FileTree} {location : Location}
    (file : ¬ tree.Directory location) (place : Location) :
    (tree.eraseFile location).node? place =
      if place = location then none else tree.node? place := by
  have different : location ≠ [] := fun root => file (root ▸ rfl)
  rw [eraseFile, dif_neg file]
  simp only [node?]
  cases place with
  | nil => simp [nodeAt, Ne.symm different]
  | cons first rest =>
      simp only [nodeAt]
      rw [findNode_filter (fun place => place ≠ location)]
      by_cases same : first :: rest = location <;> simp [same]

end FileTree

end ProofBuild
