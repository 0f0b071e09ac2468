import ProofBuild.FileTree
import ProofBuild.Path

/-!
Reaching files by path. A path is walked one piece at a time from the root or the working
directory; every piece but the last must name a directory, `.` stays, `..` goes out, and a slash
at the end asks for a directory. Operations that make or unmake a name walk to the directory
around it first. An operation that fails changes nothing, except that making a chain of
directories keeps those it has made.
-/

namespace ProofBuild

/-- A path as the walk sees it. -/
structure Address where
  absolute : Bool
  steps : List String
  slashed : Bool

-- The longest name of a file or directory, and the longest path, in bytes.
def nameLimit : Nat := 255

def pathLimit : Nat := 4095

def Path.address (path : Path) : Except FileError Address :=
  let characters := path.text.toList
  if '\x00' ∈ characters then .error .zeroCharacter
  else if characters = [] then .error .notFound
  else if pathLimit < path.text.utf8ByteSize then .error .nameTooLong
  else .ok ⟨path.isAbsolute, path.pieces.filter (· ≠ ""), characters.getLast? = some '/'⟩

/-- Where a new or old name stands: a name in a directory, or a place that has no name of its
own to make or unmake. -/
inductive Target where
  | named (directory : Location) (name : String) (slashed : Bool)
  | fixed

namespace FileTree

/-- Follow each piece from a directory. The place reached need not exist. -/
def descend (tree : FileTree) : Location → List String → Except FileError Location
  | here, [] => .ok here
  | here, step :: rest =>
      match tree.node? here with
      | none => .error .notFound
      | some (.file ..) => .error .notDirectory
      | some .directory =>
          if step = "." then descend tree here rest
          else if step = ".." then descend tree here.tail rest
          else if nameLimit < step.utf8ByteSize then .error .nameTooLong
          else descend tree (step :: here) rest

def startOf (tree : FileTree) (address : Address) : Location :=
  if address.absolute then [] else tree.workingDirectory

def locate (tree : FileTree) (path : Path) : Except FileError Location := do
  let address ← path.address
  tree.descend (tree.startOf address)
    (address.steps ++ if address.slashed then ["."] else [])

def status (tree : FileTree) (path : Path) : Except FileError Node := do
  let location ← tree.locate path
  match tree.node? location with
  | none => .error .notFound
  | some node => .ok node

/-- The directory around the last piece of a path, and that piece. -/
def target (tree : FileTree) (path : Path) : Except FileError Target := do
  let address ← path.address
  match address.steps.getLast? with
  | none => .ok .fixed
  | some name =>
      let around ← tree.descend (tree.startOf address) address.steps.dropLast
      match tree.node? around with
      | none => .error .notFound
      | some (.file ..) => .error .notDirectory
      | some .directory =>
          if name = "." ∨ name = ".." then .ok .fixed
          else if nameLimit < name.utf8ByteSize then .error .nameTooLong
          else .ok (.named around name address.slashed)

def present (tree : FileTree) (path : Path) : Bool :=
  match tree.status path with
  | .ok _ => true
  | .error _ => false

def isDirectory (tree : FileTree) (path : Path) : Bool :=
  match tree.status path with
  | .ok .directory => true
  | _ => false

def isFile (tree : FileTree) (path : Path) : Bool :=
  match tree.status path with
  | .ok (.file ..) => true
  | _ => false

def isExecutable (tree : FileTree) (path : Path) : Bool :=
  match tree.status path with
  | .ok (.file _ executable) => executable
  | _ => false

def read (tree : FileTree) (path : Path) : Except FileError Bytes := do
  match ← tree.status path with
  | .directory => .error .isDirectory
  | .file content _ => .ok content

def readText (tree : FileTree) (path : Path) : Except FileError String := do
  match Utf8.decode? (← tree.read path) with
  | none => .error .notText
  | some text => .ok text

/-- Write a file, new or over an old one; an old file stays executable. -/
def write (tree : FileTree) (path : Path) (content : Bytes) : Except FileError FileTree := do
  match ← tree.target path with
  | .fixed => .error .isDirectory
  | .named around name slashed =>
      if slashed then .error .isDirectory
      else match tree.node? (name :: around) with
        | some .directory => .error .isDirectory
        | some (.file _ executable) => .ok (tree.setFile name around content executable)
        | none => .ok (tree.setFile name around content false)

def setExecutable (tree : FileTree) (path : Path) (executable : Bool) :
    Except FileError FileTree := do
  match ← tree.target path with
  | .fixed => .error .isDirectory
  | .named around name _ =>
      match tree.node? (name :: around) with
      | some (.file content _) => .ok (tree.setFile name around content executable)
      | some .directory => .error .isDirectory
      | none => .error .notFound

def removeFile (tree : FileTree) (path : Path) : Except FileError FileTree := do
  match ← tree.target path with
  | .fixed => .error .isDirectory
  | .named around name slashed =>
      match tree.node? (name :: around) with
      | none => .error .notFound
      | some .directory => .error .isDirectory
      | some (.file ..) =>
          if slashed then .error .notDirectory else .ok (tree.eraseFile (name :: around))

/-- Give a file a new name, over a file that has it. -/
def renameFile (tree : FileTree) (source destination : Path) : Except FileError FileTree := do
  match ← tree.target source, ← tree.target destination with
  | .named sourceAround sourceName _, .named around name slashed =>
      match tree.node? (sourceName :: sourceAround), tree.node? (name :: around) with
      | none, _ => .error .notFound
      | some .directory, _ => .error .isDirectory
      | some (.file ..), some .directory => .error .isDirectory
      | some (.file content executable), _ =>
          if slashed then .error .notDirectory
          else if sourceName :: sourceAround = name :: around then .ok tree
          else .ok ((tree.eraseFile (sourceName :: sourceAround)).setFile name around content
            executable)
  | _, _ => .error .isDirectory

def makeDirectory (tree : FileTree) (path : Path) : Except FileError FileTree := do
  match ← tree.target path with
  | .fixed => .error .alreadyExists
  | .named around name _ =>
      match tree.node? (name :: around) with
      | some _ => .error .alreadyExists
      | none => .ok (tree.addDirectory name around)

/-- Make the innermost of these directories whose surroundings exist, and list those inside it
that are still missing, outermost first. -/
def firstDirectory (tree : FileTree) :
    List Path → List Path → Except FileError (FileTree × List Path)
  | missing, [] => .ok (tree, missing)
  | missing, path :: above =>
      match tree.makeDirectory path with
      | .ok grown => .ok (grown, missing)
      | .error .notFound => firstDirectory tree (path :: missing) above
      | .error .alreadyExists =>
          if tree.isDirectory path then .ok (tree, missing) else .error .alreadyExists
      | .error error => .error error

/-- Make directories one inside the other; the tree keeps those made before a failure. -/
def fillDirectories (tree : FileTree) : List Path → FileTree × Except FileError Unit
  | [] => (tree, .ok ())
  | path :: rest =>
      match tree.makeDirectory path with
      | .ok grown => fillDirectories grown rest
      | .error .alreadyExists =>
          if tree.isDirectory path then fillDirectories tree rest
          else (tree, .error .alreadyExists)
      | .error error => (tree, .error error)

/-- Make a directory with all directories around it. -/
def makeDirectories (tree : FileTree) (path : Path) : FileTree × Except FileError Unit :=
  match tree.firstDirectory [] path.ancestors with
  | .error error => (tree, .error error)
  | .ok (grown, missing) => grown.fillDirectories missing

/-- Remove a file, or a directory with everything below it. -/
def removeAll (tree : FileTree) (path : Path) : Except FileError FileTree := do
  match ← tree.target path with
  | .fixed => .error .isDirectory
  | .named around name slashed =>
      match tree.node? (name :: around) with
      | none => .error .notFound
      | some .directory => .ok (tree.removeSubtree (name :: around))
      | some (.file ..) =>
          if slashed then .error .notDirectory else .ok (tree.eraseFile (name :: around))

/-- The names from the working directory inward to a location below it. -/
def relativeNames? (tree : FileTree) (location : Location) : Option (List String) :=
  let depth := location.length - tree.workingDirectory.length
  if tree.workingDirectory.length < location.length ∧
      location.drop depth = tree.workingDirectory then
    some (location.take depth).reverse
  else none

/-- Everything below the working directory as relative paths in order, directories with a slash
at their end. -/
def listing (tree : FileTree) : List String :=
  let locations := (tree.entries.map (·.1)).eraseDups
  let named := locations.filterMap fun location => do
    let names ← tree.relativeNames? location
    let node ← tree.node? location
    let text := "/".intercalate names
    some (match node with
      | .directory => text ++ "/"
      | .file .. => text)
  named.mergeSort (· ≤ ·)

end FileTree

end ProofBuild
