import ProofBuild.Text.Pieces

/-!
Path texts and their component view. A path keeps the spelling it was written with; two
spellings name the same path when their components agree. Repeated slashes, a trailing slash
and inner `.` pieces are spelling only, while a `.` at the very start of a relative path is a
component of its own. A search path writes several directories into one text, with a separator
between them.
-/

namespace ProofBuild

structure Path where
  text : String
  deriving DecidableEq, Repr, Inhabited

namespace Path

/-- What one piece between slashes stands for. -/
inductive Component where
  | root
  | here
  | up
  | name (text : String)
  deriving DecidableEq, Repr

def pieces (path : Path) : List String :=
  Text.pieces '/' path.text

/-- The meaning of a piece that does not open the path: empty and `.` pieces have none. -/
def Component.ofPiece (piece : String) : Option Component :=
  if piece = "" ∨ piece = "." then none
  else if piece = ".." then some .up
  else some (.name piece)

def isAbsolute (path : Path) : Bool :=
  match path.text.toList with
  | '/' :: _ => true
  | _ => false

def isRelative (path : Path) : Bool := !path.isAbsolute

/-- Every piece with its meaning. The first piece is the root of an absolute path, and a `.`
there is a component. -/
def parts (path : Path) : List (String × Option Component) :=
  match path.pieces with
  | [] => []
  | first :: rest =>
      let opening :=
        if path.isAbsolute then some Component.root
        else if first = "." then some Component.here
        else Component.ofPiece first
      (first, opening) :: rest.map fun piece => (piece, Component.ofPiece piece)

def components (path : Path) : List Component :=
  path.parts.filterMap (·.2)

/-- Two spellings of one path. -/
def Same (left right : Path) : Prop := left.components = right.components

instance (left right : Path) : Decidable (Same left right) :=
  inferInstanceAs (Decidable (left.components = right.components))

def fileName? (path : Path) : Option String :=
  match path.components.getLast? with
  | some (.name text) => some text
  | _ => none

/-- Write pieces back with their slashes; the root alone is one slash. -/
def spell : List (String × Option Component) → String
  | [(_, some .root)] => "/"
  | pieces => "/".intercalate (pieces.map (·.1))

/-- The text up to the end of the component before the last one. There is none for a path
without components and for the root. -/
def parent? (path : Path) : Option Path :=
  match path.parts.reverse.dropWhile (·.2.isNone) with
  | [] => none
  | (_, some .root) :: _ => none
  | _ :: before => some ⟨spell (before.dropWhile (·.2.isNone)).reverse⟩

def directory (path : Path) : Path := path.parent?.getD ⟨""⟩

/-- Read `inner` from within `base`: an absolute path stands for itself. -/
def join (base inner : Path) : Path :=
  if inner.isAbsolute then inner
  else match base.text.toList.getLast? with
    | none | some '/' => ⟨base.text ++ inner.text⟩
    | some _ => ⟨base.text ++ "/" ++ inner.text⟩

def child (base : Path) (name : String) : Path := base.join ⟨name⟩

def extendedBy (path : Path) (suffix : String) : Path := ⟨path.text ++ suffix⟩

/-- The path and the ancestors above it, innermost first, up to the empty path or the root. -/
def ancestors (path : Path) : List Path :=
  climb (path.components.length + 1) path
where
  climb : Nat → Path → List Path
    | 0, _ => []
    | steps + 1, here =>
        if here.text = "" then []
        else match here.parent? with
          | none => [here]
          | some above => here :: climb steps above

def Among (path : Path) (paths : List Path) : Prop := ∃ other ∈ paths, Same other path

instance (path : Path) (paths : List Path) : Decidable (path.Among paths) :=
  inferInstanceAs (Decidable (∃ other ∈ paths, Same other path))

-- `seen` holds the components of the paths before these.
def fresh : List (List Component) → List Path → List Path
  | _, [] => []
  | seen, path :: rest =>
      if path.components ∈ seen then fresh seen rest
      else path :: fresh (path.components :: seen) rest

/-- Add several paths to an ordered set. The first spelling of a path is the one that stays. -/
def addAll (paths more : List Path) : List Path :=
  paths ++ fresh (paths.map components) more

end Path

namespace SearchPath

/-- Directories in front of an inherited search path; an empty inherited one counts as none. -/
def join (front : List Path) (inherited : Option String) (separator : Char) : String :=
  let rest := match inherited with
    | none => []
    | some text => if text = "" then [] else [text]
  (String.singleton separator).intercalate (front.map (·.text) ++ rest)

/-- The entries of a search path, empty ones too. -/
def split (separator : Char) (text : String) : List String :=
  Text.pieces separator text

end SearchPath

end ProofBuild
