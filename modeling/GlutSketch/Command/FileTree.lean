import GlutSketch.Command.Host

/-!
# GlutSketch.Command.FileTree

A machine that is held as a value: a tree of files and folders, the special
places that take or give text without keeping it, and what was printed.  Paths
are looked up as Unix does it: a path is absolute or starts at the working
folder, each part but the last has to be a folder, `..` leads to the folder
above, and neither a name nor a path may be too long.
-/

namespace GlutSketch

/-! ## Paths -/

/-- A place in a tree: the names on the way to it from the root. -/
abbrev Location := List (List Char)

/-- The parts of a path between its slashes. -/
def pathParts : List Char → List (List Char)
  | [] => [[]]
  | c :: rest =>
      if c = '/' then [] :: pathParts rest
      else match pathParts rest with
        | [] => [[c]]
        | part :: parts => (c :: part) :: parts

/-- A part of a path that stays where it is. -/
def isStay (part : List Char) : Bool := part = [] || part = ['.']

/-- The names in a path without steps upward. -/
def namesOf (path : String) : Location :=
  (pathParts path.toList).filter fun part => !isStay part

/-- The places on the way to a place, and the place itself. -/
def wayTo (l : Location) : List Location := (List.range l.length).map fun i => l.take (i + 1)

/-- The greatest size of a name in bytes. -/
def maxNameSize : Nat := 255

/-- The greatest size of a path in bytes. -/
def maxPathSize : Nat := 4095

/-- A path that can be looked up: it is not empty, holds no NUL, and is not too
long, nor is a name in it. -/
def isUsablePath (path : String) : Bool :=
  path != "" && path.utf8ByteSize ≤ maxPathSize && !path.toList.contains (Char.ofNat 0) &&
    (pathParts path.toList).all fun part => (String.ofList part).utf8ByteSize ≤ maxNameSize

/-! ## Special places -/

/-- What becomes of a text that is written to a special place. -/
inductive Sink where
  /-- It is refused. -/
  | refuses
  /-- It is lost. -/
  | drops
  /-- It appears among what is printed. -/
  | prints
  /-- It appears among what is reported. -/
  | reports
deriving DecidableEq, Repr

/-- A place that is neither a file nor a folder of the tree: the text that is
read there, if there is one, and what becomes of a text that is written
there. -/
structure SpecialPlace where
  text : Option String
  sink : Sink
deriving DecidableEq, Repr

/-! ## Trees -/

/-- A tree of files.  Besides the folders named there are those that hold
something. -/
structure FileTree where
  files : List (Location × FileContent)
  folders : List Location
  specials : List (Location × SpecialPlace)
  workingFolder : Location
  printed : List FileContent
  reported : List FileContent
deriving DecidableEq, Repr

namespace FileTree

/-- The file at a place. -/
def file? (t : FileTree) (l : Location) : Option FileContent := t.files.lookup l

/-- The special place at a place. -/
def special? (t : FileTree) (l : Location) : Option SpecialPlace := t.specials.lookup l

/-- There is a folder at a place. -/
def isFolder (t : FileTree) (l : Location) : Bool :=
  l = [] || t.folders.any l.isPrefixOf ||
    t.files.any (fun (place, _) => l.isPrefixOf place && l != place) ||
    t.specials.any fun (place, _) => l.isPrefixOf place && l != place

/-- Follows the parts of a path from a folder.  All but the last have to be
folders.  The root is above itself. -/
def follow? (t : FileTree) : Location → List (List Char) → Option Location
  | l, [] => some l
  | l, part :: rest =>
      if isStay part then t.follow? l rest
      else if part = ['.', '.'] then t.follow? l.dropLast rest
      else
        let next := l ++ [part]
        if rest = [] then some next
        else if t.isFolder next then t.follow? next rest
        else none

/-- Where a path starts: at the root if it is absolute, and else in the working
folder. -/
def start (t : FileTree) (path : String) : Location :=
  if path.startsWith "/" then [] else t.workingFolder

/-- The place of a path. -/
def locate? (t : FileTree) (path : String) : Option Location :=
  if isUsablePath path then t.follow? (t.start path) (pathParts path.toList) else none

/-- The text at a path.  A picture is no text. -/
def read? (t : FileTree) (path : String) : Option String :=
  match t.locate? path with
  | none => none
  | some l =>
      match t.file? l with
      | some (.text value) => some value
      | some (.picture _) => none
      | none => (t.special? l).bind SpecialPlace.text

/-- There is something at a path. -/
def isThere (t : FileTree) (path : String) : Bool :=
  match t.locate? path with
  | none => false
  | some l => t.isFolder l || (t.file? l).isSome || (t.special? l).isSome

/-- The tree with a file set. -/
def setFile (t : FileTree) (l : Location) (content : FileContent) : FileTree :=
  { t with files := (l, content) :: t.files.filter fun (place, _) => place != l }

/-- Writes to a special place. -/
def feed? (t : FileTree) (content : FileContent) : Sink → Option FileTree
  | .refuses => none
  | .drops => some t
  | .prints => some { t with printed := t.printed ++ [content] }
  | .reports => some { t with reported := t.reported ++ [content] }

/-- Writes a file, unless there is a folder at its path or none around it. -/
def write? (t : FileTree) (path : String) (content : FileContent) : Option FileTree :=
  match t.locate? path with
  | none => none
  | some l =>
      if t.isFolder l then none
      else match t.special? l with
        | some s => t.feed? content s.sink
        | none => some (t.setFile l content)

/-- Makes a folder with all folders above it, unless something else is at one of
their places.  The path has no steps upward. -/
def makeFolder? (t : FileTree) (path : String) : Option FileTree :=
  let way := wayTo (t.start path ++ namesOf path)
  if !isUsablePath path || way.any fun l => (t.file? l).isSome || (t.special? l).isSome then none
  else some { t with folders := t.folders ++ way.filter fun l => !t.folders.contains l }

/-- Runs a change that may fail, in which case nothing changes. -/
def attempt (change : FileTree → Option FileTree) : StateM FileTree Bool := fun t =>
  match change t with
  | none => (false, t)
  | some t => (true, t)

/-- A tree as a machine. -/
instance : Host (StateM FileTree) where
  read path := fun t => (t.read? path, t)
  isThere path := fun t => (t.isThere path, t)
  write path content := attempt fun t => t.write? path content
  makeFolder path := attempt fun t => t.makeFolder? path
  report text := modify fun t => { t with reported := t.reported ++ [.text text] }

/-! ## The system around a working folder -/

/-- The folders that every system has. -/
def systemFolders : List String :=
  ["/bin", "/boot", "/dev/pts", "/dev/shm", "/etc", "/home", "/lib", "/media", "/mnt", "/opt",
    "/root", "/run", "/sbin", "/srv", "/tmp", "/usr/bin", "/usr/include", "/usr/lib", "/usr/local",
    "/usr/sbin", "/usr/share", "/usr/src", "/var/cache", "/var/lib", "/var/log", "/var/tmp"]

/-- The special places that every system has.  The standard input is empty. -/
def systemSpecials : List (String × SpecialPlace) :=
  [("/dev/null", ⟨some "", .drops⟩), ("/dev/zero", ⟨none, .drops⟩),
    ("/dev/random", ⟨none, .drops⟩), ("/dev/urandom", ⟨none, .drops⟩),
    ("/dev/full", ⟨none, .refuses⟩), ("/dev/tty", ⟨none, .refuses⟩),
    ("/dev/stdin", ⟨some "", .drops⟩), ("/dev/stdout", ⟨none, .prints⟩),
    ("/dev/stderr", ⟨none, .reports⟩), ("/dev/fd/0", ⟨some "", .drops⟩),
    ("/dev/fd/1", ⟨none, .prints⟩), ("/dev/fd/2", ⟨none, .reports⟩),
    ("/proc", ⟨none, .refuses⟩), ("/sys", ⟨none, .refuses⟩)]

/-- The text files that every system has. -/
def systemFiles : List (String × String) :=
  [("/etc/passwd", "root:x:0:0:root:/root:/bin/sh\n"), ("/etc/group", "root:x:0:\n"),
    ("/etc/hosts", "127.0.0.1 localhost\n"), ("/etc/hostname", "localhost\n")]

/-- A system whose working folder holds these files and nothing else. -/
def system (files : List (String × String)) : FileTree :=
  let workingFolder := namesOf "/tmp/scenes"
  let text (content : String) : FileContent := .text content
  { files := files.map (fun (path, content) => (workingFolder ++ namesOf path, text content)) ++
      systemFiles.map fun (path, content) => (namesOf path, text content)
    folders := workingFolder :: systemFolders.map namesOf
    specials := systemSpecials.map fun (path, special) => (namesOf path, special)
    workingFolder := workingFolder
    printed := []
    reported := [] }

/-- The files in the working folder and the folders in it, by their places from
there. -/
def localFiles (t : FileTree) : List (Location × FileContent) :=
  t.files.filterMap fun (place, content) =>
    if t.workingFolder.isPrefixOf place then some (place.drop t.workingFolder.length, content)
    else none

end FileTree

end GlutSketch
