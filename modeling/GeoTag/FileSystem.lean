import GeoTag.Path

/-!
# File systems

A `FileSystem` answers what stands at a path.  `FileSystem.ofEntries` is the one that holds given
files and directories and nothing else, with the usual rules for walking a path;
`FileSystem.ofAnswers` holds answers that were found elsewhere.
-/

namespace GeoTag

/-- Why a path could not be read. -/
inductive IoFault where
  /-- Nothing stands at the path. -/
  | notFound
  /-- A part of the path that should be a directory is none. -/
  | notADirectory
  /-- A directory stands where a file is wanted. -/
  | isADirectory
  /-- The path or a part of it is too long. -/
  | nameTooLong
  /-- The path holds a null character. -/
  | nullInName
  /-- The content is not UTF-8. -/
  | notUtf8
  /-- The reader of the output is gone. -/
  | brokenPipe
  /-- Any other fault, with the system's number and words for it. -/
  | system (code : Nat) (words : String)
deriving DecidableEq, Repr

/-- The fault in words. -/
def IoFault.message : IoFault → String
  | .notFound => "No such file or directory (os error 2)"
  | .notADirectory => "Not a directory (os error 20)"
  | .isADirectory => "Is a directory (os error 21)"
  | .nameTooLong => "File name too long (os error 36)"
  | .nullInName => "file name contained an unexpected NUL byte"
  | .notUtf8 => "stream did not contain valid UTF-8"
  | .brokenPipe => "Broken pipe (os error 32)"
  | .system code words => words ++ " (os error " ++ toString code ++ ")"

/-- What can stand at a path. -/
inductive Node where
  /-- A file with its content. -/
  | file (content : ByteArray)
  /-- A file of which only the beginning can be read, and what stops the reading behind it. -/
  | broken (beginning : ByteArray) (fault : IoFault)
  /-- A directory. -/
  | directory

/-- What stands at each path. -/
structure FileSystem where
  /-- What stands at a path, or why nothing can be found there. -/
  find : String → Except IoFault Node

namespace FileSystem

/-- The content of the file at a path. -/
def read (fs : FileSystem) (path : String) : Except IoFault ByteArray :=
  match fs.find path with
  | .ok (.file content) => .ok content
  | .ok (.broken _ fault) => .error fault
  | .ok .directory => .error .isADirectory
  | .error fault => .error fault

/-- The content of the file at a path, as text. -/
def readText (fs : FileSystem) (path : String) : Except IoFault String :=
  match fs.read path with
  | .ok content =>
    match String.fromUTF8? content with
    | some text => .ok text
    | none => .error .notUtf8
  | .error fault => .error fault

/-- The most bytes of a path. -/
def maxPathLength : Nat := 4095

/-- The most bytes of one part of a path. -/
def maxNameLength : Nat := 255

/-- What stands at a place, given by its parts from the working directory: an entry, or a directory
that an entry lies in. -/
def nodeAt? (entries : List (List String × Node)) (place : List String) : Option Node :=
  match entries.find? fun e => e.1 = place with
  | some e => some e.2
  | none =>
    if place.isEmpty ∨ entries.any fun e => place.isPrefixOf e.1 then some .directory else none

/-- Walks the parts of a path outside the working directory, where there are only the directories
that lead up to the root; the root lies in itself. -/
def walkOutside : List String → Except IoFault Node
  | [] => .ok .directory
  | part :: parts =>
    if part = "" ∨ part = "." ∨ part = ".." then walkOutside parts
    else if maxNameLength < part.utf8ByteSize then .error .nameTooLong
    else .error .notFound

/-- Walks the parts of a path; the place reached so far stands in reverse and holds a node. -/
def walk (entries : List (List String × Node)) :
    List String → Node → List String → Except IoFault Node
  | _, node, [] => .ok node
  | _, .file _, _ :: _ => .error .notADirectory
  | _, .broken _ _, _ :: _ => .error .notADirectory
  | place, .directory, part :: parts =>
    if part = "" ∨ part = "." then walk entries place .directory parts
    else if part = ".." then
      match place with
      | [] => walkOutside parts
      | _ :: above => walk entries above .directory parts
    else if maxNameLength < part.utf8ByteSize then .error .nameTooLong
    else
      match nodeAt? entries (part :: place).reverse with
      | none => .error .notFound
      | some node => walk entries (part :: place) node parts

/-- The file system that holds the given entries, the directories they lie in and the directories
above the working directory, and nothing else.  No name leads back from above. -/
def ofEntries (files : List (String × Node)) : FileSystem where
  find path :=
    let entries := files.map fun f => (Path.parts f.1, f.2)
    if path.isEmpty then .error .notFound
    else if path.toList.contains '\x00' then .error .nullInName
    else if maxPathLength < path.utf8ByteSize then .error .nameTooLong
    else
      let parts := (Text.splitOn '/' path.toList).map String.ofList
      if Path.isAbsolute path then walkOutside parts else walk entries [] .directory parts

/-- The file system with the given answers; at any other path nothing is found. -/
def ofAnswers (answers : List (String × Except IoFault Node)) : FileSystem where
  find path :=
    match answers.find? fun a => a.1 = path with
    | some a => a.2
    | none => .error .notFound

end FileSystem

end GeoTag
