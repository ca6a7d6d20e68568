import Lox.Text.Pieces

/-!
# Files in a folder

A folder holds files and folders at paths of names. A path is followed name by name from the folder
on: every name but the last must be that of a folder, an empty name and `.` stay where they are, and
`..` goes back. Outside of the folder nothing is known. Names and paths have a greatest length.

## Main definitions

* `ReadFailure`, `ReadFailure.message`: why a file cannot be read
* `Folder`, `Folder.node?`: a folder, and what stands at a path
* `Folder.read`: the bytes of the file at the end of a path
* `decode`: the text of a file

## Main results

* `decode_toUTF8`, `decode_of_not_isValidUTF8`: what is decoded is the bytes of a text
-/

namespace Lox.CommandLine

/-- Why a file cannot be read. -/
inductive ReadFailure
  | notFound
  | notDirectory
  | isDirectory
  | nameTooLong
  | notText
  /-- Any other reason, in the words of the system. -/
  | other (reason : String)
  deriving DecidableEq

/-- Why, in words. -/
def ReadFailure.message : ReadFailure → String
  | notFound => "No such file or directory (os error 2)"
  | notDirectory => "Not a directory (os error 20)"
  | isDirectory => "Is a directory (os error 21)"
  | nameTooLong => "File name too long (os error 36)"
  | notText => "stream did not contain valid UTF-8"
  | other reason => reason

/-- The text of bytes in UTF-8. -/
def decode (bytes : ByteArray) : Except ReadFailure String :=
  match String.fromUTF8? bytes with
  | some text => .ok text
  | none => .error .notText

@[simp] theorem decode_toUTF8 (text : String) : decode text.toUTF8 = .ok text := by
  rw [decode, String.fromUTF8?, String.toUTF8_eq_toByteArray, dif_pos text.isValidUTF8]
  rfl

theorem decode_of_not_isValidUTF8 {bytes : ByteArray} (h : ¬ bytes.IsValidUTF8) :
    decode bytes = .error .notText := by
  rw [decode, String.fromUTF8?, dif_neg h]

/-- What stands at a path. -/
inductive Node
  | file (bytes : ByteArray)
  | folder

/-- Files and folders by their paths. The folders on the way to an entry exist too. -/
structure Folder where
  entries : List (List String × Node)

/-- The most bytes that a name can have. -/
def maxNameLength : Nat := 255

/-- The most bytes that a path can have. -/
def maxPathLength : Nat := 4095

/-- The names of a path. -/
def names (path : String) : List String :=
  (Text.pieces '/' path.toList).map String.ofList

namespace Folder

/-- The path without the names that stay where they are or go back. -/
def resolve (path : String) : List String :=
  (names path).foldl
    (fun done name =>
      if name = "" ∨ name = "." then done
      else if name = ".." then done.dropLast
      else done ++ [name])
    []

/-- A folder with these files and folders. -/
def ofEntries (entries : List (String × Node)) : Folder :=
  ⟨entries.map fun (path, node) => (resolve path, node)⟩

/-- What stands at a path. -/
def node? (folder : Folder) (place : List String) : Option Node :=
  match folder.entries.find? (·.1 = place) with
  | some (_, node) => some node
  | none =>
    if place = [] ∨ folder.entries.any (place.isPrefixOf ·.1) then some .folder else none

/-- The file at the end of the names that lead on from a place, `none` being outside. -/
def follow (folder : Folder) : Option (List String) → List String → Except ReadFailure ByteArray
  | none, [] => .error .isDirectory
  | none, name :: rest =>
    if name = "" ∨ name = "." ∨ name = ".." then follow folder none rest
    else if maxNameLength < name.utf8ByteSize then .error .nameTooLong
    else .error .notFound
  | some place, [] =>
    match folder.node? place with
    | none => .error .notFound
    | some .folder => .error .isDirectory
    | some (.file bytes) => .ok bytes
  | some place, name :: rest =>
    match folder.node? place with
    | none => .error .notFound
    | some (.file _) => .error .notDirectory
    | some .folder =>
      if name = "" ∨ name = "." then follow folder (some place) rest
      else if name = ".." then
        follow folder (if place = [] then none else some place.dropLast) rest
      else if maxNameLength < name.utf8ByteSize then .error .nameTooLong
      else follow folder (some (place ++ [name])) rest

/-- **The bytes of the file at the end of a path.** A path from the root leads outside. -/
def read (folder : Folder) (path : String) : Except ReadFailure ByteArray :=
  if maxPathLength < path.utf8ByteSize then .error .nameTooLong
  else
    match path.toList with
    | '/' :: _ => folder.follow none (names path)
    | _ => folder.follow (some []) (names path)

end Folder

end Lox.CommandLine
