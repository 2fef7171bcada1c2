/-
Files as a command sees them: a tree of folders, read once. A path is walked part by part, and the parts stand between
slashes: an empty part and a single dot stay at a folder, two dots go to the folder around it, and each of them, also
at the end of the path, asks for a folder. So what ends in a slash is no path of a file.
-/
import TemplateView.Text.Search

namespace TemplateView

/-- a file, with its text or the reason why it has none, or a folder with its entries in order -/
inductive FileTree where
  | file (content : Except String String)
  | folder (entries : List (String × FileTree))

namespace FileTree

def empty : FileTree := folder []

/-! ## Reading -/

/-- why nothing stands at a path, in the words of the operating system -/
def missing : String := "No such file or directory (os error 2)"

def notFolder : String := "Not a directory (os error 20)"

def isFolder : String := "Is a directory (os error 21)"

def tooLong : String := "File name too long (os error 36)"

/-- the longest name of an entry, in bytes -/
def nameLimit : Nat := 255

/-- the longest path, in bytes -/
def pathLimit : Nat := 4095

/-- the parts between the slashes of a path, at least one -/
def parts (path : String) : List String :=
  (Text.splitOn ['/'] path.toList).map String.ofList

/-- a part that stays where it is -/
def isHere (part : String) : Bool :=
  part == "" || part == "."

/-- what the parts lead to from a place inside some folders, the nearest first; all outside of them has no entries -/
def walk : List FileTree → FileTree → List String → Except String FileTree
  | _, t, [] => .ok t
  | _, file _, _ :: _ => .error notFolder
  | around, folder entries, part :: rest =>
    if isHere part then walk around (folder entries) rest
    else if part == ".." then
      match around with
      | outer :: around => walk around outer rest
      | [] => walk [] empty rest
    else if nameLimit < part.utf8ByteSize then .error tooLong
    else
      match entries.lookup part with
      | some t => walk (folder entries :: around) t rest
      | none => .error missing

/-- what stands at a path; the empty path leads nowhere, and one with a slash in front leads out of the tree -/
def get (t : FileTree) (path : String) : Except String FileTree :=
  if path.isEmpty then .error missing
  else if pathLimit < path.utf8ByteSize then .error tooLong
  else walk [] (if path.startsWith "/" then empty else t) (parts path)

/-- the text of a file -/
def content : FileTree → Except String String
  | file content => content
  | folder _ => .error isFolder

/-- the last part of a path -/
def lastPart (path : String) : String :=
  (parts path).getLastD ""

/-- the path of an entry of a folder -/
def entryPath (path name : String) : String :=
  if path.endsWith "/" then path ++ name else path ++ "/" ++ name

mutual

/-- the files at and below a path -/
def filesAt (path : String) : FileTree → List (String × Except String String)
  | file content => [(path, content)]
  | folder entries => filesIn path entries

/-- the files in the entries of a folder -/
def filesIn (path : String) : List (String × FileTree) → List (String × Except String String)
  | [] => []
  | (name, t) :: entries => filesAt (entryPath path name) t ++ filesIn path entries

end

/-! ## Building -/

/-- a tree that holds only one thing, at the end of some names -/
def chain (leaf : FileTree) : List String → FileTree
  | [] => leaf
  | name :: names => folder [(name, chain leaf names)]

mutual

/-- a tree with a leaf at the end of some names, in place of what stood there -/
def insert (leaf : FileTree) (names : List String) : FileTree → FileTree
  | file _ => chain leaf names
  | folder entries =>
    match names with
    | [] => leaf
    | name :: names => folder (insertIn leaf name names entries)

/-- entries with a leaf at the end of one of their names and some more -/
def insertIn (leaf : FileTree) (name : String) (names : List String) :
    List (String × FileTree) → List (String × FileTree)
  | [] => [(name, chain leaf names)]
  | (n, t) :: entries =>
    if n == name then (n, insert leaf names t) :: entries else (n, t) :: insertIn leaf name names entries

end

/-- the tree of some files by their paths, which go down only -/
def ofFiles (files : List (String × Except String String)) : FileTree :=
  files.foldl (fun t (path, content) => insert (file content) ((parts path).filter (!isHere ·)) t) empty

end FileTree

end TemplateView
