import TraitCheck.Text.Blank

/-!
Trees of files, and paths in them.
-/

namespace TraitCheck

/-- What is at a path: a file if there is a text, otherwise a directory, with what is below in the order of names. What
is below a file can be reached by its path only. -/
inductive FileTree where
  | node (text : Option String) (entries : List (String × FileTree))
  deriving Inhabited

namespace FileTree

def file (text : String) : FileTree := .node (some text) []

def dir (entries : List (String × FileTree)) : FileTree := .node none entries

def text? : FileTree → Option String
  | .node text _ => text

def empty : FileTree := dir []

/-- Changes the entry of a name, which is an empty directory if it is not there. -/
def modifyEntry (name : String) (f : FileTree → FileTree) : List (String × FileTree) → List (String × FileTree)
  | [] => [(name, f empty)]
  | (n, t) :: rest =>
    if name = n then (n, f t) :: rest
    else if name < n then (name, f empty) :: (n, t) :: rest
    else (n, t) :: modifyEntry name f rest

/-- Adds a file, with the directories that it is in. -/
def insert (text : String) : (segments : List String) → FileTree → FileTree
  | [], .node _ entries => .node (some text) entries
  | s :: rest, .node other entries => .node other (modifyEntry s (insert text rest) entries)

def ofFiles (files : List (String × String)) : FileTree :=
  files.foldl (fun t f => t.insert f.2 (Text.split '/' f.1)) empty

inductive Found where
  | tree (t : FileTree)
  | missing
  | belowFile

def find : (segments : List String) → FileTree → Found
  | [], t => .tree t
  | s :: rest, .node text entries =>
    match entries.lookup s with
    | some t => find rest t
    | none => if text.isSome then .belowFile else .missing

def join (dir name : String) : String := if dir = "." then name else dir ++ "/" ++ name

mutual

/-- The files below a path, in the order of a walk. -/
def files (path : String) : FileTree → List (String × String)
  | .node (some text) _ => [(path, text)]
  | .node none entries => filesOf path entries

def filesOf (path : String) : List (String × FileTree) → List (String × String)
  | [] => []
  | (name, t) :: rest => files (join path name) t ++ filesOf path rest

end

end FileTree

namespace FilePath

/-- Removes empty segments, `.`, and `..` together with what it takes back. `done` are the segments before, the last
first; above a root there is nothing. -/
def simplify (rooted : Bool) : (done : List String) → List String → List String
  | done, [] => done.reverse
  | done, s :: rest =>
    if s = "" || s = "." then simplify rooted done rest
    else if s = ".." then
      match done with
      | [] => if rooted then simplify rooted [] rest else simplify rooted [".."] rest
      | d :: ds => if d = ".." then simplify rooted (".." :: d :: ds) rest else simplify rooted ds rest
    else simplify rooted (s :: done) rest

/-- The shortest text for the same path. -/
def clean (path : String) : String :=
  let rooted := path.toList.head? = some '/'
  let text := "/".intercalate (simplify rooted [] (Text.split '/' path))
  if rooted then "/" ++ text else if text.isEmpty then "." else text

/-- The segments of a path that stays inside of the tree. -/
def segments? (path : String) : Option (List String) :=
  if path = "." then some []
  else
    let parts := Text.split '/' path
    if parts.all fun s => s ≠ "" && s ≠ "." && s ≠ ".." then some parts else none

end FilePath

/-- Where files are kept. This decides how missing ones are reported. -/
inductive Storage where
  | memory
  | disk
  deriving DecidableEq

namespace Storage

/-- The text of a file, if there is one; a message if it cannot be read. -/
def readFile (s : Storage) (t : FileTree) (name : String) : Except String (Option String) :=
  match t.find (Text.split '/' name) with
  | .tree (.node (some text) _) => return some text
  | .tree (.node none _) =>
    throw ("read " ++ name ++ ": " ++ match s with | memory => "invalid argument" | disk => "is a directory")
  | _ => return none

def subtree (s : Storage) (t : FileTree) (path : String) : Except String FileTree :=
  let missing : String :=
    match s with
    | memory => "open " ++ path ++ ": file does not exist"
    | disk => "stat " ++ path ++ ": no such file or directory"
  match FilePath.segments? path with
  | none => throw (match s with | memory => missing | disk => "stat " ++ path ++ ": invalid argument")
  | some segments =>
    match t.find segments with
    | .tree t => return t
    | .missing => throw missing
    | .belowFile => throw (match s with | memory => missing | disk => "stat " ++ path ++ ": not a directory")

end Storage

end TraitCheck
