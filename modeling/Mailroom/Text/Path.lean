import Mailroom.Text.Split

/-! Names of files, as text. -/
namespace Mailroom.Path

/-- The last part that names something. Single dots and slashes at the end name nothing, and
a step upwards names no file. -/
def fileName? (path : String) : Option String :=
  match ((Split.pieces '/' path.toList).filter fun p => !p.isEmpty && p != ['.']).getLast? with
  | some name => if name = ['.', '.'] then none else some (String.ofList name)
  | none => none

/-- The file name up to its last dot, unless that is the first character. -/
def stem? (path : String) : Option String :=
  (fileName? path).map fun name =>
    match (name.toList.reverse.dropWhile (· != '.')).drop 1 with
    | [] => name
    | backwards => String.ofList backwards.reverse

/-- Whether a path starts at the top and not in the directory of the run. -/
def isAbsolute (path : String) : Bool := path.toList.head? == some '/'

/-- One more step, before the steps taken (latest first). An empty part and a single dot lead
nowhere, and a step upwards takes back the step before it. -/
def step (taken : List (List Char)) (part : List Char) : List (List Char) :=
  if part = [] ∨ part = ['.'] then taken
  else
    match taken with
    | last :: rest => if part = ['.', '.'] ∧ last ≠ part then rest else part :: taken
    | [] => [part]

/-- Whether two paths lead to the same file. -/
def sameFile (a b : String) : Bool :=
  let steps := fun (path : String) => (Split.pieces '/' path.toList).foldl step []
  isAbsolute a == isAbsolute b && steps a == steps b

/-- A path below another one. An absolute path stays as it is. -/
def join (base path : String) : String :=
  if isAbsolute path ∨ base.isEmpty then path
  else if base.toList.getLast? = some '/' then base ++ path
  else base ++ "/" ++ path

/-- The path with a leading tilde replaced by the home directory. -/
def expandHome (home : Option String) (path : String) : String :=
  match path.toList, home with
  | ['~'], some home => home
  | '~' :: '/' :: rest, some home => if rest.isEmpty then home else join home (String.ofList rest)
  | _, _ => path

end Mailroom.Path
