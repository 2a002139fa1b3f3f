import Mailroom.Failure
import Mailroom.Text.Path
import Mailroom.Text.Utf8

/-! Files that are read.

What is in the files a run may read is given from the start, so that reading one is a matter
of looking it up. -/
namespace Mailroom

/-- What is known of files, by path: their bytes, or that there is no such file. The last
entry for a file counts, however its path is spelled. -/
abbrev Files := List (String × Option Bytes)

namespace Files

def bytes? (files : Files) (path : String) : Option Bytes :=
  (files.reverse.find? fun file => Path.sameFile file.1 path).bind Prod.snd

def read (files : Files) (path : String) : Except Failure String :=
  match files.bytes? path with
  | none => throw (.io path .notFound)
  | some bytes =>
    match Utf8.strict? bytes with
    | some text => pure text
    | none => throw (.io path .notText)

end Files

end Mailroom
