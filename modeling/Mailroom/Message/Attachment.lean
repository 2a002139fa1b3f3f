import Mailroom.Imap.BodyStructure
import Mailroom.Text.Split

/-! The files that come with a message. -/
namespace Mailroom

/-- A file that comes with a message, by the name it was sent under. -/
structure Attachment where
  filename : String
  size : Nat
  deriving DecidableEq, Repr

/-- The kinds of files. -/
inductive Attachment.Kind
  | pdf
  | document
  | image
  | archive
  | calendar
  | other
  deriving DecidableEq, Repr

/-- The kind in one word. -/
def Attachment.Kind.text : Attachment.Kind → String
  | pdf => "pdf"
  | document => "document"
  | image => "image"
  | archive => "archive"
  | calendar => "calendar"
  | other => "other"

namespace Attachment

/-- What follows the last dot of a file name, in small letters; nothing if there is no dot. -/
def extension (filename : String) : String :=
  match Split.afterLast? '.' filename.toList with
  | some extension => Ascii.lower (String.ofList extension)
  | none => ""

/-- The extensions of each kind. -/
def extensions : List (Kind × List String) :=
  [(.pdf, ["pdf"]),
    (.document, ["doc", "docx", "odt", "rtf", "txt", "xls", "xlsx", "ods", "csv", "ppt", "pptx", "odp"]),
    (.image, ["png", "jpg", "jpeg", "gif", "bmp", "webp", "heic", "tif", "tiff", "svg"]),
    (.archive, ["zip", "gz", "tgz", "tar", "bz2", "xz", "7z", "rar"]),
    (.calendar, ["ics", "vcs"])]

/-- The kind of a file, by its name. -/
def kindOf (filename : String) : Kind :=
  match extensions.find? fun entry => entry.2.contains (extension filename) with
  | some (kind, _) => kind
  | none => .other

/-- The kind of the file. -/
def kind (a : Attachment) : Kind := kindOf a.filename

/-- Whether parts of a media type can be attached files. -/
def isFileType (mediaType : String) : Bool :=
  Ascii.same mediaType "application" || Ascii.same mediaType "image"

/-- The name of an attached part: the one its disposition gives, or else its own. -/
def nameOf (d : Disposition) (parameters : List Parameter) : Option String :=
  ((Parameter.find? "filename" d.parameters).or (Parameter.find? "name" parameters)).filter
    fun name => !name.isEmpty

/-- The file that a part is, if it is one: an application or a picture that wants to be kept
apart and has a name. -/
def ofPart (mediaType : String) (parameters : List Parameter) (size : Nat)
    (disposition : Option Disposition) : Option Attachment :=
  match disposition with
  | none => none
  | some d =>
    if d.isAttachment && isFileType mediaType then
      (nameOf d parameters).map fun filename => ⟨filename, size⟩
    else none

mutual

/-- The files in a body, in the order of its parts. -/
def all : BodyStructure → List Attachment
  | .single mediaType _ parameters size disposition =>
    (ofPart mediaType parameters size disposition).toList
  | .message _ body _ => all body
  | .multipart _ parts _ => allIn parts

/-- The files in several bodies. -/
def allIn : List BodyStructure → List Attachment
  | [] => []
  | part :: rest => all part ++ allIn rest

end

end Attachment

end Mailroom
