import Mailroom.CommandLine.Options
import Mailroom.Text.Ascii

/-! Reading the arguments of a run.

An argument that begins with a dash names switches and settings, by a long name or by
letters. The values of a setting follow it, in the same argument or in the next ones, but an
argument that begins with a dash is never taken for a value unless it is the dash alone. A
setting that waits for values is settled when something else is named: only then are its
values looked at. -/
namespace Mailroom.CommandLine

/-- Why arguments lead to no run. -/
inductive Refusal
  /-- An argument that names nothing, or that nothing waits for. -/
  | unknown
  /-- A value is missing, or is none of those that can be chosen. -/
  | badValue
  /-- A value is no number. -/
  | notNumber
  /-- A value is given to a switch. -/
  | uselessValue
  /-- Two things are asked for that exclude each other, or one thing twice. -/
  | conflict
  /-- Something is asked for that makes no sense without something else. -/
  | incomplete
  /-- An explanation is asked for. -/
  | help
  /-- The version is asked for. -/
  | version
  deriving DecidableEq, Repr

/-- What can be turned on. -/
inductive Switch
  | folders
  | unique
  | unread
  | name
  | attachments
  | noAttachments
  | notReplied
  | rules
  | dryRun
  | storePassword
  | help
  | version
  deriving DecidableEq, Repr

/-- What takes values. -/
inductive Setting
  | account
  | mailbox
  | date
  | days
  | from
  | notFrom
  | «to»
  | subject
  | notSubject
  | merge
  | config
  deriving DecidableEq, Repr

/-- What an argument can name. -/
inductive Name
  | switch (s : Switch)
  | setting (s : Setting)
  deriving DecidableEq, Repr

namespace Name

/-- Everything there is, by its long name. -/
def longNames : List (String × Name) :=
  [("account", .setting .account), ("mailbox", .setting .mailbox), ("folders", .switch .folders),
    ("unique", .switch .unique), ("unread", .switch .unread), ("name", .switch .name),
    ("date", .setting .date), ("days", .setting .days), ("from", .setting .from),
    ("not-from", .setting .notFrom), ("to", .setting .to), ("subject", .setting .subject),
    ("not-subject", .setting .notSubject), ("attachments", .switch .attachments),
    ("no-attachments", .switch .noAttachments), ("not-replied", .switch .notReplied),
    ("merge", .setting .merge), ("rules", .switch .rules), ("dry-run", .switch .dryRun),
    ("store-password", .switch .storePassword), ("config", .setting .config),
    ("help", .switch .help), ("version", .switch .version)]

/-- What has a letter, by its letter. -/
def letters : List (Char × Name) :=
  [('a', .setting .account), ('m', .setting .mailbox), ('l', .switch .folders),
    ('u', .switch .unread), ('n', .switch .name), ('y', .setting .date), ('d', .setting .days),
    ('f', .setting .from), ('s', .setting .subject), ('r', .switch .rules),
    ('x', .switch .dryRun), ('c', .setting .config), ('h', .switch .help), ('V', .switch .version)]

/-- What goes by a long name. -/
def ofLong (name : String) : Except Refusal Name :=
  match longNames.lookup name with
  | some n => pure n
  | none => throw .unknown

/-- What goes by a letter. -/
def ofLetter (letter : Char) : Except Refusal Name :=
  match letters.lookup letter with
  | some n => pure n
  | none => throw .unknown

end Name

/-- How many values a setting takes at a time. -/
def Setting.capacity : Setting → Nat
  | .date => 2
  | _ => 1

/-- Whether a setting may be given more than once, its values coming together. -/
def Setting.isRepeatable : Setting → Bool
  | .date => true
  | .from => true
  | .notFrom => true
  | .to => true
  | _ => false

/-- A setting that waits for values, and those it has got. -/
structure Pending where
  setting : Setting
  values : List String := []
  deriving DecidableEq

/-- Arguments that have been read in part. -/
structure Reading where
  options : Options := {}
  /-- What has been named and settled. -/
  named : List Name := []
  pending : Option Pending := none
  deriving DecidableEq

namespace Reading

/-- The options with a switch turned on. -/
def turnOn (o : Options) : Switch → Except Refusal Options
  | .folders => pure { o with folders := true }
  | .unique => pure { o with unique := true }
  | .unread => pure { o with unread := true }
  | .name => pure { o with name := true }
  | .attachments => pure { o with attachments := true }
  | .noAttachments => pure { o with noAttachments := true }
  | .notReplied => pure { o with notReplied := true }
  | .rules => pure { o with rules := true }
  | .dryRun => pure { o with dryRun := true }
  | .storePassword => pure { o with storePassword := true }
  | .help => throw .help
  | .version => throw .version

def number (value : String) : Except Refusal Nat :=
  match Decimal.unsigned? UInt64.size value with
  | some n => pure n
  | none => throw .notNumber

def mode : String → Except Refusal MergeMode
  | "and" => pure .and
  | "or" => pure .or
  | _ => throw .badValue

def path (value : String) : Except Refusal String :=
  if value.isEmpty then throw .badValue else pure value

/-- The options with one value of a setting. -/
def setValue (o : Options) (value : String) : Setting → Except Refusal Options
  | .account => pure { o with account := value }
  | .mailbox => pure { o with mailbox := value }
  | .date => pure { o with date := o.date ++ [value] }
  | .days => do pure { o with days := some (← number value) }
  | .from => pure { o with «from» := o.from ++ [value] }
  | .notFrom => pure { o with notFrom := o.notFrom ++ [value] }
  | .to => pure { o with «to» := o.to ++ [value] }
  | .subject => pure { o with subject := some value }
  | .notSubject => pure { o with notSubject := some value }
  | .merge => do pure { o with merge := ← mode value }
  | .config => do pure { o with config := some (← path value) }

/-- The reading with a setting settled. -/
def settleWith (r : Reading) (setting : Setting) (values : List String) : Except Refusal Reading := do
  if values.isEmpty then throw .badValue
  if !setting.isRepeatable && r.named.contains (.setting setting) then throw .conflict
  let options ← values.foldlM (fun o value => setValue o value setting) r.options
  pure { options, named := .setting setting :: r.named }

/-- The reading with nothing waiting for values. -/
def settle (r : Reading) : Except Refusal Reading :=
  match r.pending with
  | none => pure r
  | some p => { r with pending := none }.settleWith p.setting p.values

/-- The reading once a switch has been named. -/
def nameSwitch (r : Reading) (s : Switch) : Except Refusal Reading := do
  let r ← r.settle
  if r.named.contains (.switch s) then throw .conflict
  pure { options := ← turnOn r.options s, named := .switch s :: r.named }

/-- The reading once a setting has been named, with a value in the same argument or not. -/
def nameSetting (r : Reading) (s : Setting) (value : Option String) : Except Refusal Reading := do
  let r ← r.settle
  match value with
  | some value => r.settleWith s [value]
  | none => pure { r with pending := some ⟨s, []⟩ }

/-- The reading after a long name, with a value or not. -/
def readLong (r : Reading) (name : String) (value : Option String) : Except Refusal Reading := do
  match ← Name.ofLong name, value with
  | .switch s, none => r.nameSwitch s
  | .switch _, some _ => throw .uselessValue
  | .setting s, value => r.nameSetting s value

/-- What is left of an argument after a letter, as a value. An equals sign may come first. -/
def attachedValue : List Char → Option String
  | [] => none
  | '=' :: rest => some (String.ofList rest)
  | rest => some (String.ofList rest)

/-- The reading after letters. What follows the letter of a setting is its value. -/
def readLetters (r : Reading) : List Char → Except Refusal Reading
  | [] => pure r
  | letter :: rest => do
    match ← Name.ofLetter letter with
    | .switch s => readLetters (← r.nameSwitch s) rest
    | .setting s => r.nameSetting s (attachedValue rest)

/-- The reading after an argument that names nothing: a value, if one is waited for. -/
def readValue (r : Reading) (value : String) : Except Refusal Reading :=
  match r.pending with
  | some p =>
    if p.values.length < p.setting.capacity then
      pure { r with pending := some { p with values := p.values ++ [value] } }
    else throw .unknown
  | none => throw .unknown

/-- The name and the value in an argument without its dashes. -/
def splitAtEquals (cs : List Char) : String × Option String :=
  let name := String.ofList (cs.takeWhile (· != '='))
  match cs.dropWhile (· != '=') with
  | [] => (name, none)
  | _ :: value => (name, some (String.ofList value))

/-- The reading after one argument. -/
def readArgument (r : Reading) (argument : String) : Except Refusal Reading :=
  match argument.toList with
  | '-' :: '-' :: rest => r.readLong (splitAtEquals rest).1 (splitAtEquals rest).2
  | '-' :: letter :: rest => r.readLetters (letter :: rest)
  | _ => r.readValue argument

/-- The reading after all arguments. Nothing may follow two dashes alone. -/
def readAll (r : Reading) : List String → Except Refusal Reading
  | [] => r.settle
  | ["--"] => r.settle
  | "--" :: _ => throw .unknown
  | argument :: rest => do readAll (← r.readArgument argument) rest

/-- The switches that exclude each other. -/
def exclusions : List (Switch × Switch) :=
  [(.attachments, .noAttachments), (.rules, .folders), (.rules, .unique),
    (.storePassword, .rules), (.storePassword, .folders), (.storePassword, .unique)]

/-- Whether two switches were named that exclude each other. -/
def isContradictory (r : Reading) : Bool :=
  exclusions.any fun (s, t) => r.named.contains (.switch s) && r.named.contains (.switch t)

/-- Whether a dry run was asked for, but nothing that could be run. Where something stands in
the way of rules, they are not missed. -/
def isIncomplete (r : Reading) : Bool :=
  r.options.dryRun && !r.options.rules &&
    !(r.options.folders || r.options.unique || r.options.storePassword)

/-- The configuration that the environment names, where the arguments name none. -/
def takeConfig (r : Reading) (environment : Option String) : Except Refusal Reading :=
  match r.options.config, environment with
  | none, some value => do pure { r with options := ← setValue r.options value .config }
  | _, _ => pure r

end Reading

/-- The options that arguments give. `environment` names the configuration where the
arguments do not. -/
def Options.ofArguments (environment : Option String) (arguments : List String) :
    Except Refusal Options := do
  let r ← Reading.readAll {} arguments
  let r ← r.takeConfig environment
  if r.isContradictory then throw .conflict
  if r.isIncomplete then throw .incomplete
  pure r.options

end Mailroom.CommandLine
