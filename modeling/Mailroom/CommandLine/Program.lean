import Mailroom.Account.Configured
import Mailroom.CommandLine.Arguments
import Mailroom.Message.Line
import Mailroom.Session.Script

/-! A run of the program.

A run visits one account after the other. An account that fails is reported, and does not
keep the others from their turn. What has been printed before a failure stays printed. Only a
line that cannot be read at all, or a size that cannot be counted, breaks the run off. -/
namespace Mailroom.CommandLine

/-- What a run finds around it. -/
structure Surroundings where
  files : Files := []
  home : Option String := none
  /-- The file of the configuration, where the environment names one. -/
  configPath : Option String := none
  today : Date
  /-- What is typed. -/
  input : Bytes := []
  /-- What the servers send, connection by connection. -/
  scripts : List (List Bytes) := []

/-- What comes of a run: its exit code, and the lines it prints and reports. -/
structure Outcome where
  code : Nat := 0
  output : List String := []
  errors : List String := []
  deriving DecidableEq, Repr

/-- A failure with all that lies behind it. -/
def explain (f : Failure) : String := ": ".intercalate f.chain

/-- The outcome of a run that cannot go on. -/
def Outcome.abort (text : String) : Outcome := ⟨1, [], ["mailsift: " ++ text]⟩

/-- The work on one account: the account, and the lines printed so far, latest first. -/
structure Work where
  account : Account ScriptedServer
  printed : List String := []

/-- What ends the work on an account early. -/
inductive Interruption
  /-- The account fails. The others still have their turn. -/
  | failed (f : Failure)
  /-- The program breaks off. -/
  | crashed

/-- What a failure means for a run. A line that cannot be read at all breaks it off. -/
def Interruption.ofFailure (f : Failure) : Interruption :=
  match f.source? with
  | some (.imap (.fault (.unreadable _))) => crashed
  | _ => failed f

/-- A piece of the work on an account. -/
abbrev Task (α : Type) := ExceptT Interruption (StateM Work) α

namespace Work

/-- Does something with the account. -/
def onAccount {α : Type} (op : Mail (Account ScriptedServer) α) : Task α := fun w =>
  let (result, account) := op w.account
  (result.mapError .ofFailure, { w with account })

def print (lines : List String) : Task Unit :=
  modify fun w => { w with printed := lines.reverse ++ w.printed }

/-- Prints the line of a message, if it has one. -/
def printMessage (s : Summary) (showNames : Bool) : Task Unit :=
  match Line.ofMessage s showNames with
  | some line => print [line]
  | none => throw .crashed

/-- Applies the rules and prints what came of them. -/
def applyRules (name : String) (files : Files) (dryRun : Bool) : Task Unit := do
  let reports ← onAccount (Account.processRules files dryRun)
  print (reports.map fun report => name ++ ": " ++ report.text)

def listFolders (name : String) : Task Unit := do
  let folders ← onAccount Account.getFolders
  print (folders.map fun folder => name ++ ": " ++ folder.name)

/-- Prints the senders of the messages that a search finds. -/
def listSenders (folder : String) (spec : SearchSpec) (mode : MergeMode) : Task Unit := do
  let senders ← onAccount (Account.uniqueSenders folder spec mode)
  print (senders.map fun (address, n) => Line.ofSender address n)
  print [Decimal.text senders.length ++ " senders"]

def listMessages (folder : String) (spec : SearchSpec) (mode : MergeMode) (showNames : Bool) :
    Task Unit := do
  let summaries ← onAccount (Account.summaries folder spec mode)
  summaries.forM fun s => printMessage s showNames
  print [Line.ofCount summaries.length]

/-- Prints what a search finds in folders, one after the other. -/
def listAll (o : Options) (spec : SearchSpec) (name : String) : List String → Task Unit
  | [] => pure ()
  | folder :: rest => do
    print [name ++ "/" ++ folder]
    if o.unique then listSenders folder spec o.merge
    else listMessages folder spec o.merge o.name
    listAll o spec name rest

/-- Does what the options ask for. -/
def serve (o : Options) (spec : SearchSpec) (files : Files) (name : String) : Task Unit := do
  if o.rules then applyRules name files o.dryRun
  else if o.folders then listFolders name
  else
    let folders ← onAccount (Account.resolveFolders o.mailbox)
    listAll o spec name folders

end Work

/-- A run between two accounts: the scripts that are left, and what came of it so far. -/
structure Progress where
  scripts : List (List Bytes)
  outcome : Outcome

/-- The exit code of a run that breaks off. -/
def crashCode : Nat := 101

/-- What the options ask for, once an account has been visited, or the outcome of a run that
breaks off there. -/
def visit (s : Surroundings) (o : Options) (spec : SearchSpec) (config : Config) (p : Progress)
    (name : String) : Except Outcome Progress :=
  let report := fun (f : Failure) => p.outcome.errors ++ [name ++ ": " ++ explain f]
  match Account.ofConfig (fun access => ⟨access, p.scripts, []⟩) s.home config name with
  | .error f => pure { p with outcome := { p.outcome with code := 1, errors := report f } }
  | .ok account =>
    let (result, work) := Work.serve o spec s.files name ⟨account, []⟩
    let outcome := { p.outcome with output := p.outcome.output ++ work.printed.reverse }
    let scripts := work.account.connector.scripts
    match result with
    | .ok () => pure ⟨scripts, outcome⟩
    | .error (.failed f) => pure ⟨scripts, { outcome with code := 1, errors := report f }⟩
    | .error .crashed => throw { outcome with code := crashCode }

/-- The first line that is typed, without its end, if it is text. -/
def firstLine? (input : Bytes) : Option String :=
  let line := input.takeWhile (· != Octet.lf)
  (Utf8.strict? line).map fun text =>
    String.ofList (text.toList.reverse.dropWhile (· == '\r')).reverse

/-- Reads a password for one account. There is no keyring to keep it in. -/
def storePassword (s : Surroundings) (config : Config) (account : String) : Outcome :=
  let name := Casing.lower account
  let ask := "Password for " ++ name ++ " (read from stdin):"
  let abort := fun text => { Outcome.abort text with errors := ask :: (Outcome.abort text).errors }
  if Ascii.same account Config.allAccounts then
    Outcome.abort "--store-password needs a single account (-a NAME)"
  else
    match config.account name with
    | .error f => Outcome.abort (explain f)
    | .ok _ =>
      match firstLine? s.input with
      | none => abort ("reading password: " ++ FileProblem.notText.message)
      | some "" => abort "empty password"
      | some _ => abort "no keyring to keep the password in"

/-- Visits every account that the options choose, as long as the run is not broken off. -/
def visitAll (s : Surroundings) (o : Options) (spec : SearchSpec) (config : Config)
    (path : String) : Outcome :=
  match config.select o.account with
  | [] => Outcome.abort ("no accounts configured in " ++ path)
  | names =>
    match names.foldlM (visit s o spec config) ⟨s.scripts, {}⟩ with
    | .ok p => p.outcome
    | .error outcome => outcome

def configPath? (s : Surroundings) (o : Options) : Option String :=
  o.config.or (Config.defaultPath s.configPath s.home)

/-- Does what the options ask for. -/
def run (s : Surroundings) (o : Options) : Outcome :=
  match o.searchSpec s.today with
  | .error problem => Outcome.abort ("invalid search flags: " ++ explain (.specification problem))
  | .ok spec =>
    match configPath? s o with
    | none => Outcome.abort "cannot locate the configuration directory"
    | some path =>
      match Config.load s.files path with
      | .error f => Outcome.abort ("loading " ++ path ++ ": " ++ explain f)
      | .ok config =>
        if o.storePassword then storePassword s config o.account
        else visitAll s o spec config path

/-- The files that a run reads, as far as the files known already tell. -/
def filesToRead (arguments : List String) (s : Surroundings) : List String :=
  match Options.ofArguments s.configPath arguments with
  | .error _ => []
  | .ok o => (configPath? s o).elim [] fun path =>
    match Config.load s.files path with
    | .error _ => [path]
    | .ok config => path :: config.accounts.entries.flatMap fun (_, a) => a.ruleFiles s.home

def usage : List String :=
  ["Search, list and sort IMAP mail", "", "Usage: mailsift [OPTIONS]", "", "Options:",
    "  -a, --account <ACCOUNT>     Account to use, or all of them with the word all",
    "  -m, --mailbox <MAILBOX>     Folder to search, or * for every folder",
    "  -l, --folders               List folders instead of messages",
    "      --unique                Print each sender once with its message count",
    "  -u, --unread                Only unread messages",
    "  -n, --name                  Show sender names instead of addresses",
    "  -y, --date <DATE>...        Received in a year, month or day, or between two dates",
    "  -d, --days <N>              Received in the last N days",
    "  -f, --from <ADDRESS>        Sender address; repeat for several",
    "      --not-from <ADDRESS>    Exclude a sender address; repeat for several",
    "      --to <ADDRESS>          Recipient address; repeat for several",
    "  -s, --subject <TEXT>        Subject contains the text",
    "      --not-subject <TEXT>    Subject does not contain the text",
    "      --attachments           Only messages with attachments",
    "      --no-attachments        Only messages without attachments",
    "      --not-replied           Only messages not yet answered",
    "      --merge <and|or>        How search flags combine",
    "  -r, --rules                 Apply the rules of the account instead of listing",
    "  -x, --dry-run               With --rules, only report what would happen",
    "      --store-password        Keep the password of the account",
    "  -c, --config <FILE>         Configuration file", "  -h, --help                  Print help",
    "  -V, --version               Print version"]

def version : String := "mailsift 0.1.0"

def Refusal.message : Refusal → String
  | unknown => "unexpected argument"
  | badValue => "a value is missing or cannot be chosen"
  | notNumber => "a value is not a number"
  | uselessValue => "a value is given to a switch"
  | conflict => "arguments exclude each other"
  | incomplete => "--dry-run needs --rules"
  | help => "help"
  | version => "version"

/-- What a run with the given arguments comes to. Without arguments it explains itself. -/
def start (arguments : List String) (s : Surroundings) : Outcome :=
  if arguments.isEmpty then { output := usage }
  else
    match Options.ofArguments s.configPath arguments with
    | .ok o => run s o
    | .error .help => { output := usage }
    | .error .version => { output := [version] }
    | .error refusal => { code := 2, errors := ["mailsift: " ++ refusal.message] }

end Mailroom.CommandLine
