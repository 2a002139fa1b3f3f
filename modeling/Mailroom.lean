import Mailroom.Account
import Mailroom.Account.Configured
import Mailroom.Calendar.Date
import Mailroom.Calendar.Reading
import Mailroom.Calendar.Timestamp
import Mailroom.CommandLine.Arguments
import Mailroom.CommandLine.Options
import Mailroom.CommandLine.Program
import Mailroom.Config.Access
import Mailroom.Config.Account
import Mailroom.Config.Basic
import Mailroom.Config.Files
import Mailroom.Config.HostName
import Mailroom.Config.Security
import Mailroom.Failure
import Mailroom.Imap.BodyStructure
import Mailroom.Imap.Capability
import Mailroom.Imap.Client
import Mailroom.Imap.Command
import Mailroom.Imap.Connection
import Mailroom.Imap.Cursor
import Mailroom.Imap.Envelope
import Mailroom.Imap.Error
import Mailroom.Imap.Fault
import Mailroom.Imap.FetchItem
import Mailroom.Imap.Flag
import Mailroom.Imap.Frame
import Mailroom.Imap.Mailbox
import Mailroom.Imap.MailboxName
import Mailroom.Imap.Request
import Mailroom.Imap.Response
import Mailroom.Imap.SearchKey
import Mailroom.Imap.Tag
import Mailroom.Imap.Uid
import Mailroom.Imap.Value
import Mailroom.Mailstore.Message
import Mailroom.Mailstore.Server
import Mailroom.Mailstore.Session
import Mailroom.Main
import Mailroom.Message.Attachment
import Mailroom.Message.Line
import Mailroom.Message.Summary
import Mailroom.Proofs.Imap.Exchange
import Mailroom.Proofs.Mailstore.Lookups
import Mailroom.Proofs.Mailstore.Message
import Mailroom.Proofs.Mailstore.Moves
import Mailroom.Proofs.Mailstore.Requests
import Mailroom.Proofs.Mailstore.Shelf
import Mailroom.Proofs.Mailstore.Shelves
import Mailroom.Proofs.Rules.EndState
import Mailroom.Proofs.Rules.Expected
import Mailroom.Proofs.Search.Meaning
import Mailroom.Proofs.Search.Periods
import Mailroom.Proofs.Search.Reported
import Mailroom.Proofs.Session.Hearing
import Mailroom.Proofs.Session.Mirrored
import Mailroom.Proofs.Session.Running
import Mailroom.Proofs.Sorted.Views
import Mailroom.Rules.File
import Mailroom.Rules.Report
import Mailroom.Rules.Rule
import Mailroom.Rules.Run
import Mailroom.Search.Bulk
import Mailroom.Search.DateRange
import Mailroom.Search.Mode
import Mailroom.Search.Plan
import Mailroom.Search.Problem
import Mailroom.Search.Record
import Mailroom.Search.Resolve
import Mailroom.Search.Spec
import Mailroom.Session.Basic
import Mailroom.Session.Error
import Mailroom.Session.Imap
import Mailroom.Session.Script
import Mailroom.Sorted.Map
import Mailroom.Sorted.Set
import Mailroom.Text.Ascii
import Mailroom.Text.Base64
import Mailroom.Text.Blank
import Mailroom.Text.Casing
import Mailroom.Text.Casing.Table
import Mailroom.Text.Decimal
import Mailroom.Text.Octet
import Mailroom.Text.Path
import Mailroom.Text.Quoted
import Mailroom.Text.Quoted.Table
import Mailroom.Text.Size
import Mailroom.Text.Split
import Mailroom.Text.Utf16
import Mailroom.Text.Utf8
import Mailroom.Toml.Decode
import Mailroom.Toml.Document
import Mailroom.Toml.Node
import Mailroom.Toml.Number
import Mailroom.Toml.Scan
import Mailroom.Toml.Text
import Mailroom.Toml.Value
import Mailroom.Proofs.Imap.Aftermath
import Mailroom.Proofs.Mailstore.Outcomes
import Mailroom.Proofs.Mailstore.Emulation
import Mailroom.Proofs.Rules.Effects
import Mailroom.Proofs.Rules.Forecast
import Mailroom.Proofs.Mailstore.Mail
import Mailroom.Proofs.Rules.Conservation
import Mailroom.Proofs.Rules.DryRun
import Mailroom.Proofs.Rules.Settled
import Mailroom.Proofs.Imap.Arrival
import Mailroom.Proofs.Imap.Strings
import Mailroom.Proofs.Imap.Agreement
import Mailroom.Proofs.Text.Bytes
import Mailroom.Proofs.Imap.Lines
import Mailroom.Proofs.Imap.Marks
import Mailroom.Proofs.Imap.Spelling
import Mailroom.Proofs.Imap.Replies
import Mailroom.Proofs.Imap.Tokens
import Mailroom.Proofs.Imap.Wire
import Mailroom.Proofs.Imap.Searches
import Mailroom.Proofs.Imap.Scanning
import Mailroom.Proofs.Imap.Following
import Mailroom.Proofs.Imap.Aborts
import Mailroom.Proofs.Imap.Advertised
import Mailroom.Proofs.Imap.Sending
import Mailroom.Proofs.Text.Case
import Mailroom.Proofs.Text.Lossy
import Mailroom.Proofs.Text.Numerals
import Mailroom.Proofs.Imap.Values
import Mailroom.Proofs.Text.Words
import Mailroom.Proofs.Imap.Phrases
import Mailroom.Proofs.Imap.Statements
import Mailroom.Proofs.Imap.Fetched
import Mailroom.Proofs.Session.Calls
import Mailroom.Proofs.Session.Writing
import Mailroom.Proofs.Mailstore.Granted
import Mailroom.Proofs.Mailstore.Opened
import Mailroom.Proofs.Mailstore.Continuing
import Mailroom.Proofs.Mailstore.Sharing
import Mailroom.Proofs.Mailstore.Discipline
import Mailroom.Proofs.Rules.Creating
import Mailroom.Proofs.Rules.Departures
import Mailroom.Proofs.Rules.Informed
import Mailroom.Proofs.Account.Remembered
import Mailroom.Proofs.Mailstore.Orders
import Mailroom.Proofs.Account.Current
import Mailroom.Proofs.Account.Errands
import Mailroom.Proofs.Account.LoggedOut
import Mailroom.Proofs.Imap.Ranges
import Mailroom.Proofs.Search.Composed
import Mailroom.Proofs.Search.Keys
import Mailroom.Proofs.Calendar.Moments
import Mailroom.Proofs.Account.Summaries
import Mailroom.Proofs.Message.Items
import Mailroom.Proofs.Imap.Stretches
import Mailroom.Proofs.Message.Reordered
import Mailroom.Proofs.Account.Senders
import Mailroom.Proofs.Message.Files
import Mailroom.Proofs.Imap.Unbroken
import Mailroom.Proofs.Message.Listing
import Mailroom.Proofs.Imap.Tags
import Mailroom.Proofs.Config.Accounts
import Mailroom.Proofs.Account.Questions
import Mailroom.Proofs.Imap.Onward
