import Preferences.Data.Table
import Preferences.Number.Ranged
import Preferences.Number.Parse
import Preferences.Number.Binary
import Preferences.Text.Characters
import Preferences.Text.Bytes
import Preferences.Text.Base64
import Preferences.Json.Basic
import Preferences.Json.Printer
import Preferences.Json.Fault
import Preferences.Json.Scan
import Preferences.Json.Reader
import Preferences.Json.Skip
import Preferences.Time.Date
import Preferences.Time.Instant
import Preferences.Time.Timestamp
import Preferences.Json.Typed
import Preferences.Value.Basic
import Preferences.Value.Reader
import Preferences.Shape.Basic
import Preferences.Shape.Encode
import Preferences.Shape.Reader
import Preferences.Files.Path
import Preferences.Files.Disk
import Preferences.Store.Error
import Preferences.Store.Basic
import Preferences.Store.Memory
import Preferences.Store.PreferenceFile
import Preferences.Store.File
import Preferences.Catalogue
import Preferences.Keys.Error
import Preferences.Error
import Preferences.Codec.Adapter
import Preferences.Codec.Registry
import Preferences.Keys.Validity
import Preferences.Keys.Basic
import Preferences.Cipher.Sha256
import Preferences.Cipher.Aes
import Preferences.Cipher.Gcm
import Preferences.Cipher.X25519
import Preferences.Data.Attempt
import Preferences.Keys.Record
import Preferences.Keys.Facility
import Preferences.Keys.Memory
import Preferences.Keys.Keyring
import Preferences.Cipher.Suite
import Preferences.Envelope.Sealed
import Preferences.Envelope.Basic
import Preferences.Typed.Basic
import Preferences.Typed.Request
import Preferences.Command.Report
import Preferences.Command.Values
import Preferences.Command.Health
import Preferences.Session.Stock
import Preferences.Session.Basic
import Preferences.Toml.Basic
import Preferences.Toml.Strings
import Preferences.Toml.Scalar
import Preferences.Toml.Reader
import Preferences.Toml.Writer
import Preferences.Command.Config
import Preferences.Command.Arguments
import Preferences.Command.Program
import Preferences.Keys.CredentialFile
import Preferences.Main
import Preferences.Proofs.Json.Container
import Preferences.Proofs.Table
import Preferences.Proofs.Store.Document
import Preferences.Proofs.Store.Durability
import Preferences.Session.Deed
import Preferences.Proofs.Store.Current
import Preferences.Proofs.Typed.Simulation
import Preferences.Proofs.Session.Refinement
import Preferences.Proofs.Keys.Record
import Preferences.Proofs.Envelope.Sealed
import Preferences.Proofs.Envelope.Ready
import Preferences.Proofs.Typed.Provided
import Preferences.Proofs.Session.Kept
import Preferences.Proofs.Session.Confidential
import Preferences.Proofs.Store.Format
import Preferences.Proofs.Typed.History
import Preferences.Proofs.Envelope.Journal
import Preferences.Proofs.Envelope.Shared
import Preferences.Proofs.Shape.RoundTrip
import Preferences.Proofs.Typed.RoundTrip
import Preferences.Proofs.Envelope.Rivals
import Preferences.Proofs.Store.Handles
import Preferences.Proofs.Typed.Refusal
import Preferences.Proofs.Files.Way
import Preferences.Proofs.Json.Tree
import Preferences.Proofs.Command.Stored
import Preferences.Proofs.Keys.Twins
import Preferences.Proofs.Typed.Poisoned
import Preferences.Proofs.Json.Grammar
import Preferences.Proofs.Json.Accepted
import Preferences.Proofs.Json.Meaning
import Preferences.Proofs.Json.Printed
import Preferences.Proofs.Text.Utf8
import Preferences.Proofs.Codec.Documents
import Preferences.Proofs.Number.Binary
import Preferences.Proofs.Number.Scaled
import Preferences.Proofs.Number.Shortest
import Preferences.Proofs.Json.Decimal
import Preferences.Proofs.Json.Reread
import Preferences.Proofs.Codec.Nesting
import Preferences.Proofs.Time.Calendar
import Preferences.Proofs.Keys.Validity
import Preferences.Proofs.Envelope.Accepted
import Preferences.Proofs.Keys.Unsteady
import Preferences.Proofs.Typed.Provisioning
import Preferences.Proofs.Envelope.Independent
import Preferences.Proofs.Session.Adapters
import Preferences.Proofs.Command.Integers
import Preferences.Proofs.Json.Literal
import Preferences.Proofs.Number.Words
import Preferences.Proofs.Command.Normal
import Preferences.Proofs.Codec.Numbers
import Preferences.Proofs.Command.Health
import Preferences.Proofs.Toml.Lines
import Preferences.Proofs.Files.Making
import Preferences.Proofs.Command.Configured
import Preferences.Proofs.Keys.Encoded
import Preferences.Proofs.Command.Placement
import Preferences.Proofs.Json.Skip
import Preferences.Proofs.Value.Payload
import Preferences.Proofs.Value.Members
