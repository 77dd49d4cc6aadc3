import HomeMetering.Battery
import HomeMetering.Checksum
import HomeMetering.Config.Basic
import HomeMetering.Config.Document
import HomeMetering.Config.Folder
import HomeMetering.Costs
import HomeMetering.Decimal.Binary
import HomeMetering.Decimal.Places
import HomeMetering.Decimal.Reading
import HomeMetering.Decimal.Shortest
import HomeMetering.Electricity.State
import HomeMetering.Electricity.Usage
import HomeMetering.Event.Basic
import HomeMetering.Event.Bus
import HomeMetering.Failure
import HomeMetering.Json
import HomeMetering.Json.Numeral
import HomeMetering.Json.Written
import HomeMetering.Line
import HomeMetering.Main
import HomeMetering.Meter
import HomeMetering.Meter.Abb
import HomeMetering.Meter.CarloGavazzi
import HomeMetering.Meter.Dsmr
import HomeMetering.Meter.Error
import HomeMetering.Meter.Playback
import HomeMetering.Meter.Poll
import HomeMetering.Meter.Prober
import HomeMetering.Meter.Readings
import HomeMetering.Meter.Victron
import HomeMetering.Modbus.ConnectUrl
import HomeMetering.Modbus.Error
import HomeMetering.Modbus.Frame
import HomeMetering.Modbus.Link
import HomeMetering.Modbus.Register
import HomeMetering.Modbus.Registry
import HomeMetering.Modbus.Wire
import HomeMetering.Monitor
import HomeMetering.Mqtt
import HomeMetering.Naming
import HomeMetering.Overview
import HomeMetering.Plausibility
import HomeMetering.Program
import HomeMetering.Proofs.Config.Claims
import HomeMetering.Proofs.Costs.Accounts
import HomeMetering.Proofs.Costs.Billed
import HomeMetering.Proofs.Costs.Growth
import HomeMetering.Proofs.Lookup
import HomeMetering.Proofs.Meter.Counting
import HomeMetering.Proofs.Meter.Identify
import HomeMetering.Proofs.Meter.Leasing
import HomeMetering.Proofs.Meter.Life
import HomeMetering.Proofs.Meter.Probing
import HomeMetering.Proofs.Meter.SideBySide
import HomeMetering.Proofs.Meter.Writing
import HomeMetering.Proofs.Modbus.Custody
import HomeMetering.Proofs.Modbus.Leases
import HomeMetering.Proofs.Modbus.Orderly
import HomeMetering.Proofs.Modbus.Registry
import HomeMetering.Proofs.Modbus.Undisturbed
import HomeMetering.Proofs.Modbus.Whereabouts
import HomeMetering.Proofs.Site.Books
import HomeMetering.Proofs.Site.Jobs
import HomeMetering.Proofs.Site.Panels
import HomeMetering.Proofs.Site.Reading
import HomeMetering.Proofs.Source.Merging
import HomeMetering.Proofs.Source.Ticking
import HomeMetering.Proofs.Source.Totals
import HomeMetering.Proofs.Telegram.Checksum
import HomeMetering.Proofs.Telegram.Framing
import HomeMetering.Proofs.Telegram.Pieces
import HomeMetering.Proofs.Telegram.Places
import HomeMetering.Proofs.Text.Utf8
import HomeMetering.Proofs.Quantity
import HomeMetering.Quantity
import HomeMetering.SerialPort
import HomeMetering.Site.Basic
import HomeMetering.Site.Device
import HomeMetering.Site.Job
import HomeMetering.Site.Pool
import HomeMetering.Site.Port
import HomeMetering.Source
import HomeMetering.Source.Runner
import HomeMetering.Source.Schedule
import HomeMetering.Telegram.Basic
import HomeMetering.Telegram.Printer
import HomeMetering.Telegram.Reader
import HomeMetering.Telegram.Values
import HomeMetering.Text.Blank
import HomeMetering.Text.Digit
import HomeMetering.Text.Hex
import HomeMetering.Text.Lines
import HomeMetering.Text.Utf8
import HomeMetering.Time
import HomeMetering.Volume
import HomeMetering.Yaml.Cursor
import HomeMetering.Yaml.Node
import HomeMetering.Yaml.Scalar
import HomeMetering.Yaml.Token
import HomeMetering.Yaml.Typed
import HomeMetering.Proofs.Telegram.Places
import HomeMetering.Proofs.Meter.Keeping
import HomeMetering.Proofs.Meter.PhaseCount
import HomeMetering.Proofs.Decimal.Numbers
import HomeMetering.Proofs.Meter.Asking
import HomeMetering.Proofs.Meter.Moving
import HomeMetering.Proofs.Meter.Health
import HomeMetering.Proofs.Modbus.Exchanges
import HomeMetering.Proofs.Site.Followers
import HomeMetering.Proofs.Meter.Following
import HomeMetering.Proofs.Telegram.RoundTrip
import HomeMetering.Proofs.Event.Registrations
import HomeMetering.Proofs.Event.Latest
import HomeMetering.Proofs.Meter.Noticing
import HomeMetering.Proofs.Source.Changes
import HomeMetering.Proofs.Source.Publishing
import HomeMetering.Proofs.Modbus.Exclusive
import HomeMetering.Proofs.Site.Dialogues
import HomeMetering.Proofs.Meter.Switching
import HomeMetering.Proofs.Meter.Errands
import HomeMetering.Proofs.Meter.OneWrite
import HomeMetering.Proofs.Modbus.Server
import HomeMetering.Proofs.Modbus.Conversations
import HomeMetering.Proofs.Source.Tasks
import HomeMetering.Proofs.Source.Polling
import HomeMetering.Proofs.Meter.Refreshing
import HomeMetering.Proofs.Site.Courses
import HomeMetering.Proofs.Modbus.Accesses
import HomeMetering.Proofs.Modbus.Openers
import HomeMetering.Proofs.Modbus.Entries
import HomeMetering.Proofs.Meter.Spellings
import HomeMetering.Proofs.Meter.Retrying
import HomeMetering.Proofs.Meter.FirstTelegram
import HomeMetering.Proofs.Decimal.Rounding
import HomeMetering.Proofs.Decimal.Quotients
import HomeMetering.Proofs.Meter.Directions
import HomeMetering.Proofs.Site.Conducts
import HomeMetering.Proofs.Meter.Wiring
import HomeMetering.Proofs.Meter.LeftAlone
import HomeMetering.Proofs.Meter.FirstMatch
import HomeMetering.Proofs.Config.Legal
import HomeMetering.Proofs.Modbus.Digits
import HomeMetering.Proofs.Meter.Apportioning
import HomeMetering.Proofs.Source.Batteries
import HomeMetering.Proofs.Telegram.Volumes
import HomeMetering.Proofs.Json.Records
import HomeMetering.Proofs.Electricity.Documents
import HomeMetering.Proofs.Config.Topics
import HomeMetering.Proofs.Telegram.Rounds
