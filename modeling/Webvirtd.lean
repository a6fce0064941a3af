import Webvirtd.Lib.Machine
import Webvirtd.Lib.Regex
import Webvirtd.Lib.Prog
import Webvirtd.Exception
import Webvirtd.Util.Json
import Webvirtd.Http.Types
import Webvirtd.Virt.ConnectionPool
import Webvirtd.Virt.Libvirt
import Webvirtd.Data
import Webvirtd.Views
import Webvirtd.Http.Middleware
import Webvirtd.Http.Router
import Webvirtd.App.Targets
import Webvirtd.App.Routes
import Webvirtd.Http.Connection
import Webvirtd.App.State
import Webvirtd.App.Steps
import Webvirtd.App.Invariants
import Webvirtd.App.Frames
import Webvirtd.App.Isolation
import Webvirtd.Lib.Fault
import Webvirtd.Virt.LibvirtState
import Webvirtd.App.Interruptions
import Webvirtd.Http.Interruption
import Webvirtd.App.Retry
import Webvirtd.App.Registrations
import Webvirtd.App.EraseSafety
import Webvirtd.App.Pairing
import Webvirtd.App.Subscription
import Webvirtd.App.Handlers
import Webvirtd.App.Cleanup
import Webvirtd.Lib.Ensures
import Webvirtd.Views.Answers
import Webvirtd.App.Answers
import Webvirtd.App.Grammar
import Webvirtd.App.Responses
import Webvirtd.Lib.Threads
import Webvirtd.App.Workers
import Webvirtd.App.Containment
import Webvirtd.Http.Closing
import Webvirtd.App.Gate
import Webvirtd.App.Acknowledgement
import Webvirtd.App.Attempts
import Webvirtd.App.Buckets
import Webvirtd.App.Locals
import Webvirtd.App.Metadata
import Webvirtd.App.Reconnect
import Webvirtd.App.Redirect
import Webvirtd.App.Requests
import Webvirtd.App.Shutdown
import Webvirtd.App.Startup
import Webvirtd.App.Updates
import Webvirtd.App.Upgrade
import Webvirtd.App.Writes
import Webvirtd.Data.BlockInfo
import Webvirtd.Data.Devices
import Webvirtd.Data.Locals
import Webvirtd.Data.Overlay
import Webvirtd.Lib.BasicString
import Webvirtd.Lib.Inputs
import Webvirtd.Lib.Record
import Webvirtd.Main
import Webvirtd.Util.Config
import Webvirtd.Util.Elements
import Webvirtd.Util.Logging
import Webvirtd.Util.Lossless
import Webvirtd.Util.Members
import Webvirtd.Util.Retry
import Webvirtd.Util.XmlToJson
import Webvirtd.Views.Bootmenu
import Webvirtd.Views.Locals
import Webvirtd.Virt.History
import Webvirtd.Virt.Locals
import Webvirtd.Virt.Polling
import Webvirtd.Ws.Client
import Webvirtd.Ws.Connection
import Webvirtd.Lib.Service
import Webvirtd.Lib.Table
import Webvirtd.App.Inventory
import Webvirtd.App.Hypervisor
import Webvirtd.App.Serving
import Webvirtd.App.Sessions
import Webvirtd.Lib.Monitor
import Webvirtd.App.Confinement
import Webvirtd.Lib.Hub
import Webvirtd.App.Upgrading
import Webvirtd.App.Delivery
import Webvirtd.Lib.Shared
import Webvirtd.Virt.Ownership
import Webvirtd.Lib.Faults
import Webvirtd.App.Disconnections
import Webvirtd.Lib.Locks
import Webvirtd.App.Mutexes
import Webvirtd.App.Teardown
import Webvirtd.Http.Lifetime
import Webvirtd.App.Users
import Webvirtd.App.Daemon
