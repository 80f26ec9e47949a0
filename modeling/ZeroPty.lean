import ZeroPty.Lib.Memory
import ZeroPty.Lib.Circular
import ZeroPty.Lib.ByteOrder
import ZeroPty.Lib.Stream
import ZeroPty.Lib.Transition
import ZeroPty.Lib.Text
import ZeroPty.Lib.Locks
import ZeroPty.Lib.Getopt
import ZeroPty.Lib.Resources
import ZeroPty.Defs
import ZeroPty.Framing
import ZeroPty.Messages
import ZeroPty.Ring
import ZeroPty.Server
import ZeroPty.Threads
import ZeroPty.Client
import ZeroPty.Accept
import ZeroPty.Child
import ZeroPty.Session
import ZeroPty.Input
import ZeroPty.Locking
import ZeroPty.Store
import ZeroPty.Pipe
import ZeroPty.Endpoint
import ZeroPty.Record
import ZeroPty.RecordMemory
import ZeroPty.Retry
import ZeroPty.Signals
import ZeroPty.Connect
import ZeroPty.Save
import ZeroPty.Launch
import ZeroPty.Stop
import ZeroPty.Sockets
import ZeroPty.Startup
import ZeroPty.Lifecycle
import ZeroPty.Commands
import ZeroPty.Lemmas.Ring
import ZeroPty.Lemmas.Framing
import ZeroPty.Lemmas.Messages
import ZeroPty.Lemmas.Server
import ZeroPty.Lemmas.Clients
import ZeroPty.Lemmas.Threads
import ZeroPty.Lemmas.References
import ZeroPty.Lemmas.Authentication
import ZeroPty.Lemmas.Delivery
import ZeroPty.Lemmas.Client
import ZeroPty.Lemmas.Resume
import ZeroPty.Lemmas.Child
import ZeroPty.Lemmas.Session
import ZeroPty.Lemmas.Store
import ZeroPty.Lemmas.Record
import ZeroPty.Lemmas.RecordMemory
import ZeroPty.Lemmas.Typing
import ZeroPty.Theorems.Ring
import ZeroPty.Theorems.Framing
import ZeroPty.Theorems.Messages
import ZeroPty.Theorems.Attach
import ZeroPty.Theorems.References
import ZeroPty.Theorems.Authentication
import ZeroPty.Theorems.Delivery
import ZeroPty.Theorems.Resume
import ZeroPty.Theorems.Position
import ZeroPty.Theorems.Persistence
import ZeroPty.Theorems.Child
import ZeroPty.Theorems.Session
import ZeroPty.Theorems.Input
import ZeroPty.Theorems.Locking
import ZeroPty.Theorems.Store
import ZeroPty.Theorems.Pipe
import ZeroPty.Theorems.Endpoint
import ZeroPty.Theorems.Record
import ZeroPty.Theorems.RecordMemory
import ZeroPty.Theorems.Retry
import ZeroPty.Theorems.Signals
import ZeroPty.Theorems.Connect
import ZeroPty.Theorems.Save
import ZeroPty.Theorems.Broadcast
import ZeroPty.Theorems.Launch
import ZeroPty.Theorems.Stop
import ZeroPty.Theorems.Typing
import ZeroPty.Theorems.Admission
import ZeroPty.Theorems.Sockets
import ZeroPty.Theorems.Startup
import ZeroPty.Theorems.Lifecycle
import ZeroPty.Theorems.Reconnect
import ZeroPty.Theorems.Commands
