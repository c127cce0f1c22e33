import TrezorPlugin.RoundTrip
import TrezorPlugin.Resources
import TrezorPlugin.Communicator
import TrezorPlugin.Interruption
import TrezorPlugin.Correlation
import TrezorPlugin.Apis
import TrezorPlugin.Schema
import TrezorPlugin.Locks
import TrezorPlugin.Selection
import TrezorPlugin.MapRoundTrip
import TrezorPlugin.Derivation
import TrezorPlugin.Writes
import TrezorPlugin.Malformed
import TrezorPlugin.Fifo
import TrezorPlugin.Registry
import TrezorPlugin.Queues
import TrezorPlugin.Timeouts
import TrezorPlugin.X11Memory
import TrezorPlugin.X11Close
import TrezorPlugin.X11Session
import TrezorPlugin.ConfigLoad
import TrezorPlugin.X11Devices
import TrezorPlugin.WinSession
