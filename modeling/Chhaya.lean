import Chhaya.Dart.Core
import Chhaya.Crypto.Primitives
import Chhaya.Models
import Chhaya.Codec.Calls
import Chhaya.Ratchet.Receiving
import Chhaya.Ratchet.Loss
import Chhaya.Crypto.Symbolic
import Chhaya.Crypto.Hkdf
import Chhaya.Ratchet.ForwardSecrecy
import Chhaya.Codec.Release
import Chhaya.Codec.Channel
import Chhaya.Ratchet.Agreement
import Chhaya.Ratchet.Separation
import Chhaya.Lib.Async
import Chhaya.Lib.EventLoop
import Chhaya.Client.KeyPair
import Chhaya.Client.Background
import Chhaya.Client.Rotation
import Chhaya.Lib.Uuid
import Chhaya.Lib.Zod
import Chhaya.Server.Api
import Chhaya.Server.Acceptance
import Chhaya.Server.Registration
import Chhaya.Lib.Trace
import Chhaya.Lib.Sqlite
import Chhaya.Client.Migrations
import Chhaya.Client.CallService
import Chhaya.Server.Devices
import Chhaya.Server.Identity
import Chhaya.Ratchet.Outcome
import Chhaya.Ratchet.Reachable
import Chhaya.Ratchet.Headers
import Chhaya.Ratchet.Atomic
import Chhaya.Ratchet.Epochs
import Chhaya.Codec.Resume
import Chhaya.Codec.Restore
import Chhaya.Client.CallSignals
import Chhaya.Server.Pages
import Chhaya.Server.Contacts
import Chhaya.Client.Retry
import Chhaya.Ratchet.Replay
import Chhaya.Lib.Bits
import Chhaya.Crypto.Bip39
import Chhaya.Codec.Payload
import Chhaya.Crypto.Combiners
import Chhaya.Client.SessionKeys
import Chhaya.Client.Wipe
import Chhaya.Codec.Records
import Chhaya.Client.Backup
import Chhaya.Client.Account
import Chhaya.Lib.Typestate
import Chhaya.Client.ApiService
import Chhaya.Crypto.Pqxdh
import Chhaya.Relay.Capacity
import Chhaya.Relay.Fidelity
import Chhaya.Network.Node
import Chhaya.Network.Relay
import Chhaya.Network.Files
import Chhaya.Client.Stego
import Chhaya.Network.PathSelection
import Chhaya.Client.AuthTokens
import Chhaya.Client.Settings
import Chhaya.Lib.Binary64
import Chhaya.Lib.Numeric
import Chhaya.Network.NodeCache
import Chhaya.Client.Connect
import Chhaya.Ratchet.Cache
import Chhaya.Server.Delivery
import Chhaya.Client.Outbox
import Chhaya.Lib.Serial
