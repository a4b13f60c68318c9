import Hypermeow.Lib.Go
import Hypermeow.Lib.Slice
import Hypermeow.Lib.Framing
import Hypermeow.Socket.FrameSocket
import Hypermeow.Lib.Runs
import Hypermeow.Socket.NoiseSocket
import Hypermeow.Socket.NoiseHandshake
import Hypermeow.Client.ResponseWaiters
import Hypermeow.AppState.LTHash
import Hypermeow.AppState.Store
import Hypermeow.Lib.KeyedSum
import Hypermeow.Lib.Cbc
import Hypermeow.Util.CbcUtil
import Hypermeow.AppState.Processor
import Hypermeow.AppState.Decoded
import Hypermeow.AppState.Integrity
import Hypermeow.AppState.Atomicity
import Hypermeow.AppState.Encode
import Hypermeow.AppState.Labels
import Hypermeow.AppState.EncodeHash
import Hypermeow.Lib.Decimal
import Hypermeow.Lib.Cursor
import Hypermeow.Types.JID
import Hypermeow.Binary.Token
import Hypermeow.Binary.Node
import Hypermeow.Binary.Encoder
import Hypermeow.Binary.Decoder
import Hypermeow.Binary.Strings
import Hypermeow.Binary.RoundTrip
import Hypermeow.Binary.WireJIDs
import Hypermeow.Binary.Robustness
import Hypermeow.Lib.Sort
import Hypermeow.Binary.XML
import Hypermeow.Client.EventBuffer
import Hypermeow.Client.ExactlyOnce
import Hypermeow.Client.UserDevices
import Hypermeow.Client.SendMessage
import Hypermeow.Client.FanOut
import Hypermeow.Lib.BoundedMap
import Hypermeow.Lib.Database
import Hypermeow.Store.LIDMap
import Hypermeow.Store.LIDCalls
import Hypermeow.Store.LIDTransparency
import Hypermeow.Store.LIDRollback
import Hypermeow.Store.Migration
import Hypermeow.Store.IdentityCache
import Hypermeow.Store.EnsureIdentity
import Hypermeow.Store.SessionCache
import Hypermeow.Store.SessionTransparency
import Hypermeow.Store.PreKeys
import Hypermeow.Client.RemotePreKeys
import Hypermeow.Client.Armadillo
import Hypermeow.AppState.Panics
import Hypermeow.AppState.MissingKeys
import Hypermeow.Client.Answers
import Hypermeow.Client.RemoteAnswers
import Hypermeow.Client.HandlerQueue
import Hypermeow.Client.Disconnect
import Hypermeow.Lib.File
import Hypermeow.Util.CbcStream
import Hypermeow.Client.Media
import Hypermeow.Client.Upload
import Hypermeow.Client.MediaIntegrity
import Hypermeow.Client.MediaToFile
import Hypermeow.AppState.Recovery
import Hypermeow.AppState.Replica
import Hypermeow.Client.AppStateSync
import Hypermeow.Client.AppStateWriters
import Hypermeow.Client.AppStateLock
import Hypermeow.Types.ParseJID
import Hypermeow.Types.JIDText
import Hypermeow.Client.AppStateDispatch
import Hypermeow.Client.SecurityCode
import Hypermeow.Client.Pairing
import Hypermeow.Store.ContactStore
import Hypermeow.Store.ContactCache
import Hypermeow.Client.QRChannel
import Hypermeow.Store.LIDBatches
import Hypermeow.Client.IdentityChange
import Hypermeow.Client.DeviceNotifications
import Hypermeow.Client.OwnDevice
import Hypermeow.Client.Receipts
import Hypermeow.Client.GroupCache
import Hypermeow.Client.GroupSend
import Hypermeow.Types.UnwrapRaw
import Hypermeow.Client.ContactSync
import Hypermeow.Util.CbcAgreement
import Hypermeow.Client.UploadMemory
import Hypermeow.Client.Transport
