import LibTg.Tl.Layout
import LibTg.Tl.FlagWords
import LibTg.Tl.Cursor
import LibTg.Tl.Deserialize
import LibTg.Tl.Value
import LibTg.Tl.RoundTrip
import LibTg.Tg.Header
import LibTg.Tg.HeaderSpec
import LibTg.Data.Run
import LibTg.Tg.Sender
import LibTg.Tg.Conservation
import LibTg.Tg.Seqno
import LibTg.Tg.MsgId
import LibTg.Tg.Dispatch
import LibTg.Tg.DispatchSpec
import LibTg.Tg.MessageTree
import LibTg.Tg.Wrapping
import LibTg.Tg.ReceiveLoop
import LibTg.Tg.Keys
import LibTg.Tg.Rejection
import LibTg.Data.Chunks
import LibTg.Tg.Receive
import LibTg.Tg.Chunking
import LibTg.Tg.Hangup
import LibTg.Tg.Encrypt
import LibTg.Tg.Authentication
import LibTg.Data.Checked
import LibTg.Tl.Access
import LibTg.Tl.Bounds
import LibTg.Tg.Framing
import LibTg.Tg.Unknown
import LibTg.Tg.Delivery
import LibTg.Tg.Completion
import LibTg.Tg.Lifetime
import LibTg.Data.Decimal
import LibTg.Data.Tokens
import LibTg.Tg.Download
import LibTg.Tl.SchemaParser
import LibTg.Tl.Declarations
import LibTg.Data.BigEndian
import LibTg.Tg.TwoFactor
import LibTg.Tg.PacketKeys
import LibTg.Sql.Lexer
import LibTg.Sql.Statement
import LibTg.Sql.Keyed
import LibTg.Tg.Database
import LibTg.Tg.MessageStore
import LibTg.Tg.DialogStore
import LibTg.Tg.Partition
import LibTg.Tg.Retries
import LibTg.Tg.DownloadSafety
import LibTg.Tg.Gunzip
import LibTg.Tg.Message
import LibTg.Tg.Arrival
import LibTg.Data.Last
import LibTg.Tg.DialogJoin
import LibTg.Tg.NewMessages
import LibTg.Tg.DialogPages
import LibTg.Tg.SyncQuery
import LibTg.Sql.Page
import LibTg.Tg.HistoryPage
import LibTg.Tg.HashStore
import LibTg.Tg.AccountStore
import LibTg.Tg.Sockets
import LibTg.Tl.Emitters
import LibTg.Data.Ledger
import LibTg.Tl.HeapObject
import LibTg.Tl.Ownership
import LibTg.Tl.EmitterSpec
import LibTg.Tg.ParseAnswer
import LibTg.Tg.BufferSizes
import LibTg.Tg.Migrate
import LibTg.Tg.RandomIds
import LibTg.Tl.VectorFields
import LibTg.Tl.BufRun
import LibTg.Tl.BytesCodec
import LibTg.Tl.Base64
import LibTg.Data.Mixing
import LibTg.Tg.PaginationHash
import LibTg.Tg.SvgPath
import LibTg.Crypto.Pbkdf2
import LibTg.Crypto.Sha1
import LibTg.Mtx.Agreement
import LibTg.Tg.Images
