import SlopSync.Hub.Lifecycle
import SlopSync.Hub.Push
import SlopSync.Hub.Pairing
import SlopSync.Hub.Grants
import SlopSync.Hub.Hello
import SlopSync.Hub.Blob
import SlopSync.Hub.Intent
import SlopSync.Hub.Stream
import SlopSync.Hub.Emits
import SlopSync.Hub.Run
import SlopSync.Hub.View
import SlopSync.Hub.Wire
import SlopSync.Refine.Lifecycle
import SlopSync.Refine.Push
import SlopSync.Refine.Grants
import SlopSync.Refine.Pairing
import SlopSync.Refine.Hello
import SlopSync.Refine.Intent
import SlopSync.Refine.Stream
import SlopSync.Refine.Run
import SlopSync.Hub.Bench
import SlopSync.Laws.Admission
import SlopSync.Laws.Ownership
import SlopSync.Laws.Latch
import SlopSync.Laws.Trust
import SlopSync.Laws.Readiness
import SlopSync.Laws.Sources
import SlopSync.Laws.Grants
import SlopSync.Laws.Rates
import SlopSync.Js.OrderedMap
import SlopSync.Js.Catalog
import SlopSync.Laws.Graying
import SlopSync.Js.Blob
import SlopSync.Js.Intents
import SlopSync.Js.Session
import SlopSync.Laws.Promises
import SlopSync.Laws.Layouts
import SlopSync.CborReader
import SlopSync.LedgerCodec
import SlopSync.Laws.Revocation
import SlopSync.Laws.SelfPairing
import SlopSync.IntentCodec
import SlopSync.Laws.Generations
import SlopSync.Laws.Provenance
import SlopSync.Laws.Refusals
import SlopSync.Laws.Reapproval
import SlopSync.Laws.Windows
import SlopSync.Sha256
import SlopSync.Client.Inbound
import SlopSync.Client.Reassembler
import SlopSync.Client.Send
import SlopSync.Client.Session
import SlopSync.Client.Run
import SlopSync.Client.Acts
import SlopSync.Client.Does
import SlopSync.Laws.ClientSession
import SlopSync.Profile.Head
import SlopSync.Profile.Tree
import SlopSync.Profile.Read
import SlopSync.Profile.Emit
import SlopSync.Laws.Profile
import SlopSync.Profile.Decoder
import SlopSync.Codec.Fields
import SlopSync.Codec.Trust
import SlopSync.Codec.Intent
import SlopSync.Codec.Hello
import SlopSync.Codec.Welcome
import SlopSync.Codec.Ledger
import SlopSync.Laws.Codec
import SlopSync.Laws.Aliasing
import SlopSync.Laws.Persistence
import SlopSync.Desk
import SlopSync.Laws.Settlement
import SlopSync.Codec.Nack
import SlopSync.Laws.Reassembly
import SlopSync.Laws.Transfer
import SlopSync.Packed
import SlopSync.SlopBench.Echoes
import SlopSync.Laws.JsCodec
import SlopSync.Laws.Convergence
import SlopSync.ClockSync
import SlopSync.Laws.Schedule
import SlopSync.Patches
import SlopSync.Laws.Chunks
import SlopSync.Fragmentation
import SlopSync.Laws.Fragments
import SlopSync.Laws.RoundTrip
import SlopSync.Mfp.Segments
import SlopSync.Laws.Emitter
import SlopSync.Buckets
import SlopSync.Laws.Metering
import SlopSync.Senders
import SlopSync.Laws.Pacing
import SlopSync.AckMask
import SlopSync.Laws.Counters
import SlopSync.SerialCobs
import SlopSync.Laws.Cobs
import SlopSync.Js.Int32
import SlopSync.Estop
import SlopSync.Js.Frames
import SlopSync.Laws.Estop
import SlopSync.Absorb
import SlopSync.Fips180
import SlopSync.Laws.Sha256
import SlopSync.Js.Sha256
import SlopSync.Laws.Etag
import SlopSync.BundleWriter
import SlopSync.Laws.Bundles
import SlopSync.InProcess
import SlopSync.Laws.InProcess
import SlopSync.CborCursor
import SlopSync.Laws.Cursor
import SlopSync.LayoutCodec
import SlopSync.Js.Packed
import SlopSync.Laws.PackedLayouts
import SlopSync.CNumbers
import SlopSync.SlopBench.Config
import SlopSync.SlopBench.Stored
import SlopSync.Laws.BenchConfig
import SlopSync.Follows
import SlopSync.Circular
import SlopSync.Rings
import SlopSync.Laws.Rings
import SlopSync.FiniteMaps
import SlopSync.Arrays
import SlopSync.Laws.Arrays
import SlopSync.Pools
import SlopSync.Builder
import SlopSync.Contents
import SlopSync.Laws.Builder
import SlopSync.Refine.Memory
import SlopSync.Fates
import SlopSync.Laws.Tallies
import SlopSync.Laws.Events
import SlopSync.Laws.Pushes
import SlopSync.Profile.Choice
import SlopSync.CatalogCodec
import SlopSync.CatalogTrees
import SlopSync.Laws.CatalogLabels
import SlopSync.Laws.CatalogFields
import SlopSync.Laws.CatalogDecode
import SlopSync.Laws.CatalogSound
import SlopSync.Laws.CatalogSentFields
import SlopSync.Laws.CatalogRoundTrip
import SlopSync.Laws.HubAuth
import SlopSync.Laws.Answers
import SlopSync.Laws.Deadman
import SlopSync.Codec.Requests
import SlopSync.CatalogCheck
import SlopSync.Codec.Replies
import SlopSync.Laws.Bootstrap
import SlopSync.Laws.Conformance
import SlopSync.Laws.Messages
import SlopSync.SlopBench.WsPort
import SlopSync.Laws.WsPort
