import QuantaSwap.Lib.Run
import QuantaSwap.Lib.Totals
import QuantaSwap.Lib.Evm
import QuantaSwap.Lib.EvmPair
import QuantaSwap.Lib.Lockstep
import QuantaSwap.Lib.Text
import QuantaSwap.Lib.Json
import QuantaSwap.Lib.JsonText
import QuantaSwap.Lib.Decimal
import QuantaSwap.Lib.Utf8
import QuantaSwap.Lib.Stringify
import QuantaSwap.Lib.Checks
import QuantaSwap.Lib.Program
import QuantaSwap.Lib.Sort
import QuantaSwap.Lib.Keyed
import QuantaSwap.Lib.Hex
import QuantaSwap.Lib.Permits
import QuantaSwap.Lib.Files
import QuantaSwap.Htlc.Types
import QuantaSwap.Htlc.V2
import QuantaSwap.Htlc.V3
import QuantaSwap.Htlc.Effect
import QuantaSwap.Htlc.System
import QuantaSwap.Htlc.Solvency
import QuantaSwap.Htlc.Credits
import QuantaSwap.Htlc.Lifecycle
import QuantaSwap.Htlc.Settlement
import QuantaSwap.Htlc.TwoLeg
import QuantaSwap.Htlc.Refinement
import QuantaSwap.Htlc.History
import QuantaSwap.Htlc.Reveal
import QuantaSwap.Maker.Policy
import QuantaSwap.Maker.Claim
import QuantaSwap.Browser.SwapMachine
import QuantaSwap.Browser.Claim
import QuantaSwap.Browser.Collect
import QuantaSwap.Browser.OrderSigning
import QuantaSwap.Browser.Mirror
import QuantaSwap.Browser.Disputes
import QuantaSwap.Taker.Policy
import QuantaSwap.Taker.Collect
import QuantaSwap.Book.Assets
import QuantaSwap.Book.Wire
import QuantaSwap.Book.Signing
import QuantaSwap.Book.SigningFacts
import QuantaSwap.Book.Order
import QuantaSwap.Book.Hydrate
import QuantaSwap.Book.Store
import QuantaSwap.Book.Operations
import QuantaSwap.Book.Federation
import QuantaSwap.Book.Effect
import QuantaSwap.Book.Published
import QuantaSwap.Book.Commit
import QuantaSwap.Book.System
import QuantaSwap.Book.Hashlocks
import QuantaSwap.Book.Rows
import QuantaSwap.Book.Retained
import QuantaSwap.Book.Terminal
import QuantaSwap.Book.Proven
import QuantaSwap.Book.Persistence
import QuantaSwap.Book.Reload
import QuantaSwap.Book.Message
import QuantaSwap.Book.Readings
import QuantaSwap.Book.Strangers
import QuantaSwap.Book.Arrivals
import QuantaSwap.Book.Released
import QuantaSwap.Book.Relisted
import QuantaSwap.Book.Match
import QuantaSwap.Book.Atomic
import QuantaSwap.Book.Gate
import QuantaSwap.Book.Retention
import QuantaSwap.Book.Limits
import QuantaSwap.Feed.Event
import QuantaSwap.Feed.Ring
import QuantaSwap.Feed.Image
import QuantaSwap.Feed.Log
import QuantaSwap.Feed.Replay
import QuantaSwap.Feed.Runs
import QuantaSwap.Feed.Faults
import QuantaSwap.Feed.Responses
import QuantaSwap.Feed.Pages
import QuantaSwap.Feed.Follow
import QuantaSwap.Feed.Served
import QuantaSwap.Feed.Peer
import QuantaSwap.Feed.Honest
import QuantaSwap.Serve.Admission
import QuantaSwap.Serve.Cache
import QuantaSwap.Serve.Slots
import QuantaSwap.Maker.Record
import QuantaSwap.Maker.Signer
import QuantaSwap.Maker.BookClient
import QuantaSwap.Maker.State
import QuantaSwap.Maker.World
import QuantaSwap.Maker.Advance
import QuantaSwap.Maker.Tick
import QuantaSwap.Maker.Guard
import QuantaSwap.Maker.Chains
import QuantaSwap.Maker.Sound
import QuantaSwap.Maker.Ledger
import QuantaSwap.Maker.Keeps
import QuantaSwap.Maker.Publish
import QuantaSwap.Maker.Act
import QuantaSwap.Maker.Pass
import QuantaSwap.Maker.Runs
import QuantaSwap.Maker.Play
import QuantaSwap.Maker.Retire
import QuantaSwap.Maker.Statements
import QuantaSwap.Maker.Windows
import QuantaSwap.Maker.Pinned
import QuantaSwap.Book.Windows
import QuantaSwap.Book.Queue
import QuantaSwap.Browser.ProofCache
import QuantaSwap.Qrvm.Codec
import QuantaSwap.Qrvm.RoundTrip
import QuantaSwap.Maker.FirstCome
import QuantaSwap.Maker.ChainReads
import QuantaSwap.Book.Lapse
import QuantaSwap.Book.Evolve
import QuantaSwap.Maker.Ladder
import QuantaSwap.Maker.Price
import QuantaSwap.Taker.State
import QuantaSwap.Taker.Proposals
import QuantaSwap.Serve.ClientIp
import QuantaSwap.Maker.Coverage
import QuantaSwap.Serve.Lease
import QuantaSwap.Serve.LeaseFiles
import QuantaSwap.Serve.Fence
import QuantaSwap.Serve.Exclusion
import QuantaSwap.Feed.Deferral
import QuantaSwap.Feed.Held
import QuantaSwap.Feed.Quota
import QuantaSwap.Serve.Streams
import QuantaSwap.Serve.Windows
import QuantaSwap.Browser.Observations
