import CacheServer.Main
import CacheServer.Loopback
import CacheServer.Native.Interleaving
import CacheServer.Store.Sweeper
import CacheServer.Proofs.Protocol.Request
import CacheServer.Proofs.Protocol.Response
import CacheServer.Proofs.Store.Lookup
import CacheServer.Proofs.Store.LiveMap
import CacheServer.Proofs.Http.Route
import CacheServer.Proofs.Native.Command
import CacheServer.Proofs.Write
import CacheServer.Proofs.History
import CacheServer.Proofs.Protocol.Refusal
import CacheServer.Proofs.Native.Connection
import CacheServer.Proofs.Native.Dispatch
import CacheServer.Proofs.Frame
import CacheServer.Proofs.Http.Gateway
import CacheServer.Proofs.Accounting
import CacheServer.Proofs.Json.Reading
import CacheServer.Proofs.Http.SetBody
import CacheServer.Proofs.Http.Reply
import CacheServer.Proofs.Agreement
import CacheServer.Proofs.Native.Registry
import CacheServer.Proofs.Native.Interleaving
import CacheServer.Proofs.Native.Shutdown
import CacheServer.Proofs.Http.Percent
import CacheServer.Proofs.Http.Retrieval
import CacheServer.Proofs.Lasting
import CacheServer.Proofs.Native.Clients
import CacheServer.Proofs.Contents
import CacheServer.Proofs.Listing
import CacheServer.Proofs.Protocol.Grammar
import CacheServer.Proofs.Http.Wire
import CacheServer.Proofs.Http.Written
import CacheServer.Proofs.Http.Exchange
import CacheServer.Proofs.Http.Decoding
import CacheServer.Proofs.Http.Routing
import CacheServer.Proofs.Http.Accepted
import CacheServer.Proofs.Store.Expiry
import CacheServer.Proofs.Native.Accept
import CacheServer.Proofs.Store.Sweeping
import CacheServer.Proofs.Service.Registry
import CacheServer.Proofs.Loopback
