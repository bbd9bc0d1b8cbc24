import Http2Asio.Transition.System
import Http2Asio.Transition.History
import Http2Asio.Ownership.Ledger
import Http2Asio.Model.Nghttp2
import Http2Asio.Model.Http2Session
import Http2Asio.Model.Asio
import Http2Asio.Model.Connection
import Http2Asio.Model.IoServicePool
import Http2Asio.Model.Server
import Http2Asio.Session.StreamTable
import Http2Asio.Session.EndOfStream
import Http2Asio.Session.Framing
import Http2Asio.Session.Capacity
import Http2Asio.Session.Release
import Http2Asio.Connection.Effects
import Http2Asio.Connection.Exclusive
import Http2Asio.Connection.Quiescence
import Http2Asio.Connection.Flow
import Http2Asio.Connection.Wire
import Http2Asio.Connection.Timer
import Http2Asio.Reentrancy.Machine
import Http2Asio.Reentrancy.Guard
import Http2Asio.Reentrancy.Refinement
import Http2Asio.Server.Effects
import Http2Asio.Server.Bind
import Http2Asio.Server.Confinement
import Http2Asio.Server.Accepting
import Http2Asio.Server.Runners
import Http2Asio.Server.Joining
import Http2Asio.Model.HttpParser
import Http2Asio.Model.HttpExecute
import Http2Asio.Http1.Phases
import Http2Asio.Http1.Lawful.Reaction
import Http2Asio.Http1.Lawful.StartLine
import Http2Asio.Http1.Lawful.Headers
import Http2Asio.Http1.Lawful.Values
import Http2Asio.Http1.Lawful.Bodies
import Http2Asio.Http1.Lawful
import Http2Asio.Http1.Execution
import Http2Asio.Http1.Lifetime
import Http2Asio.Feeding.Feeder
import Http2Asio.Http1.Plain
import Http2Asio.Http1.Twins
import Http2Asio.Http1.Scans
import Http2Asio.Http1.Chunking
import Http2Asio.Http1.Cuts
import Http2Asio.Http1.Limit
import Http2Asio.Http1.Quiet
import Http2Asio.Http1.Meter
import Http2Asio.Http1.FieldNames
import Http2Asio.Http1.FieldValues
import Http2Asio.Http1.ValueWords
import Http2Asio.Http1.Fields
import Http2Asio.Http1.RequestLine
import Http2Asio.Http1.Bodies
import Http2Asio.Http1.Requests
import Http2Asio.Http1.RoundTrip
