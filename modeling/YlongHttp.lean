import YlongHttp.Verification.Chunked.Bytes
import YlongHttp.Verification.Client.Bodies
import YlongHttp.Verification.Client.Compliance
import YlongHttp.Verification.Client.Concurrency
import YlongHttp.Verification.Client.HappyEyeballs
import YlongHttp.Verification.Client.LifeCycle
import YlongHttp.Verification.Client.Padding
import YlongHttp.Verification.Client.Relay
import YlongHttp.Verification.Client.SendFlow
import YlongHttp.Verification.Client.Speed
import YlongHttp.Verification.Client.Transfer
import YlongHttp.Verification.H2.Fragments
import YlongHttp.Verification.H2.HeaderBlocks
import YlongHttp.Verification.H2.Panics
import YlongHttp.Verification.H2.PushPromise
import YlongHttp.Verification.H2.Recovery
import YlongHttp.Verification.H3.Bodies
import YlongHttp.Verification.H3.Buffers
import YlongHttp.Verification.H3.ControlStream
import YlongHttp.Verification.H3.Mixing
import YlongHttp.Verification.H3.Requests
import YlongHttp.Verification.H3.RoundTrip
import YlongHttp.Verification.Hpack.History
import YlongHttp.Verification.Hpack.Settings
import YlongHttp.Verification.Http1.Requests
import YlongHttp.Verification.Http1.Reuse
import YlongHttp.Verification.Http1.RoundTrip
import YlongHttp.Verification.Http1.Segments
import YlongHttp.Verification.Huffman.Strings
import YlongHttp.Verification.Mime.FormData
import YlongHttp.Verification.Mime.Panics
import YlongHttp.Verification.Mime.Polling
import YlongHttp.Verification.Mime.RoundTrip
import YlongHttp.Verification.Qpack.Blocking
import YlongHttp.Verification.Qpack.InsertCount
import YlongHttp.Verification.Qpack.Integers
import YlongHttp.Verification.Qpack.SectionSize
import YlongHttp.Verification.Qpack.Segmentation
import YlongHttp.Verification.Requests.AltSvc
import YlongHttp.Verification.Requests.Attempts
import YlongHttp.Verification.Requests.Credentials
import YlongHttp.Verification.Requests.Digests
import YlongHttp.Verification.Requests.Framing
import YlongHttp.Verification.Requests.PercentEncoding
import YlongHttp.Verification.Requests.Pins
import YlongHttp.Verification.Requests.Resending
import YlongHttp.Verification.Requests.Routes
import YlongHttp.Verification.Mime.Segments

/-! # Verification of the HTTP library

The models of the HPACK, QPACK, HTTP/2, HTTP/3 and connection-pool code (`Model`), the general
facts their proofs rest on (`Library`), and the properties proved of the models
(`Verification`). -/
