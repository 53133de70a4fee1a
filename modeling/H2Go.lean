import H2Go.Value.RoundTrip
import H2Go.Value.Write
import H2Go.Value.Clob
import H2Go.Value.Lob
import H2Go.Value.Lemmas
import H2Go.Value.Decfloat
import H2Go.Value.Interval
import H2Go.Value.Temporal
import H2Go.Value.Depth
import H2Go.Text.UUID
import H2Go.Lib.Digits
import H2Go.Lib.Triple
import H2Go.Lib.Approx
import H2Go.Transfer.Write
import H2Go.Transfer.Strings
import H2Go.TypeInfo.Lemmas
import H2Go.TypeInfo.Wire
import H2Go.Rows.Discard
import H2Go.Session.Mirror
import H2Go.Session.Aligned
import H2Go.Rows.Deferred
import H2Go.Rows.Delivery
import H2Go.Rows.Robust
import H2Go.Rows.ScanType
import H2Go.DSN.Forms
import H2Go.Logging.Redact
import H2Go.Context.Watch
import H2Go.Conn.Ownership
import H2Go.Conn.Finality
import H2Go.DSN.Segments
import H2Go.Transfer.Length
import H2Go.Session.Ids
import H2Go.Rows.FetchSize
import H2Go.GeneratedKeys.Exact
import H2Go.Value.Chunks
import H2Go.DSN.Order
import H2Go.Connector.Timeout
import H2Go.Session.Grammar
import H2Go.Session.Atomic
import H2Go.Lib.Sequential
import H2Go.Conn.Discipline
import H2Go.Session.Serving
import H2Go.Conn.Transactions
import H2Go.Conn.Later
