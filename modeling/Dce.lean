import Dce.Session.Stays
import Dce.Session.Sync
import Dce.Session.Expiry
import Dce.Session.Chain
import Dce.Session.Copies
import Dce.Session.Crowd
import Dce.Session.Marker
import Dce.Session.Encoding
import Dce.Session.Plain
import Dce.Session.Outcomes
import Dce.Session.Spared
import Dce.Session.Binding
import Dce.Protocol.Receiving
import Dce.Protocol.Framing
import Dce.Protocol.Replies
import Dce.Session.Age
import Dce.Session.Idle
import Dce.Session.Cached
import Dce.Protocol.Cli
import Dce.Protocol.Bodies
import Dce.Protocol.Hyper
import Dce.Router.Locate
import Dce.Router.Entries
import Dce.Router.Prefixes
import Dce.Router.Rounds
import Dce.Router.Context
import Dce.Router.Walks
import Dce.Router.Undeclared
import Dce.Router.Suffixes
import Dce.Session.Codec
import Dce.Protocol.Status
import Dce.Router.SecondPass
import Dce.Router.Ends
import Dce.Router.Panics
import Dce.Session.Renewals
import Dce.Router.Priority
import Dce.Router.StaticKeys
import Dce.Router.Orders
import Dce.App.Serving
