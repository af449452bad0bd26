import ProtoFH.Db.Loop
import ProtoFH.Db.Redelivery
import ProtoFH.Fh.Glimpse
import ProtoFH.Fh.TopOfBook
import ProtoFH.Market.Conservation
import ProtoFH.Mirror.Tape
import ProtoFH.Prototype.Bootstrap
import ProtoFH.Prototype.EndStates
import ProtoFH.Prototype.FrameErrors
import ProtoFH.Prototype.Instruments
import ProtoFH.Prototype.ItchFile
import ProtoFH.Prototype.Reactor
import ProtoFH.Prototype.Reassembly
import ProtoFH.Prototype.ShortSell
import ProtoFH.Prototype.Sidecar
import ProtoFH.Prototype.Uptick
import ProtoFH.Recovery.Events
import ProtoFH.Recovery.Fixpoint
import ProtoFH.Recovery.RoundTrip
import ProtoFH.Recovery.Tickers
import ProtoFH.Soup.LoginAgreement
import ProtoFH.Soup.Resume
import ProtoFH.Web.Answered
import ProtoFH.Web.Bootstrap
import ProtoFH.Web.ClientFrames
import ProtoFH.Web.Closing
import ProtoFH.Web.Coalescing
import ProtoFH.Web.Epochs
import ProtoFH.Web.Fanout
import ProtoFH.Web.Pushes
import ProtoFH.Web.Rings
