import Contiki.Coap.Bounds
import Contiki.Coap.Reliability
import Contiki.Coap.RoundTrip
import Contiki.Sicslowpan.Residue
import Contiki.Rpl.DioRoundTrip
import Contiki.Rpl.Versions
import Contiki.Sicslowpan.Fragmentation
import Contiki.Core.Mmem
import Contiki.Mac.FrameRoundTrip
import Contiki.Core.EtimerRuns
import Contiki.Core.SettingsRuns
import Contiki.Antelope.Derive
import Contiki.Antelope.JoinRuns
import Contiki.Antelope.InsertFidelity
import Contiki.Rime.RunicastRuns
import Contiki.Rime.ChameleonRoundTrip
import Contiki.Llsec.ReplayRuns
import Contiki.Rime.CollectGradient
import Contiki.Rime.CollectQueueRuns
import Contiki.Net.Ds6Runs
import Contiki.Rime.Rudolph1Runs
import Contiki.Dev.SlipRuns
import Contiki.Apps.DelugeRuns
import Contiki.Rpl.ExtHeader
import Contiki.Coap.Observe
import Contiki.Net.RouteMatch
import Contiki.Coap.Block1
import Contiki.Coap.WellKnownCore
import Contiki.Rpl.PrefixRuns
import Contiki.Net.Uip6Runs
import Contiki.Core.LinkedList
import Contiki.Net.Chksum
import Contiki.Net.TcpInput
import Contiki.Net.NdOptions
import Contiki.Rpl.ParentChoice
import Contiki.Core.TrickleTimer
import Contiki.Rpl.ParentLoss
import Contiki.Net.Protosocket
import Contiki.Mac.MacSequence
import Contiki.Net.SelectSrc
import Contiki.Json.ParserBounds
import Contiki.Cfs.LogRecords
import Contiki.Cfs.FreeRuns
import Contiki.Mac.CsmaAttempts
import Contiki.Apps.UrlconvRoot
import Contiki.Ip64.Bounds
import Contiki.Core.ProcessRuns
import Contiki.Core.EventOrder
import Contiki.Llsec.Aes128
