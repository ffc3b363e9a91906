import SuperShuckie.KeyframeMasks.Layout
import SuperShuckie.Player.Materialising
import SuperShuckie.Recording.BoundedSeeks
import SuperShuckie.Recording.Pictures
import SuperShuckie.Core.Wrapper
import SuperShuckie.PlayTogether.Unbroken
import SuperShuckie.PlayTogether.Received
import SuperShuckie.Core.Resync
import SuperShuckie.Live.QueueRuns
import SuperShuckie.Live.LinkTraffic
import SuperShuckie.Convert.Replacing
import SuperShuckie.Frontend.Bookmarks
import SuperShuckie.FrameServer.Cancels
import SuperShuckie.PlayTogether.Writer
import SuperShuckie.PlayTogether.Unplugging
import SuperShuckie.PlayTogether.PeerIds
import SuperShuckie.PlayTogether.Cables
import SuperShuckie.PlayTogether.Settings
import SuperShuckie.Link.SerialRuns
import SuperShuckie.Memory.WatchIds
import SuperShuckie.Memory.WatchLimits
import SuperShuckie.Live.FrameNumbers
import SuperShuckie.Memory.SearchLayout
import SuperShuckie.Core.InputRuns
import SuperShuckie.StoredPayload.Ranges
import SuperShuckie.FrameServer.Framing
import SuperShuckie.Frontend.TypeRuns
import SuperShuckie.CoreThread.SyncedRuns
import SuperShuckie.CoreThread.DesiredRuns
import SuperShuckie.Legacy.Faithful
import SuperShuckie.VideoExport.Exported
import SuperShuckie.Lockstep.Progress
