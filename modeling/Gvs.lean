import Gvs.RequestReplies
import Gvs.Broadcasts
import Gvs.EventLog
import Gvs.ViewerAppearance
import Gvs.JoiningViewer
import Gvs.Bookkeeping
import Gvs.ViewerHierarchy
import Gvs.ReplaceRetry
import Gvs.GeometryHistory
import Gvs.IndependentLoggers
import Gvs.MessageHistory
import Gvs.DrawStates
import Gvs.ResetOrder
import Gvs.RejectedCalls
import Gvs.LoggedItems
import Gvs.BulkSet
import Gvs.StreamRequests
import Gvs.FailedSnapshots
import Gvs.FrameCount
import Gvs.ViewerPictures
import Gvs.BlockingQueue
import Gvs.SharedUpdates
import Gvs.MessageClients
import Gvs.Conversation
import Gvs.DrawnVertices
import Gvs.Logbook
import Gvs.LoggedPictures
import Gvs.LoggerPrograms
