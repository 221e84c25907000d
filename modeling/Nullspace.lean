import Nullspace.Client.Announcements
import Nullspace.Client.Backoff
import Nullspace.Client.Confluence
import Nullspace.Client.DbNotify
import Nullspace.Client.Duplicates
import Nullspace.Client.ExactlyOnce
import Nullspace.Client.GivenUp
import Nullspace.Client.GroupInvites
import Nullspace.Client.KeySlack
import Nullspace.Client.LongPoll
import Nullspace.Client.LostUsername
import Nullspace.Client.Overview
import Nullspace.Client.PagingBack
import Nullspace.Client.Proxying
import Nullspace.Client.Reached
import Nullspace.Client.ReadSenders
import Nullspace.Client.RosterChanges
import Nullspace.Client.RosterLoads
import Nullspace.Client.SavePath
import Nullspace.Client.Staleness
import Nullspace.Client.Upload
import Nullspace.Crypt.TripleDh
import Nullspace.DirClient.ProofOfWork
import Nullspace.Directory.Fetch
import Nullspace.Directory.ProofOfWork
import Nullspace.Directory.Seeds
import Nullspace.Gui.Clusters
import Nullspace.Gui.Labels
import Nullspace.Rpc.Exchange
import Nullspace.Rpc.Pool
import Nullspace.Server.Drain
import Nullspace.Server.Naming
import Nullspace.Server.PubSub
import Nullspace.Structs.Expiry
import Nullspace.Structs.SignedValues
