import AudioReach.Amdb.Answers
import AudioReach.Amdb.LoaderFinishes
import AudioReach.Amdb.References
import AudioReach.ApmCmd.EndGprCmd
import AudioReach.ApmCmd.RspPayload
import AudioReach.ApmCmd.SubGraphPayload
import AudioReach.Bufpool.Consistent
import AudioReach.CapiCmn.ChannelMask
import AudioReach.CapiCmn.ClientPcm
import AudioReach.CircBuf.BatchRead
import AudioReach.ContGraph.Traverse
import AudioReach.DataArrival.Queries
import AudioReach.Dls.Commands
import AudioReach.Dls.Runs
import AudioReach.EosCargo.DeepCopy
import AudioReach.EosCargo.Propagate
import AudioReach.EosCargo.Runs
import AudioReach.EosCargo.ZeroPush
import AudioReach.Gpr.Accounting
import AudioReach.Gpr.PacketInfo
import AudioReach.Gpr.Registry
import AudioReach.GraphUtils.Boundary
import AudioReach.GraphUtils.CtrlIntents
import AudioReach.GraphUtils.PortLimits
import AudioReach.GraphUtils.PortMove
import AudioReach.GraphUtils.SortMarks
import AudioReach.HashTable.Multimap
import AudioReach.HashTable.Removal
import AudioReach.Interleaver.RoundTrip
import AudioReach.InternalBuf.Runs
import AudioReach.MediaFmt.Runs
import AudioReach.Memorymap.Attrib
import AudioReach.Memorymap.Runs
import AudioReach.MultiClient.Links
import AudioReach.MultiClient.TolerantClose
import AudioReach.MultiClient.UndoRsp
import AudioReach.Offload.PoolRuns
import AudioReach.ParallelCmds.Order
import AudioReach.PosalQueue.Priority
import AudioReach.PullMode.Cuts
import AudioReach.PushMode.Levels
import AudioReach.PushMode.Runs
import AudioReach.SpfCircBuf.WriteRight
import AudioReach.ThreadPool.Jobs
import AudioReach.ThreadPool.Runs
import AudioReach.TopoBuf.Runs
import AudioReach.TopoPorts.Runs
import AudioReach.Trigger.Meaning
import AudioReach.Watchdog.Runs
import AudioReach.WrShMemEp.Runs
