import MetaFilogic.Nmbm.Protection
import MetaFilogic.Nmbm.Crash
import MetaFilogic.Nmbm.Untrusted
import MetaFilogic.Bmt.Reload
import MetaFilogic.Hnat.McastTable
import MetaFilogic.Hnat.McastList
import MetaFilogic.Hnat.Update
import MetaFilogic.Hnat.PingPong
import MetaFilogic.Hnat.FlowStore
import MetaFilogic.Hnat.Accounting
import MetaFilogic.Eth.HwLro
import MetaFilogic.Eth.Lifetime
import MetaFilogic.Atenl.Hqa
import MetaFilogic.Atenl.Flash
import MetaFilogic.Eth.NapiIrq
import MetaFilogic.Eth.DmaWhole
import MetaFilogic.Mt753x.VlanTable
import MetaFilogic.Mt753x.DevList
import MetaFilogic.Eth.PcsReset
import MetaFilogic.Eth.UsxgmiiState
import MetaFilogic.Eth.MonitorsExact
import MetaFilogic.Eth.HandshakeRuns
import MetaFilogic.Eth.PtpTxRuns
import MetaFilogic.Upgrade.Complete
import MetaFilogic.FdtPatch.Rewrite
import MetaFilogic.Bmt.BbtRemap
import MetaFilogic.Bmt.Read
import MetaFilogic.PmDomain.Switching
import MetaFilogic.Nmbm.SignatureStored
import MetaFilogic.Nmbm.EraseContract
import MetaFilogic.Nmbm.BlockWalk
import MetaFilogic.Snand.Status
import MetaFilogic.Snand.EmptySector
import MetaFilogic.Snand.FreeOob
import MetaFilogic.Hnat.McastAge
import MetaFilogic.Hnat.DeleteBy
import MetaFilogic.Atenl.RxInfo
import MetaFilogic.Atenl.ChannelExact
import MetaFilogic.Eth.TxDescPacket
import MetaFilogic.BmtNmbm.Unmap
import MetaFilogic.Eth.PtpFine
import MetaFilogic.Eth.QdmaShaper
import MetaFilogic.Thermal.Lvts
import MetaFilogic.Eth.Rss
import MetaFilogic.Eth.SramRings
import MetaFilogic.Switch.VlanTableExact
import MetaFilogic.Eth.TxQueuePoll
import MetaFilogic.FdtPatch.MergeBuffer
import MetaFilogic.Mt753x.PhyRestore
import MetaFilogic.Csi.DumpExact
