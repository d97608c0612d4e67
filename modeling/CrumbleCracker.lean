import CrumbleCracker.Fsimage.FatTable
import CrumbleCracker.Vm.Identity
import CrumbleCracker.Vm.Shutdown
import CrumbleCracker.Oci.StoreHistory
import CrumbleCracker.Oci.BlobPull
import CrumbleCracker.Nvme.Messages
import CrumbleCracker.Nvme.Rings
import CrumbleCracker.Netstack.HostAccess
import CrumbleCracker.Netstack.TcpAck
import CrumbleCracker.Netstack.TcpReassembly
import CrumbleCracker.Netstack.TcpReading
import CrumbleCracker.Netstack.TcpStream
import CrumbleCracker.Netstack.TcpTimer
import CrumbleCracker.Virtio.SavedRegisters
import CrumbleCracker.Virtio.Framebuffer
import CrumbleCracker.Virtio.SimpleVsock
import CrumbleCracker.Virtio.VsockCredit
import CrumbleCracker.Virtio.VsockSignals
import CrumbleCracker.Virtio.VsockStream
import CrumbleCracker.Virtio.LockManager
import CrumbleCracker.Virtio.MountReadOnly
import CrumbleCracker.Virtio.MountRestore
import CrumbleCracker.Virtio.NodeRestore
import CrumbleCracker.Virtio.PageRun
import CrumbleCracker.Virtio.DurableState
import CrumbleCracker.Virtio.CrashPoints
import CrumbleCracker.Ptyterm.Resize
import CrumbleCracker.Serial.Uart
