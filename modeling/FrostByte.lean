import FrostByte.Drivers.Partition
import FrostByte.Drivers.Transfer
import FrostByte.Fat.ClusterBuffer
import FrostByte.Fat.Entries
import FrostByte.Fat.Geometry
import FrostByte.Fat.RemoveDir
import FrostByte.Fat16.AnyContent
import FrostByte.Fd.BrokenPipe
import FrostByte.Fd.Dup
import FrostByte.Heap.Safety
import FrostByte.Ipc.ShmRange
import FrostByte.Ipc.SocketClose
import FrostByte.Kernel.Dynlink
import FrostByte.Kernel.HeapPages
import FrostByte.Kernel.Klog
import FrostByte.Kernel.Scheduler
import FrostByte.Kernel.UserStack
import FrostByte.Kernel.Wait
import FrostByte.Pmm.InitCorrect
import FrostByte.Syscall.Calendar
import FrostByte.Syscall.Clock
import FrostByte.Syscall.Credentials
import FrostByte.Syscall.Fcntl
import FrostByte.Syscall.ForkHeap
import FrostByte.User.Compositor
import FrostByte.User.Crypt
import FrostByte.User.Descriptors
import FrostByte.User.Malloc
import FrostByte.User.Mkfat16
import FrostByte.User.Partmk
import FrostByte.User.Passwd
import FrostByte.User.Redirect
import FrostByte.Vfs.Symlink
import FrostByte.Vmm.Translation
