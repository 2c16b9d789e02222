import RpmsgLite.Conc.Accesses
import RpmsgLite.Conc.Atomic
import RpmsgLite.Conc.Linearize
import RpmsgLite.Conc.LostBuffer
import RpmsgLite.Conc.Micro
import RpmsgLite.Conc.Preempt
import RpmsgLite.Conc.Refine
import RpmsgLite.Conc.ReleaseRace
import RpmsgLite.Conc.Slots
import RpmsgLite.Env.EventGroup
import RpmsgLite.Env.LinkEvents
import RpmsgLite.Env.Threadx
import RpmsgLite.Env.Turnstile
import RpmsgLite.Ept.Destroy
import RpmsgLite.Ept.Dispatch
import RpmsgLite.Ept.DoublyLinked
import RpmsgLite.Ept.Endpoint
import RpmsgLite.Ept.LList
import RpmsgLite.Ept.ListSteps
import RpmsgLite.Ept.LookupRace
import RpmsgLite.Ept.Refine
import RpmsgLite.Init.Balance
import RpmsgLite.Init.Config
import RpmsgLite.Init.CustomConfig
import RpmsgLite.Init.Environment
import RpmsgLite.Init.FixedVring
import RpmsgLite.Init.HeaderVring
import RpmsgLite.Init.Instances
import RpmsgLite.Init.Layout
import RpmsgLite.Init.Master
import RpmsgLite.Init.Memory
import RpmsgLite.Init.Protected
import RpmsgLite.Init.SameLayout
import RpmsgLite.Init.Setup
import RpmsgLite.Init.Standard
import RpmsgLite.Irq.Boot
import RpmsgLite.Irq.Coverage
import RpmsgLite.Irq.Hang
import RpmsgLite.Irq.Install
import RpmsgLite.Irq.Lifetime
import RpmsgLite.Irq.LinkUp
import RpmsgLite.Irq.Mailbox
import RpmsgLite.Irq.Masking
import RpmsgLite.Irq.Mu
import RpmsgLite.Irq.Routing
import RpmsgLite.Irq.Startup
import RpmsgLite.Irq.Steps
import RpmsgLite.Irq.SwMbox
import RpmsgLite.Irq.System
import RpmsgLite.Lib.AddressMap
import RpmsgLite.Lib.ByteMem
import RpmsgLite.Lib.CString
import RpmsgLite.Lib.Cache
import RpmsgLite.Lib.Channel
import RpmsgLite.Lib.Crc
import RpmsgLite.Lib.Custody
import RpmsgLite.Lib.DList
import RpmsgLite.Lib.FreeRing
import RpmsgLite.Lib.Mailbox
import RpmsgLite.Lib.MaskArith
import RpmsgLite.Lib.Runs
import RpmsgLite.Lib.SideBySide
import RpmsgLite.Lib.Tasks
import RpmsgLite.Lib.Ticks
import RpmsgLite.Link.Cached
import RpmsgLite.Link.Calls
import RpmsgLite.Link.Capacity
import RpmsgLite.Link.Channels
import RpmsgLite.Link.Clean
import RpmsgLite.Link.Conservation
import RpmsgLite.Link.Contents
import RpmsgLite.Link.Delivery
import RpmsgLite.Link.Drain
import RpmsgLite.Link.Flow
import RpmsgLite.Link.Handover
import RpmsgLite.Link.Invariant
import RpmsgLite.Link.Length
import RpmsgLite.Link.Lift
import RpmsgLite.Link.Network
import RpmsgLite.Link.Ops
import RpmsgLite.Link.Parked
import RpmsgLite.Link.Pool
import RpmsgLite.Link.RxSteps
import RpmsgLite.Link.Start
import RpmsgLite.Link.StartLifted
import RpmsgLite.Link.StartTranslated
import RpmsgLite.Link.System
import RpmsgLite.Link.Timeout
import RpmsgLite.Link.Translated
import RpmsgLite.Link.TxSteps
import RpmsgLite.Link.Views
import RpmsgLite.Ns.Announce
import RpmsgLite.Ns.Bind
import RpmsgLite.Platform.Imx943
import RpmsgLite.Platform.Ports
import RpmsgLite.Queue.Bounded
import RpmsgLite.Queue.Mail
import RpmsgLite.Queue.Owned
import RpmsgLite.Queue.Recv
import RpmsgLite.Queue.System
import RpmsgLite.Virtio.Ring
import RpmsgLite.Virtio.Suppress
import RpmsgLite.Virtio.UsedGuard
import RpmsgLite.Virtio.Virtqueue
import RpmsgLite.Virtio.Vring
