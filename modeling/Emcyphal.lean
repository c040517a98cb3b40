import Emcyphal.Gather.Rules
import Emcyphal.Gather.RoundTrip
import Emcyphal.Gather.Repeats
import Emcyphal.Gather.Corruption
import Emcyphal.Scatter.WellFormed
import Emcyphal.Utils.IndexQueue.Map
import Emcyphal.Utils.MultiClassQueue.Deques
import Emcyphal.Rx.PerNode
import Emcyphal.Rx.Panics
import Emcyphal.Registry.LoopBack
import Emcyphal.Registry.Slots
import Emcyphal.Registry.Wakeup
import Emcyphal.Tx.Registry.Schedule
import Emcyphal.Tx.Registry.Interleave
import Emcyphal.Socket.Wakeup
import Emcyphal.Tx.Registry.Fairness
import Emcyphal.Tx.Wakeup
import Emcyphal.Network.Delivery
import Emcyphal.Network.Progress
import Emcyphal.Tx.Response.Order
import Emcyphal.Tx.Refusal
import Emcyphal.Socket.Publisher
import Emcyphal.Socket.Service.Answers
import Emcyphal.Can.Native.Tx.Events
import Emcyphal.Can.Native.Tx.Outcome
import Emcyphal.Can.Native.Info
import Emcyphal.Can.Native.Rx
import Emcyphal.Can.Embassy.Tx
import Emcyphal.Registry.RxReq
import Emcyphal.Can.Native.Subscriptions
import Emcyphal.Can.Embassy.Subscriptions
import Emcyphal.Socket.Service.Delivery
import Emcyphal.Can.Native.RxRunner.Passing
