import WasiKit.Memory
import WasiKit.SharedMemory
import WasiKit.ValueType
import WasiKit.Record.Layout
import WasiKit.Record.Load
import WasiKit.SharedObject
import WasiKit.Atomics
import WasiKit.Arena
import WasiKit.Lock.Machine
import WasiKit.Lock.Exclusion
import WasiKit.Lock.Mutex
import WasiKit.Lock.Wakeup
import WasiKit.Lock.Guarded
import WasiKit.Signal
import WasiKit.Synchronize
