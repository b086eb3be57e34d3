import BleSim.AtomicTheorems
import BleSim.SubscriberTheorems
import BleSim.ViewTheorems
import BleSim.SignalTheorems
import BleSim.RegistryTheorems
import BleSim.ReplyTheorems
import BleSim.ControllerTheorems
import BleSim.WriteTheorems
import BleSim.RoundTripTheorems
import BleSim.LeakTheorems
import BleSim.DispatchTheorems
import BleSim.TeardownTheorems
import BleSim.LuaStack
import BleSim.Mainloop
import BleSim.Main
import BleSim.GrowthTheorems
import BleSim.SafetyTheorems
import BleSim.SimulatorSafety
