import ControllerBench.Text.Duration

namespace ControllerBench

structure Config where
  defaultTimeout : Duration := .seconds 5
  queueSize : Nat := 128
  sleepOnShutdown : Duration := .millis 10
  deriving DecidableEq, Repr, Inhabited

end ControllerBench
