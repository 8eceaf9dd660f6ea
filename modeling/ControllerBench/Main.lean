import ControllerBench.Demo.Case

def main : IO UInt32 := do
  match ControllerBench.Demo.run 1000000 with
  | .error fault =>
    IO.eprintln fault.message
    return 1
  | .ok report =>
    IO.println report.text
    if report.passed then
      return 0
    IO.eprintln report.text
    return 101
