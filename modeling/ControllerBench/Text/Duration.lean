namespace ControllerBench

structure Duration where
  nanos : Nat
  deriving DecidableEq, Repr, Inhabited

namespace Duration

def seconds (n : Nat) : Duration := ⟨n * 1000000000⟩

def millis (n : Nat) : Duration := ⟨n * 1000000⟩

def fraction : Nat → Nat → List Char → List Char
  | 0, _, digits => digits
  | places + 1, n, digits =>
    let digits := if n % 10 = 0 ∧ digits = [] then [] else Nat.digitChar (n % 10) :: digits
    fraction places (n / 10) digits

def decimal (n places : Nat) (unit : String) : String :=
  match fraction places n [] with
  | [] => s!"{n / Nat.pow 10 places}{unit}"
  | digits => s!"{n / Nat.pow 10 places}.{String.ofList digits}{unit}"

def text (d : Duration) : String :=
  if 1000000000 ≤ d.nanos then decimal d.nanos 9 "s"
  else if 1000000 ≤ d.nanos then decimal d.nanos 6 "ms"
  else if 1000 ≤ d.nanos then decimal d.nanos 3 "µs"
  else decimal d.nanos 0 "ns"

end Duration

end ControllerBench
