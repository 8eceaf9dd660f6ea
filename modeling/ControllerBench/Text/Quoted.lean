import ControllerBench.Text.Hidden

namespace ControllerBench.Text

namespace Quoted

def escape (c : Char) : List Char :=
  match c with
  | '"' => ['\\', '"']
  | '\\' => ['\\', '\\']
  | '\t' => ['\\', 't']
  | '\n' => ['\\', 'n']
  | '\r' => ['\\', 'r']
  | '\x00' => ['\\', '0']
  | c => if isHidden c then ['\\', 'u', '\x7b'] ++ Nat.toDigits 16 c.toNat ++ ['\x7d'] else [c]

end Quoted

def quoted (s : String) : String := String.ofList ('"' :: s.toList.flatMap Quoted.escape ++ ['"'])

end ControllerBench.Text
