namespace ControllerBench.Json

def escape (c : Char) : List Char :=
  match c with
  | '"' => ['\\', '"']
  | '\\' => ['\\', '\\']
  | '\x08' => ['\\', 'b']
  | '\t' => ['\\', 't']
  | '\n' => ['\\', 'n']
  | '\x0c' => ['\\', 'f']
  | '\r' => ['\\', 'r']
  | c =>
    if c.toNat < 32 then
      ['\\', 'u', '0', '0', Nat.digitChar (c.toNat / 16), Nat.digitChar (c.toNat % 16)]
    else [c]

def string (s : String) : String := String.ofList ('"' :: s.toList.flatMap escape ++ ['"'])

def array (items : List String) : String := "[" ++ String.intercalate "," items ++ "]"

def object (fields : List (String × String)) : String :=
  "\x7b" ++ String.intercalate "," (fields.map fun f => s!"{string f.1}:{f.2}") ++ "\x7d"

end ControllerBench.Json
