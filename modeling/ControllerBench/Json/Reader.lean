namespace ControllerBench.Json

/-- A string read so far as escapes go: an escape by number is one unit of sixteen bits. -/
inductive Piece where
  | char (c : Char)
  | unit (n : Nat)
  deriving DecidableEq, Repr

inductive StringMode where
  | plain
  | escaped
  | hex (left value : Nat)
  deriving DecidableEq, Repr

def isBlank (c : Char) : Bool := c = ' ' || c = '\n' || c = '\t' || c = '\r'

def dropBlanks (cs : List Char) : List Char := cs.dropWhile isBlank

def hexValue? (c : Char) : Option Nat :=
  if '0' ≤ c ∧ c ≤ '9' then some (c.toNat - '0'.toNat)
  else if 'a' ≤ c ∧ c ≤ 'f' then some (c.toNat - 'a'.toNat + 10)
  else if 'A' ≤ c ∧ c ≤ 'F' then some (c.toNat - 'A'.toNat + 10)
  else none

def unescape? : Char → Option Char
  | '"' => some '"'
  | '\\' => some '\\'
  | '/' => some '/'
  | 'b' => some '\x08'
  | 'f' => some '\x0c'
  | 'n' => some '\n'
  | 'r' => some '\r'
  | 't' => some '\t'
  | _ => none

def consPiece (p : Piece) (r : List Piece × List Char) : List Piece × List Char := (p :: r.1, r.2)

def scanString : StringMode → List Char → Option (List Piece × List Char)
  | _, [] => none
  | .plain, c :: rest =>
    if c = '"' then some ([], rest)
    else if c = '\\' then scanString .escaped rest
    else if c.toNat < 32 then none
    else (scanString .plain rest).map (consPiece (.char c))
  | .escaped, c :: rest =>
    if c = 'u' then scanString (.hex 3 0) rest
    else
      match unescape? c with
      | some d => (scanString .plain rest).map (consPiece (.char d))
      | none => none
  | .hex left value, c :: rest =>
    match hexValue? c, left with
    | none, _ => none
    | some v, 0 => (scanString .plain rest).map (consPiece (.unit (value * 16 + v)))
    | some v, left + 1 => scanString (.hex left (value * 16 + v)) rest

def isLead (n : Nat) : Bool := 0xD800 ≤ n && n < 0xDC00

def isTrail (n : Nat) : Bool := 0xDC00 ≤ n && n < 0xE000

/-- Joins each leading half with the trailing half right after it; a half alone is no character. -/
def joinPieces : List Piece → Option (List Char)
  | [] => some []
  | .char c :: rest => (joinPieces rest).map (c :: ·)
  | .unit n :: rest =>
    if isLead n then
      match rest with
      | .unit m :: rest =>
        if isTrail m then
          (joinPieces rest).map (Char.ofNat (0x10000 + (n - 0xD800) * 0x400 + (m - 0xDC00)) :: ·)
        else none
      | _ => none
    else if isTrail n then none
    else (joinPieces rest).map (Char.ofNat n :: ·)

def readString (cs : List Char) : Option (String × List Char) :=
  match dropBlanks cs with
  | '"' :: rest =>
    match scanString .plain rest with
    | some (pieces, rest) => (joinPieces pieces).map fun s => (String.ofList s, rest)
    | none => none
  | _ => none

def dropDigits (cs : List Char) : List Char := cs.dropWhile Char.isDigit

def dropDigits1 : List Char → Option (List Char)
  | c :: rest => if c.isDigit then some (dropDigits rest) else none
  | [] => none

def skipExponent (cs : List Char) : Option (List Char) :=
  match cs with
  | c :: rest =>
    if c = 'e' ∨ c = 'E' then
      match rest with
      | '+' :: rest => dropDigits1 rest
      | '-' :: rest => dropDigits1 rest
      | rest => dropDigits1 rest
    else some cs
  | [] => some []

def skipFraction : List Char → Option (List Char)
  | '.' :: rest => (dropDigits1 rest).bind skipExponent
  | cs => skipExponent cs

def skipNatural : List Char → Option (List Char)
  | '0' :: rest => skipFraction rest
  | cs => (dropDigits1 cs).bind skipFraction

def skipNumber : List Char → Option (List Char)
  | '-' :: rest => skipNatural rest
  | cs => skipNatural cs

mutual

def skipValue : Nat → List Char → Option (List Char)
  | 0, _ => none
  | fuel + 1, cs =>
    match dropBlanks cs with
    | '"' :: rest => (scanString .plain rest).map (·.2)
    | '[' :: rest =>
      match dropBlanks rest with
      | ']' :: rest => some rest
      | rest => skipItems fuel rest
    | '\x7b' :: rest =>
      match dropBlanks rest with
      | '\x7d' :: rest => some rest
      | rest => skipMembers fuel rest
    | 't' :: 'r' :: 'u' :: 'e' :: rest => some rest
    | 'f' :: 'a' :: 'l' :: 's' :: 'e' :: rest => some rest
    | 'n' :: 'u' :: 'l' :: 'l' :: rest => some rest
    | cs => skipNumber cs

def skipItems : Nat → List Char → Option (List Char)
  | 0, _ => none
  | fuel + 1, cs =>
    match (skipValue fuel cs).map dropBlanks with
    | some (']' :: rest) => some rest
    | some (',' :: rest) => skipItems fuel rest
    | _ => none

def skipMembers : Nat → List Char → Option (List Char)
  | 0, _ => none
  | fuel + 1, cs =>
    match dropBlanks cs with
    | '"' :: rest =>
      match (scanString .plain rest).map (dropBlanks ·.2) with
      | some (':' :: rest) =>
        match (skipValue fuel rest).map dropBlanks with
        | some ('\x7d' :: rest) => some rest
        | some (',' :: rest) => skipMembers fuel rest
        | _ => none
      | _ => none
    | _ => none

end

def readMembers (names : List String) :
    Nat → List (String × String) → List Char → Option (List (String × String) × List Char)
  | 0, _, _ => none
  | fuel + 1, found, cs =>
    match readString cs with
    | none => none
    | some (key, rest) =>
      match dropBlanks rest with
      | ':' :: rest =>
        let member :=
          if names.contains key then
            if (found.lookup key).isSome then none
            else (readString rest).map fun v => ((key, v.1) :: found, dropBlanks v.2)
          else (skipValue fuel rest).map fun rest => (found, dropBlanks rest)
        match member with
        | some (found, '\x7d' :: rest) => some (found, rest)
        | some (found, ',' :: rest) => readMembers names fuel found rest
        | _ => none
      | _ => none

def readItems : Nat → List Char → Option (List String × List Char)
  | 0, _ => none
  | fuel + 1, cs =>
    match readString cs with
    | none => none
    | some (item, rest) =>
      match dropBlanks rest with
      | ']' :: rest => some ([item], rest)
      | ',' :: rest => (readItems fuel rest).map fun r => (item :: r.1, r.2)
      | _ => none

def endsBlank (cs : List Char) : Bool := (dropBlanks cs).isEmpty

/--
The fields called `names`, in that order, of a record written as an object or as the array of exactly
its fields.
-/
def readRecord (names : List String) (text : String) : Option (List String) :=
  let cs := text.toList
  let fuel := 2 * cs.length + 2
  match dropBlanks cs with
  | '\x7b' :: rest =>
    match readMembers names fuel [] rest with
    | some (found, rest) => if endsBlank rest then names.mapM fun name => found.lookup name else none
    | none => none
  | '[' :: rest =>
    match readItems fuel rest with
    | some (items, rest) =>
      if endsBlank rest && items.length == names.length then some items else none
    | none => none
  | _ => none

end ControllerBench.Json
