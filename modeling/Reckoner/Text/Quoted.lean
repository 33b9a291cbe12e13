import Reckoner.Text.Hidden

namespace Reckoner.Text

def escape (c : Char) : List Char :=
  match c with
  | '\x00' => ['\\', '0']
  | '\t'   => ['\\', 't']
  | '\r'   => ['\\', 'r']
  | '\n'   => ['\\', 'n']
  | '\\'   => ['\\', '\\']
  | '"'    => ['\\', '"']
  | _      => if isHidden c then hex c else [c]
where
  hex c := ['\\', 'u', '\x7b'] ++ Nat.toDigits 16 c.toNat ++ ['\x7d']

def quoted (s : String) : String :=
  .ofList <| '"' :: s.toList.flatMap escape ++ ['"']

end Reckoner.Text
