namespace Reckoner

inductive Setting where
  | bool   (value : Bool)
  | number (value : Float)
  | text   (value : String)

-- A setting counts as a switch that is on unless it is false, zero or empty.
def Setting.isOn : Setting → Bool
  | bool b   => b
  | number x => x != 0
  | text s   => !s.isEmpty

structure Options where
  settings : List (String × Setting)

namespace Options

inductive Mismatch where
  | missing (key : String)
  | notBool
  | notNumber
  | notText

def Mismatch.message : Mismatch → String
  | missing key => "Missing option: " ++ key
  | notBool     => "Expected a Bool option"
  | notNumber   => "Expected a Number option"
  | notText     => "Expected a Text option"

def empty : Options :=
  ⟨[]⟩

def set (o : Options) (key : String) (value : Setting) : Options :=
  ⟨(key, value) :: o.settings⟩

def get? (o : Options) (key : String) : Option Setting :=
  o.settings.lookup key

def get (o : Options) (key : String) : Except Mismatch Setting :=
  (o.get? key).elim (.error <| .missing key) .ok

def bool (o : Options) (key : String) : Except Mismatch Bool := do
  match ← o.get key with
  | .bool b => return b
  | _       => throw .notBool

def number (o : Options) (key : String) : Except Mismatch Float := do
  match ← o.get key with
  | .number x => return x
  | _         => throw .notNumber

def text (o : Options) (key : String) : Except Mismatch String := do
  match ← o.get key with
  | .text s => return s
  | _       => throw .notText

def flag (o : Options) (key : String) : Bool :=
  (o.get? key).any Setting.isOn

def radians (o : Options) : Bool :=
  o.flag "rad"

end Options
end Reckoner
