namespace ObjectRelay.Text

def digitValue? (radix : Nat) (digit : Char) : Option Nat :=
  let value? :=
    if '0' ≤ digit ∧ digit ≤ '9' then some (digit.toNat - 48)
    else if 'a' ≤ digit ∧ digit ≤ 'z' then some (digit.toNat - 87)
    else if 'A' ≤ digit ∧ digit ≤ 'Z' then some (digit.toNat - 55)
    else none
  value?.filter (· < radix)

def isDigit (radix : Nat) (digit : Char) : Bool :=
  (digitValue? radix digit).isSome

def digitsValue (radix : Nat) (digits : List Char) : Nat :=
  digits.foldl (fun total digit =>
    total * radix + (digitValue? radix digit).getD 0) 0

end ObjectRelay.Text
