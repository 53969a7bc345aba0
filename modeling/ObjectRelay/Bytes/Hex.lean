import ObjectRelay.Bytes.BigEndian

namespace ObjectRelay

namespace Bytes

def hexDigit (value : UInt8) : Char :=
  if value < 10 then Char.ofNat (48 + value.toNat)
  else Char.ofNat (87 + value.toNat)

def hexValue? (digit : Char) : Option UInt8 :=
  if '0' ≤ digit ∧ digit ≤ '9' then some (UInt8.ofNat (digit.toNat - 48))
  else if 'a' ≤ digit ∧ digit ≤ 'f' then some (UInt8.ofNat (digit.toNat - 87))
  else none

def hex (bytes : Bytes) : String :=
  bytes.foldl
    (fun text (byte : UInt8) =>
      (text.push (hexDigit (byte >>> 4))).push (hexDigit (byte &&& 15))) ""

/-- Digits are read in pairs, collecting the bytes in reverse. -/
def ofHexDigits? : List Char → Bytes → Option Bytes
  | [], read => some read.reverse
  | [_], _ => none
  | high :: low :: rest, read =>
      match hexValue? high, hexValue? low with
      | some high, some low => ofHexDigits? rest ((high <<< 4 ||| low) :: read)
      | _, _ => none

def ofHex? (text : String) : Option Bytes :=
  ofHexDigits? text.toList []

end Bytes

end ObjectRelay
