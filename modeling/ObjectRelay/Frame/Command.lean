import ObjectRelay.Bytes.Octets
import ObjectRelay.Text.Quoted
import ObjectRelay.Text.Utf8

namespace ObjectRelay

inductive CommandError where
  | afterTerminator (field : String)
  | empty
  | invisible (command : String)
  | unwritable (command : String)
deriving DecidableEq

def CommandError.message : CommandError → String
  | afterTerminator field =>
      s!"non-NUL byte after command terminator in {Text.quoted field}"
  | empty => "empty command"
  | invisible command => s!"non-ASCII command {Text.quoted command}"
  | unwritable command => command

namespace Command

def fieldSize : Nat := 12

def isVisible (byte : UInt8) : Bool :=
  0x21 ≤ byte && byte ≤ 0x7E

def read (field : Bytes) : Except CommandError String :=
  let command := field.takeWhile (· ≠ 0)
  let padding := field.dropWhile (· ≠ 0)
  if padding.any (· ≠ 0) then .error (.afterTerminator (Utf8.decode field))
  else if command.isEmpty then .error .empty
  else if command.all isVisible then .ok (Utf8.decode command)
  else .error (.invisible (Utf8.decode command))

def write (command : String) : Except CommandError Bytes :=
  let bytes := Utf8.encode command
  if 0 < bytes.length ∧ bytes.length ≤ fieldSize ∧ bytes.all isVisible then
    .ok (bytes ++ List.replicate (fieldSize - bytes.length) 0)
  else .error (.unwritable command)

end Command

end ObjectRelay
